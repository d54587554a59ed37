import ShishiTodo.Native.Store
import ShishiTodo.Native.Projection

/-!
# What the server sends

`apply_server_result` and the smaller operations on the outbox and the session. Acknowledgements and changes are written to the outbox and the shadow, each change once to its row, and the entities they touch are projected again at the end.
-/

namespace ShishiTodo.Native

open Lib

/-! ### The outbox -/

/-- The first pending rows in the order of their sequence. -/
def pendingMutations (store : Store) (limit : Nat) : List OutboxRow :=
  ((store.outbox.values.filter fun row => row.status == .pending).insertionSort
    fun left right => left.clientSeq ≤ right.clientSeq).take (max 1 (min limit 500))

def Store.withOutbox (store : Store) (outbox : Table String OutboxRow) : Store :=
  { store with outbox := outbox }

/-- `UPDATE outbox`: what the test selects is rewritten. -/
def rewriteOutbox (outbox : Table String OutboxRow) (change : OutboxRow → OutboxRow) :
    Table String OutboxRow where
  entries := outbox.entries.map fun entry => ⟨entry.1, change entry.2⟩
  nodupKeys := by
    rw [List.NodupKeys, List.keys, List.map_map]
    exact outbox.nodupKeys

theorem lookup_rewriteOutbox (outbox : Table String OutboxRow) (change : OutboxRow → OutboxRow)
    (opId : String) : (rewriteOutbox outbox change).lookup opId = (outbox.lookup opId).map change :=
  Table.lookup_rewrite outbox (fun _ => change) opId

def syncSetEnabled (store : Store) (enabled : Bool) : Store :=
  let change := fun row : OutboxRow =>
    if enabled then if row.status = .localOnly then { row with status := .pending } else row
    else if row.status = .pending then { row with status := .localOnly } else row
  { store with
    outbox := rewriteOutbox store.outbox change
    kv := { store.kv with syncEnabled := enabled } }

/-- The rows as `rotate_device_id` numbers them: in the order of their sequence and time, under the new device. -/
def renumbered (deviceId : String) (rows : List OutboxRow) : List OutboxRow :=
  ((rows.insertionSort fun left right => left.clientSeq < right.clientSeq ∨
      left.clientSeq = right.clientSeq ∧ left.createdAt ≤ right.createdAt).zipIdx 1).map
    fun (row, index) => { row with
      deviceId := deviceId
      clientSeq := index
      status := .localOnly
      errorCode := none }

def rotateDeviceId (store : Store) (deviceId : String) : Store :=
  let rows := renumbered deviceId store.outbox.values
  { store with
    outbox := rewriteOutbox store.outbox fun row =>
      (rows.find? fun other => other.opId == row.opId).getD row
    kv := { store.kv with
      deviceId := deviceId
      clientSeq := 0
      syncCursor := "0"
      syncEnabled := false
      bootstrapRequired := false } }

def syncClearAccountBinding (store : Store) : Store :=
  { store with
    outbox := ∅
    kv := { store.kv with
      boundAccount := none
      boundApiUrl := none
      syncEnabled := false
      syncCursor := "0"
      clientSeq := 0
      bootstrapRequired := false } }

def syncSetSession (store : Store) (session : Option String) : Store :=
  { store with kv := { store.kv with syncSession := session } }

def assertSyncSession (store : Store) (expected : Option String) : StoreResult Unit :=
  refuseIf (expected.isSome ∧ store.kv.syncSession ≠ expected) .staleSyncSession

/-! ### Acknowledgements -/

inductive AckEffect where
  | reject | remove | ignore
  deriving DecidableEq, Repr

def ackEffect : String → AckEffect
  | "rejected" => .reject
  | "applied" | "already_processed" | "accepted" => .remove
  | _ => .ignore

def applyAck (outbox : Table String OutboxRow) (ack : ServerAck) : Table String OutboxRow :=
  match ackEffect ack.status with
  | .reject =>
      match outbox.lookup ack.opId with
      | some row => outbox.insert ack.opId { row with status := .rejected, errorCode := ack.errorCode }
      | none => outbox
  | .remove => outbox.erase ack.opId
  | .ignore => outbox

/-- The entities of the acknowledged rows, each looked up before its own ack is applied, and the outbox after all of them. -/
def applyAcks (outbox : Table String OutboxRow) :
    List ServerAck → List RowKey × Table String OutboxRow
  | [] => ([], outbox)
  | ack :: rest =>
      let (affected, final) := applyAcks (applyAck outbox ack) rest
      ((outbox.lookup ack.opId).toList.map OutboxRow.key ++ affected, final)

/-! ### Reading a change -/

def optionalTextValue : Option Json → StoreResult (Option String)
  | none | some .null => .ok none
  | some (.str value) => .ok (some value)
  | some _ => .error (.validation "server change expected a string")

/-- `Number::as_i64`: a literal with a fraction, or beyond 64 bits, is none. -/
def asI64 (literal : String) : Option Int :=
  literal.toInt?.filter fun value => -9223372036854775808 ≤ value ∧ value ≤ 9223372036854775807

def boolValue : Option Json → Option Bool
  | some (.bool value) => some value
  | some (.num literal) => some ((asI64 literal).getD 0 != 0)
  | _ => none

section

variable (texts : Texts)

/-- Whether an underscore came just before. -/
def camelChars : Bool → List Char → List Char
  | _, [] => []
  | uppercase, c :: rest =>
      if c = '_' then camelChars true rest
      else if uppercase then (texts.toUppercase c).toList ++ camelChars false rest
      else c :: camelChars false rest

def snakeToCamel (value : String) : String := String.ofList (camelChars texts false value.toList)

/-- `Map::insert` of all members of a patch. -/
def mergeData (patch data : Data) : Data :=
  patch.foldl (fun data (key, value) => Json.putMember key value data) data

def camelizeObject (object : Data) : Data :=
  mergeData (object.map fun (key, value) => (snakeToCamel texts key, value)) []

/-- The members of a patch; `null` has none. -/
def patchObject : Json → StoreResult Data
  | .obj members => .ok members
  | .null => .ok []
  | _ => .error (.validation "server change patch 必须是对象")

/-- The patch with the tombstone that its kind implies. -/
def normalizedPatch (kind : MutationKind) (patch : Data) (now : String) : Data :=
  match kind with
  | .delete => if (patch.lookup "deletedAt").isSome then patch
      else Json.putMember "deletedAt" (.str now) patch
  | .restore => Json.putMember "deletedAt" .null patch
  | .create | .patch => patch

end

/-! ### An update of a row -/

inductive FieldKind where
  | text | bool | json
  deriving DecidableEq, Repr

/-- The columns that a change can set. -/
def assignable : EntityType → List (String × FieldKind)
  | .task => [
      ("listId", .text), ("title", .text), ("note", .text), ("tags", .json), ("status", .text),
      ("important", .bool), ("dueOn", .text), ("remindAt", .text), ("remindTimezone", .text),
      ("rank", .text), ("seriesId", .text), ("occurrenceKey", .text), ("recurrence", .json),
      ("completedAt", .text), ("createdAt", .text), ("deletedAt", .text)]
  | .list => [
      ("name", .text), ("color", .text), ("icon", .text), ("rank", .text), ("createdAt", .text),
      ("deletedAt", .text)]
  | .step => [
      ("taskId", .text), ("title", .text), ("isCompleted", .bool), ("rank", .text),
      ("createdAt", .text), ("deletedAt", .text)]
  | .dayPlan => [
      ("taskId", .text), ("localDate", .text), ("rank", .text), ("createdAt", .text),
      ("deletedAt", .text)]

inductive SqlValue where
  | null
  | text (value : String)
  | integer (value : Bool)
  | json (value : Json)
  deriving DecidableEq, Repr

def sqlValue (kind : FieldKind) (value : Json) : StoreResult SqlValue :=
  match kind with
  | .text => (optionalTextValue (some value)).map fun text => text.elim .null .text
  | .bool => .ok ((boolValue (some value)).elim .null .integer)
  | .json => .ok (if value = .null then .null else .json value)

/-- The columns to set, by the names of their fields. -/
def serverAssignments (entity : EntityType) : Data → StoreResult (List (String × SqlValue))
  | [] => .ok []
  | (key, value) :: rest =>
      match (assignable entity).lookup key with
      | none => serverAssignments entity rest
      | some kind => do
          let value ← sqlValue kind value
          let rest ← serverAssignments entity rest
          return (key, value) :: rest

/-- A nullable column. -/
def nullableText (value : SqlValue) : Option String :=
  match value with
  | .text text => some text
  | _ => none

/-- A column that is `NOT NULL`. -/
def requiredColumn {α : Type} (value : Option α) : StoreResult α :=
  match value with
  | some value => .ok value
  | none => .error .database

def requiredBool : SqlValue → StoreResult Bool
  | .integer value => .ok value
  | _ => .error .database

/-- `row_to_task` reads a `tags_json` that is no list of strings as no tags. -/
def tagsColumn : SqlValue → StoreResult (List String)
  | .json (.arr items) =>
      .ok (if items.all fun item => (asStr item).isSome then items.filterMap asStr else [])
  | .json _ => .ok []
  | _ => .error .database

def recurrenceColumn : SqlValue → Option Json
  | .json value => some value
  | _ => none

/-- `CHECK (status IN ('open', 'completed'))`. -/
def statusColumn (value : SqlValue) : StoreResult TaskStatus :=
  requiredColumn ((nullableText value).bind TaskStatus.parse)

def setTask (task : Task) : String × SqlValue → StoreResult Task
  | ("listId", value) => .ok { task with listId := nullableText value }
  | ("title", value) => do return { task with title := ← requiredColumn (nullableText value) }
  | ("note", value) => do return { task with note := ← requiredColumn (nullableText value) }
  | ("tags", value) => do return { task with tags := ← tagsColumn value }
  | ("status", value) => do return { task with status := ← statusColumn value }
  | ("important", value) => do return { task with important := ← requiredBool value }
  | ("dueOn", value) => .ok { task with dueOn := nullableText value }
  | ("remindAt", value) => .ok { task with remindAt := nullableText value }
  | ("remindTimezone", value) => .ok { task with remindTimezone := nullableText value }
  | ("rank", value) => do return { task with rank := ← requiredColumn (nullableText value) }
  | ("seriesId", value) => .ok { task with seriesId := nullableText value }
  | ("occurrenceKey", value) => .ok { task with occurrenceKey := nullableText value }
  | ("recurrence", value) => .ok { task with recurrence := recurrenceColumn value }
  | ("completedAt", value) => .ok { task with completedAt := nullableText value }
  | ("createdAt", value) => do return { task with createdAt := ← requiredColumn (nullableText value) }
  | ("deletedAt", value) => .ok { task with deletedAt := nullableText value }
  | _ => .ok task

def setList (list : TaskList) : String × SqlValue → StoreResult TaskList
  | ("name", value) => do return { list with name := ← requiredColumn (nullableText value) }
  | ("color", value) => .ok { list with color := nullableText value }
  | ("icon", value) => .ok { list with icon := nullableText value }
  | ("rank", value) => do return { list with rank := ← requiredColumn (nullableText value) }
  | ("createdAt", value) => do return { list with createdAt := ← requiredColumn (nullableText value) }
  | ("deletedAt", value) => .ok { list with deletedAt := nullableText value }
  | _ => .ok list

def setStep (step : Step) : String × SqlValue → StoreResult Step
  | ("taskId", value) => do return { step with taskId := ← requiredColumn (nullableText value) }
  | ("title", value) => do return { step with title := ← requiredColumn (nullableText value) }
  | ("isCompleted", value) => do return { step with isCompleted := ← requiredBool value }
  | ("rank", value) => do return { step with rank := ← requiredColumn (nullableText value) }
  | ("createdAt", value) => do return { step with createdAt := ← requiredColumn (nullableText value) }
  | ("deletedAt", value) => .ok { step with deletedAt := nullableText value }
  | _ => .ok step

def setDayPlan (plan : DayPlan) : String × SqlValue → StoreResult DayPlan
  | ("taskId", value) => do return { plan with taskId := ← requiredColumn (nullableText value) }
  | ("localDate", value) => do return { plan with localDate := ← requiredColumn (nullableText value) }
  | ("rank", value) => do return { plan with rank := ← requiredColumn (nullableText value) }
  | ("createdAt", value) => do return { plan with createdAt := ← requiredColumn (nullableText value) }
  | ("deletedAt", value) => .ok { plan with deletedAt := nullableText value }
  | _ => .ok plan

/-- The row after `UPDATE … SET` of the columns and `updated_at`. -/
def assignRow (row : Row) (assignments : List (String × SqlValue)) (now : String) : StoreResult Row :=
  match row with
  | .task task => do
      let task ← assignments.foldlM setTask task
      return .task { task with updatedAt := now }
  | .list list => do
      let list ← assignments.foldlM setList list
      return .list { list with updatedAt := now }
  | .step step => do
      let step ← assignments.foldlM setStep step
      return .step { step with updatedAt := now }
  | .dayPlan plan => do
      let plan ← assignments.foldlM setDayPlan plan
      return .dayPlan { plan with updatedAt := now }

/-! ### A new row -/

def textOr (data : Data) (key fallback : String) : String := (stringField data key).getD fallback

/-- A text that is not blank. -/
def filledText (data : Data) (key fallback : String) : String :=
  ((stringField data key).filter fun text => !(trim text).isEmpty).getD fallback

def createdTask (id : String) (merged : Data) (now : String) : StoreResult Task := do
  let dueOn ← optionalTextValue (merged.lookup "dueOn")
  let remindAt ← optionalTextValue (merged.lookup "remindAt")
  let remindTimezone ← optionalTextValue (merged.lookup "remindTimezone")
  let seriesId ← optionalTextValue (merged.lookup "seriesId")
  let occurrenceKey ← optionalTextValue (merged.lookup "occurrenceKey")
  let completedAt ← optionalTextValue (merged.lookup "completedAt")
  let deletedAt ← optionalTextValue (merged.lookup "deletedAt")
  let listId ← optionalTextValue (merged.lookup "listId")
  return {
    id := id
    listId := listId
    title := filledText merged "title" "未命名任务"
    note := textOr merged "note" ""
    tags := tagsFromData merged
    status := statusField merged
    important := (boolValue (merged.lookup "important")).getD false
    dueOn := dueOn
    remindAt := remindAt
    remindTimezone := remindTimezone
    rank := textOr merged "rank" "a0"
    seriesId := seriesId
    occurrenceKey := occurrenceKey
    recurrence := recurrenceField merged
    completedAt := completedAt
    createdAt := textOr merged "createdAt" now
    updatedAt := now
    deletedAt := deletedAt }

def createdList (id : String) (merged : Data) (now : String) : StoreResult TaskList := do
  let color ← optionalTextValue (merged.lookup "color")
  let icon ← optionalTextValue (merged.lookup "icon")
  let deletedAt ← optionalTextValue (merged.lookup "deletedAt")
  return {
    id := id
    name := filledText merged "name" "未命名清单"
    color := color
    icon := icon
    rank := textOr merged "rank" "a0"
    createdAt := textOr merged "createdAt" now
    updatedAt := now
    deletedAt := deletedAt }

def createdStep (id taskId : String) (merged : Data) (now : String) : StoreResult Step := do
  let deletedAt ← optionalTextValue (merged.lookup "deletedAt")
  return {
    id := id
    taskId := taskId
    title := textOr merged "title" ""
    isCompleted := (boolValue (merged.lookup "isCompleted")).getD false
    rank := textOr merged "rank" "a0"
    createdAt := textOr merged "createdAt" now
    updatedAt := now
    deletedAt := deletedAt }

def createdDayPlan (id taskId localDate : String) (merged : Data) (now : String) :
    StoreResult DayPlan := do
  let deletedAt ← optionalTextValue (merged.lookup "deletedAt")
  return {
    id := id
    taskId := taskId
    localDate := localDate
    rank := textOr merged "rank" "a0"
    createdAt := textOr merged "createdAt" now
    updatedAt := now
    deletedAt := deletedAt }

def insertCreatedTask (tx : Tx) (id : String) (merged : Data) (now : String) : StoreResult Tx := do
  let listId ← optionalTextValue (merged.lookup "listId")
  let _ ← optionally listId (ensureActiveList tx.store)
  let task ← createdTask id merged now
  validateNonEmptyId task.id
  let _ ← cleanTitle task.title
  tx.insert (.task task)

def insertCreatedList (tx : Tx) (id : String) (merged : Data) (now : String) : StoreResult Tx := do
  let list ← createdList id merged now
  tx.insert (.list list)

/-- Without a task there is nothing to insert. -/
def insertCreatedStep (tx : Tx) (id : String) (merged : Data) (now : String) : StoreResult Tx := do
  match ← optionalTextValue (merged.lookup "taskId") with
  | none => return tx
  | some taskId => do
      let step ← createdStep id taskId merged now
      tx.insert (.step step)

/-- Without a task or a date there is nothing to insert. -/
def insertCreatedDayPlan (tx : Tx) (id : String) (merged : Data) (now : String) : StoreResult Tx := do
  match ← optionalTextValue (merged.lookup "taskId") with
  | none => return tx
  | some taskId => do
      match ← optionalTextValue (merged.lookup "localDate") with
      | none => return tx
      | some localDate => do
          let plan ← createdDayPlan id taskId localDate merged now
          tx.insert (.dayPlan plan)

def insertCreated (tx : Tx) (key : RowKey) (merged : Data) (now : String) : StoreResult Tx :=
  match key with
  | (.task, id) => insertCreatedTask tx id merged now
  | (.list, id) => insertCreatedList tx id merged now
  | (.step, id) => insertCreatedStep tx id merged now
  | (.dayPlan, id) => insertCreatedDayPlan tx id merged now

/-! ### Changes -/

def ServerChange.key (change : ServerChange) : RowKey := (change.entity, change.entityId)

/-- An existing row takes the fields of the change; only a creation makes a new one. -/
def applyMaterializedChange (tx : Tx) (key : RowKey) (kind : MutationKind) (patch merged : Data)
    (now : String) : StoreResult Tx :=
  match tx.tables.find key with
  | some row => do
      let assignments ← serverAssignments key.1 patch
      let row ← assignRow row assignments now
      tx.write row
  | none => if kind = .create then insertCreated tx key merged now else .ok tx

/-- The transaction with another copy of an entity. -/
def Tx.withShadow (tx : Tx) (key : RowKey) (shadow : ShadowRow) : Tx :=
  { tx with store := { tx.store with shadow := tx.store.shadow.insert key shadow } }

def shadowPayload (store : Store) (key : RowKey) : Data :=
  (store.shadow.lookup key).elim [] ShadowRow.payload

def applyServerChange (texts : Texts) (now : String) (tx : Tx) (change : ServerChange) :
    StoreResult Tx := do
  let object ← patchObject change.patch
  let patch := normalizedPatch change.kind (camelizeObject texts object) now
  let merged := mergeData patch (shadowPayload tx.store change.key)
  applyMaterializedChange (tx.withShadow change.key ⟨change.serverSeq, merged⟩) change.key change.kind
    patch merged now

def applyServerResult (texts : Texts) (now : String) (store : Store)
    (request : ApplyServerResultRequest) : StoreResult Store := do
  assertSyncSession store request.sessionId
  let (acknowledged, outbox) := applyAcks store.outbox request.acks
  let tx ← request.changes.foldlM (applyServerChange texts now) (store.withOutbox outbox).begin
  let affected := acknowledged ++ request.changes.map ServerChange.key
  let tx ← reprojectEntities texts tx affected now
  return { tx.store with kv := { tx.store.kv with
    syncCursor := request.nextCursor
    bootstrapRequired := false } }

/-- `sync_clear_rejected`. -/
def syncClearRejected (texts : Texts) (now : String) (store : Store) : StoreResult Store := do
  let rejected := (store.outbox.values.filter fun row => row.status == .rejected).map OutboxRow.key
  let kept := store.withOutbox (store.outbox.select fun _ row => row.status != .rejected)
  let tx ← reprojectEntities texts kept.begin rejected now
  return tx.store

end ShishiTodo.Native
