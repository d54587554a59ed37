import ShishiTodo.Web.Merge
import ShishiTodo.Sync.Transport
import ShishiTodo.Shared.Engine
import ShishiTodo.Native.Sync

/-!
# The outbox in the browser

The transactions of `DexieTaskRepository` that write the `mutations` table or the counters of the `meta` table, each as it comes in the source. What a local write or a reprojection leaves in the entity tables, and in the shadow, is given with the call: the numbers in the outbox do not depend on it.
-/

namespace ShishiTodo.Web

open Lib Native Sync

/-! ### Local writes -/

/-- What a local write hands to `appendMutation`, with the id of `newUuidV7`. -/
structure Edit where
  opId : String
  entity : EntityType
  entityId : String
  kind : MutationKind
  patch : Data
  now : String
  deriving DecidableEq, Repr

def appendMutation (db : Db) (edit : Edit) : Db :=
  let clientSeq := db.kv.clientSeq + 1
  let mutation : OutboxRow := {
    opId := edit.opId
    deviceId := db.kv.deviceId
    clientSeq := clientSeq
    entity := edit.entity
    entityId := edit.entityId
    kind := edit.kind
    patch := edit.patch
    createdAt := edit.now
    status := if db.kv.syncEnabled then .pending else .localOnly
    errorCode := none }
  { db with
    mutations := db.mutations.insert edit.opId mutation
    kv := { db.kv with clientSeq := clientSeq } }

/-- One local operation: its writes to the entity tables, and its edits in the order they are logged. -/
def localWrite (db : Db) (rows : Tables) (edits : List Edit) : Db :=
  edits.foldl appendMutation { db with rows := rows }

/-! ### Import and clear -/

/-- `isDateOnly`. `Date.UTC` moves the years below 100, so they are no dates. -/
def isDateOnly (text : String) : Bool :=
  (Codecs.readDate text.toList).any fun date => Codecs.daysFromCivil 100 1 1 ≤ date.days

def isBlank (text : String) : Bool := (jsTrim text.toList).isEmpty

/-- The `meta` rows that `importData` and `clearAll` write. -/
def MetaRows.unbound (kv : MetaRows) : MetaRows :=
  { kv with
    syncEnabled := false
    boundAccount := ""
    syncCursor := "0"
    clientSeq := 0
    bootstrapRequired := false }

def importData (db : Db) (bundle : ExportBundle) (mode : ImportMode) : StoreResult Db := do
  refuseIf (bundle.format ≠ "todo-export" ∨ bundle.version ≠ 1) (.validation "备份格式不受支持")
  refuseIf (bundle.tasks.any fun task =>
    isBlank task.title || task.dueOn.any fun dueOn => !isDateOnly dueOn) (.validation "备份中存在无效任务")
  refuseIf (bundle.lists.any fun list => isBlank list.name) (.validation "备份中存在无效清单")
  refuseIf (bundle.dayPlans.any fun plan => !isDateOnly plan.localDate)
    (.validation "备份中存在无效计划记录")
  let kept := match mode with
    | .replace => .empty
    | .merge => db.rows
  return {
    rows := bundle.rows.foldl Tables.put kept
    mutations := ∅
    shadow := ∅
    kv := db.kv.unbound }

def clearAll (db : Db) : Db where
  rows := .empty
  mutations := ∅
  shadow := ∅
  kv := { db.kv.unbound with syncSession := none }

/-! ### Session, device and account -/

def syncSetSession (db : Db) (sessionId : String) : Db :=
  { db with kv := { db.kv with syncSession := some sessionId } }

def syncClearSession (db : Db) (expectedToken : Option String) : Db :=
  if expectedToken.isSome ∧ db.kv.syncSession = expectedToken then
    { db with kv := { db.kv with syncSession := none } }
  else db

/-- The rows of the outbox go to the new device with the numbers they have. -/
def syncRotateDevice (db : Db) (deviceId : String) : Db :=
  { db with
    mutations := rewriteOutbox db.mutations fun row =>
      { row with deviceId := deviceId, status := .localOnly }
    kv := { db.kv with
      deviceId := deviceId
      clientSeq := 0
      syncCursor := "0"
      syncEnabled := false } }

def syncSetEnabled (db : Db) (enabled : Bool) : Db :=
  let change := fun row : OutboxRow =>
    if enabled then if row.status = .localOnly then { row with status := .pending } else row
    else if row.status = .pending then { row with status := .localOnly } else row
  { db with
    mutations := rewriteOutbox db.mutations change
    kv := { db.kv with syncEnabled := enabled } }

def syncMarkBootstrapRequired (db : Db) : Db :=
  { db with kv := { db.kv with bootstrapRequired := true } }

def syncClearAccountBinding (db : Db) : Db :=
  { db with
    mutations := ∅
    kv := { db.kv with
      boundAccount := ""
      syncEnabled := false
      syncCursor := "0"
      clientSeq := 0 } }

/-- The transactions of `syncDiscardRejected` and `syncClearRejected`: the rows that were read as rejected before it are deleted, and what they touched is projected again. -/
def deleteRejected (db : Db) (opIds : List String) (rows : Tables) : Db :=
  { db with
    rows := rows
    mutations := db.mutations.select fun opId _ => !opIds.contains opId }

/-! ### A round -/

def syncOp (row : OutboxRow) : SyncOp where
  opId := row.opId
  clientSeq := row.clientSeq
  entity := row.entity
  entityId := row.entityId
  kind := row.kind
  patch := row.patch

/-- The index of `status` gives the rows by their id, and `sortBy` is stable. -/
def outboxOrder (left right : OutboxRow) : Prop :=
  left.clientSeq < right.clientSeq ∨ left.clientSeq = right.clientSeq ∧ left.opId ≤ right.opId

instance : DecidableRel outboxOrder := fun left right => by
  unfold outboxOrder
  infer_instance

def syncGetPending (db : Db) (limit : Nat) : List SyncOp :=
  (((db.mutations.values.filter fun row => row.status = .pending).insertionSort outboxOrder).take
    (max 1 limit)).map syncOp

/-- An acknowledgement of a row that was there when the rows were read. -/
def applyAck (env : Env) (acknowledged : List String) (mutations : Table String OutboxRow)
    (ack : Ack) : Table String OutboxRow :=
  let opId := env.uuid.render ack.opId
  if opId ∈ acknowledged then
    if ack.status = .rejected then
      match mutations.lookup opId with
      | some row => mutations.insert opId { row with
          status := .rejected
          errorCode := some (ack.errorCode.getD "UNKNOWN") }
      | none => mutations
    else mutations.erase opId
  else mutations

/-- `syncApplyResult`, with what the changes and the reprojection leave in the tables. -/
def syncApplyResult (env : Env) (db : Db) (response : SyncResponse) (acknowledged : List String)
    (rows : Tables) (shadow : Table RowKey ShadowRow) (sessionId : Option String) :
    StoreResult Db := do
  assertSyncSession db sessionId
  return {
    rows := rows
    mutations := response.ack.foldl (applyAck env acknowledged) db.mutations
    shadow := shadow
    kv := { db.kv with
      syncCursor := response.nextCursor
      bootstrapRequired := false } }

/-- `syncReplaceSnapshot`, with the rows it merges. The outbox is left alone. -/
def syncReplaceSnapshot (db : Db) (snapshot : CloudSnapshot) (rows : Tables)
    (sessionId : Option String) : StoreResult Db := do
  assertSyncSession db sessionId
  return {
    rows := rows
    mutations := db.mutations
    shadow := shadowOfSnapshot snapshot
    kv := { db.kv with
      syncCursor := snapshot.cursor
      bootstrapRequired := false } }

end ShishiTodo.Web
