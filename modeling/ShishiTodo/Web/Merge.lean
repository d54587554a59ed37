import ShishiTodo.Native.Merge

/-!
# Joining an account in the browser

`DexieTaskRepository.syncInitializeCloud`: the same rule as the native store's, over tables without constraints. Texts are compared by their UTF-16 code units, an empty `deletedAt` is no tombstone, and a slot is found by its text.
-/

namespace ShishiTodo.Web

open Lib Native

/-- The rows of the `meta` table. -/
structure MetaRows where
  deviceId : String
  clientSeq : Int
  syncEnabled : Bool
  syncCursor : String
  boundAccount : String
  bootstrapRequired : Bool
  syncSession : Option String
  deriving DecidableEq, Repr

/-- `ShishiDatabase`. The rows of the `mutations` table are those of the native outbox. -/
structure Db where
  rows : Tables
  mutations : Table String OutboxRow
  shadow : Table RowKey ShadowRow
  kv : MetaRows

/-- `assertSyncSession`: no session, or an empty one, is not checked. -/
def assertSyncSession (db : Db) (expected : Option String) : StoreResult Unit :=
  refuseIf (expected.any (fun session => !session.isEmpty) ∧ db.kv.syncSession ≠ expected)
    .staleSyncSession

/-! ### The rules of a merge -/

/-- `MUTABLE_FIELDS`. -/
def mutableFields : EntityType → List String
  | .task => [
      "listId", "title", "note", "status", "important", "dueOn", "remindAt", "remindTimezone", "rank",
      "seriesId", "occurrenceKey", "recurrence", "completedAt"]
  | .list => ["name", "color", "icon", "rank"]
  | .step => ["taskId", "title", "isCompleted", "rank"]
  | .dayPlan => ["taskId", "localDate", "rank"]

def mutablePatch (entity : EntityType) (value : Data) : Data :=
  (mutableFields entity).filterMap fun field => (value.lookup field).map fun found => (field, found)

def fullPatch (entity : EntityType) (value : Data) : Data := mutablePatch entity value

/-- The code units of a JavaScript string. -/
def codeUnits (text : String) : List Nat :=
  text.toList.flatMap fun c =>
    let n := c.toNat
    if n < 0x10000 then [n] else [0xD800 + (n - 0x10000) / 0x400, 0xDC00 + (n - 0x10000) % 0x400]

def later (left right : String) : Bool :=
  if left.isEmpty then false
  else if right.isEmpty then true
  else decide (codeUnits right < codeUnits left)

/-- `deletedAt` is a text that is not empty. -/
def isDeleted (row : Row) : Bool := row.deletedAt.any fun deletedAt => !deletedAt.isEmpty

/-- `remotePlanKeys`: the text of a slot. -/
def slotText (plan : DayPlan) : String := plan.taskId ++ ":" ++ plan.localDate

section

variable (snapshot : CloudSnapshot)

/-- The snapshot has another plan in the slot. -/
def holdsSlot : Row → Bool
  | .dayPlan plan =>
      (snapshot.dayPlans.reverse.find? fun other => slotText other = slotText plan).any fun other =>
        other.id != plan.id
  | _ => false

def mergeVerdict (row : Row) : Verdict :=
  match snapshot.find row.key with
  | none => if !isDeleted row && !holdsSlot snapshot row then .create else .leave
  | some server =>
      if isDeleted row then if !isDeleted server then .delete else .keep
      else if isDeleted server then
        if later row.updatedAt server.updatedAt then .restore else .leave
      else if later row.updatedAt server.updatedAt then .patch else .leave

/-- `mergedLists`, `mergedTasks`, `mergedSteps` and `mergedPlans`. -/
def mergedLocal (rows : List Row) : Tables :=
  rows.foldl (fun merged row => if (mergeVerdict snapshot row).takes then merged.put row else merged)
    (.collect snapshot.rows)

/-- The operations in the order in which the rows are gone through. -/
def ops (rows : List Row) : List PreparedOp :=
  rows.filterMap fun row => (mergeVerdict snapshot row).op (fullPatch row.entity row.data) row.key

end

def orderedOps (ops : List PreparedOp) : List PreparedOp :=
  [EntityType.list, .task, .step, .dayPlan].flatMap fun entity =>
    ops.filter fun op => op.key.1 = entity

/-! ### The operation -/

/-- The rows of the outbox for the operations, numbered from one. -/
def uploads (deviceId now : String) (opIds : Nat → String) (ops : List PreparedOp) : List OutboxRow :=
  (ops.zipIdx 1).map fun (op, seq) => {
    opId := opIds seq
    deviceId := deviceId
    clientSeq := seq
    entity := op.key.1
    entityId := op.key.2
    kind := op.kind
    patch := op.patch
    createdAt := now
    status := .pending
    errorCode := none }

/-- `bulkPut` into an empty table. -/
def outboxOf (rows : List OutboxRow) : Table String OutboxRow :=
  rows.foldl (fun mutations row => mutations.insert row.opId row) ∅

/-- The database after the initialization, with the operations it uploads. The name of the account is written as it comes. -/
def initialized (db : Db) (rows : Tables) (uploads : List OutboxRow) (snapshot : CloudSnapshot)
    (accountEmail : String) : Db where
  rows := rows
  mutations := outboxOf uploads
  shadow := shadowOfSnapshot snapshot
  kv := { db.kv with
    clientSeq := uploads.length
    syncCursor := snapshot.cursor
    syncEnabled := true
    boundAccount := accountEmail
    bootstrapRequired := false }

/-- The operations that are uploaded, and the database. -/
def syncInitializeCloud (db : Db) (now : String) (opIds : Nat → String) (snapshot : CloudSnapshot)
    (mode : CloudMergeMode) (accountEmail : String) (sessionId : Option String) :
    StoreResult (List OutboxRow × Db) := do
  assertSyncSession db sessionId
  match mode with
  | .cloud => return ([], initialized db (.collect snapshot.rows) [] snapshot accountEmail)
  | .merge =>
      let uploads := uploads db.kv.deviceId now opIds (orderedOps (ops snapshot db.rows.rows))
      return (uploads, initialized db (mergedLocal snapshot db.rows.rows) uploads snapshot accountEmail)

end ShishiTodo.Web
