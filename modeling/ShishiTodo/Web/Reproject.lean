import ShishiTodo.Lib.Slots
import ShishiTodo.Web.Operations

/-!
# Projections in the browser

`DexieTaskRepository.reprojectEntity` and the two operations that discard what the server rejected. A Dexie transaction names its tables; an access to another table is refused, and the transaction is undone.
-/

namespace ShishiTodo.Web

open Lib Native

/-! ### Reading a row -/

def optionalString : Option Json → Option String
  | some (.str text) => if text.isEmpty then none else some text
  | _ => none

def requiredString (value : Option Json) (fallback : String) : String :=
  match value with
  | some (.str text) => text
  | _ => fallback

/-- `isDateOnly` of a value that may be no text. -/
def dateOnly : Option Json → Option String
  | some (.str text) => if isDateOnly text then some text else none
  | _ => none

/-- A task that is read from data has no tags. -/
def taskFromData (id : String) (data : Data) (now : String) : Task where
  id := id
  listId := optionalString (data.lookup "listId")
  title := requiredString (data.lookup "title") ""
  note := requiredString (data.lookup "note") ""
  tags := []
  status := if data.lookup "status" = some (.str "completed") then .completed else .open
  important := data.lookup "important" = some (.bool true)
  dueOn := dateOnly (data.lookup "dueOn")
  remindAt := optionalString (data.lookup "remindAt")
  remindTimezone := optionalString (data.lookup "remindTimezone")
  rank := requiredString (data.lookup "rank") "a0"
  seriesId := optionalString (data.lookup "seriesId")
  occurrenceKey := optionalString (data.lookup "occurrenceKey")
  recurrence := (data.lookup "recurrence").filter Json.isObject
  completedAt := optionalString (data.lookup "completedAt")
  createdAt := (optionalString (data.lookup "createdAt")).getD now
  updatedAt := (optionalString (data.lookup "updatedAt")).getD now
  deletedAt := optionalString (data.lookup "deletedAt")

def listFromData (id : String) (data : Data) (now : String) : TaskList where
  id := id
  name := requiredString (data.lookup "name") ""
  color := optionalString (data.lookup "color")
  icon := optionalString (data.lookup "icon")
  rank := requiredString (data.lookup "rank") "a0"
  createdAt := (optionalString (data.lookup "createdAt")).getD now
  updatedAt := (optionalString (data.lookup "updatedAt")).getD now
  deletedAt := optionalString (data.lookup "deletedAt")

def stepFromData (id : String) (data : Data) (now : String) : Step where
  id := id
  taskId := requiredString (data.lookup "taskId") ""
  title := requiredString (data.lookup "title") ""
  isCompleted := data.lookup "isCompleted" = some (.bool true)
  rank := requiredString (data.lookup "rank") "a0"
  createdAt := (optionalString (data.lookup "createdAt")).getD now
  updatedAt := (optionalString (data.lookup "updatedAt")).getD now
  deletedAt := optionalString (data.lookup "deletedAt")

def dayPlanFromData (id : String) (data : Data) (now : String) : DayPlan where
  id := id
  taskId := requiredString (data.lookup "taskId") ""
  localDate := (dateOnly (data.lookup "localDate")).getD "1970-01-01"
  rank := requiredString (data.lookup "rank") "a0"
  createdAt := (optionalString (data.lookup "createdAt")).getD now
  updatedAt := (optionalString (data.lookup "updatedAt")).getD now
  deletedAt := optionalString (data.lookup "deletedAt")

def materialize (key : RowKey) (data : Data) (now : String) : Row :=
  match key with
  | (.task, id) => .task (taskFromData id data now)
  | (.list, id) => .list (listFromData id data now)
  | (.step, id) => .step (stepFromData id data now)
  | (.dayPlan, id) => .dayPlan (dayPlanFromData id data now)

theorem materialize_key (key : RowKey) (data : Data) (now : String) : (materialize key data now).key = key := by
  obtain ⟨entity, id⟩ := key
  cases entity <;> rfl

/-! ### The row that an entity should have -/

/-- The rule of the native store, with the fields of the browser. -/
def applyMutationToData (entity : EntityType) (base : Data) (mutation : OutboxRow) (now : String) : Data :=
  let data := mutationBase base mutation now
  match mutation.kind with
  | .delete => Json.putMember "updatedAt" (.str now) (Json.putMember "deletedAt" (.str now) data)
  | kind =>
      let data := if kind = .restore then Json.putMember "deletedAt" .null data else data
      Json.putMember "updatedAt" (.str now) (copyFields mutation.patch (mutableFields entity) data)

/-- The index of `entityId` gives the rows by their id, and `sort` is stable. -/
def pendingForEntity (mutations : Table String OutboxRow) (key : RowKey) : List OutboxRow :=
  (mutations.values.filter fun row => row.key = key ∧ row.status = .pending).insertionSort outboxOrder

/-- What `new Date()` gives while an entity is projected: when its mutations are replayed, and when its row is read. -/
structure ProjectionTimes where
  replayed : RowKey → String
  read : RowKey → String

/-- The row under the copy of the server and the pending mutations. -/
def projectedRow (clock : ProjectionTimes) (mutations : Table String OutboxRow) (key : RowKey) (shadow : ShadowRow) : Row :=
  materialize key
    ((pendingForEntity mutations key).foldl
      (fun data mutation => applyMutationToData key.1 data mutation (clock.replayed key))
      (Json.putMember "id" (.str key.2) shadow.payload))
    (clock.read key)

/-! ### Transactions -/

/-- The tables that a projection may touch. -/
inductive DbTable where
  | tasks | lists | steps | dayPlans | mutations | shadow
  deriving DecidableEq, Repr

/-- What a transaction throws: Dexie's refusal of a table that it does not name, or an error of the repository. -/
inductive TransactionError where
  | notInTransaction (table : DbTable)
  | error (message : String)
  deriving DecidableEq, Repr

abbrev TransactionResult (α : Type) := Except TransactionError α

/-- A transaction on these tables touches one of its own. -/
def touch (scope : List DbTable) (table : DbTable) : TransactionResult Unit :=
  refuseIf (table ∉ scope) (.notInTransaction table)

def entityTable : EntityType → DbTable
  | .task => .tasks
  | .list => .lists
  | .step => .steps
  | .dayPlan => .dayPlans

/-- The tables once the row is put: the first plan of its slot gives way to a plan. -/
def Db.reprojected (db : Db) : Row → Tables
  | .dayPlan plan =>
      match db.planAt plan.taskId plan.localDate with
      | some duplicate =>
          if duplicate.id ≠ plan.id then
            { db.rows with dayPlans := db.rows.dayPlans.erase duplicate.id }.put (.dayPlan plan)
          else db.rows.put (.dayPlan plan)
      | none => db.rows.put (.dayPlan plan)
  | row => db.rows.put row

def reprojectEntity (scope : List DbTable) (clock : ProjectionTimes) (db : Db) (key : RowKey) : TransactionResult Db := do
  touch scope .shadow
  match db.shadow.lookup key with
  | none => return db
  | some shadow => do
      touch scope .mutations
      touch scope (entityTable key.1)
      return { db with rows := db.reprojected (projectedRow clock db.mutations key shadow) }

/-- `syncClearRejected`. The index of `status` gives the rows by their id, and the `Map` keeps the first place of an entity. -/
def syncClearRejected (clock : ProjectionTimes) (db : Db) : TransactionResult Db :=
  let rejected := (db.mutations.values.filter fun row => row.status = .rejected).insertionSort
    fun left right => left.opId ≤ right.opId
  if rejected.isEmpty then .ok db
  else do
    let scope := [.tasks, .lists, .steps, .dayPlans, .mutations, .shadow]
    touch scope .mutations
    (rejected.map OutboxRow.key).eraseDups.foldlM (reprojectEntity scope clock)
      (deleteRejected db (rejected.map OutboxRow.opId) db.rows)

/-- `syncDiscardRejected`. -/
def syncDiscardRejected (clock : ProjectionTimes) (db : Db) (opId : String) : TransactionResult Db :=
  match db.mutations.lookup opId with
  | none => .ok db
  | some mutation =>
      if mutation.status ≠ .rejected then .error (.error "该操作不是失败状态，无法回滚")
      else do
        let scope := [.tasks, .lists, .steps, .dayPlans, .mutations]
        touch scope .mutations
        reprojectEntity scope clock (deleteRejected db [opId] db.rows) mutation.key

end ShishiTodo.Web
