import ShishiTodo.Server.Mutation
import ShishiTodo.Lib.Table

/-!
# The entity tables and `apply_mutation`

The tables `lists`, `tasks`, `steps` and `day_plans` with the constraints a statement can violate, and what one operation does to them. The four `apply_*` functions of `sync.rs` are one function over what differs between the entities: `EntitySpec`.
-/

namespace ShishiTodo

open Lib

/-- A row of an entity table: the columns an operation sets as `values`, and the ones the server keeps. -/
structure EntityRow (V : Type) where
  userId : Uuid
  values : V
  serverRev : Int
  createdAt : Instant
  updatedAt : Instant
  deletedAt : Option Instant
  deriving DecidableEq, Repr

structure Entities where
  lists : Table Uuid (EntityRow ListValues)
  tasks : Table Uuid (EntityRow TaskValues)
  steps : Table Uuid (EntityRow StepValues)
  dayPlans : Table Uuid (EntityRow DayPlanValues)

def Entities.empty : Entities := { lists := ∅, tasks := ∅, steps := ∅, dayPlans := ∅ }

/-- An operation of a sync request. -/
structure Mutation where
  opId : Uuid
  clientSeq : Int
  entity : EntityType
  entityId : Uuid
  kind : MutationKind
  patch : Json
  deriving DecidableEq, Repr

/-- A database error: an integrity constraint (class 23), or anything else. -/
inductive DbError where
  | constraint
  | other
  deriving DecidableEq, Repr

inductive ApplyFailure where
  | reject (error : MutationError)
  | database (error : DbError)
  deriving DecidableEq, Repr

abbrev Applied (α : Type) := Except ApplyFailure α

/-- `From<MutationError>`: a failed check rejects the operation. -/
def orReject {α : Type} : Checked α → Applied α
  | .ok value => .ok value
  | .error error => .error (.reject error)

@[simp] theorem orReject_eq_ok_iff {α : Type} {checked : Checked α} {value : α} :
    orReject checked = .ok value ↔ checked = .ok value := by
  cases checked <;> simp [orReject]

/-- What one entity type adds to the common shape of `apply_list`, `apply_task`, `apply_step` and `apply_day_plan`. -/
structure EntitySpec (V : Type) where
  table : Entities → Table Uuid (EntityRow V)
  withTable : Entities → Table Uuid (EntityRow V) → Entities
  /-- The fields a create must carry. -/
  required : List String
  /-- The values a create starts from; the date is today's. -/
  blank : NaiveDate → V
  /-- Parses the patch and applies it. -/
  patched : Json → Bool → V → Checked V
  /-- A create's own test of the patched values. -/
  createCheck : V → Checked Unit
  validate : V → Checked Unit
  /-- `ensure_active_list` or `ensure_active_task`. -/
  ensureParent : Entities → Uuid → V → Checked Unit
  /-- Whether writing the values under the id breaks a foreign key, a unique index or a check. -/
  violates : Entities → Uuid → Uuid → V → Bool
  /-- What the columns keep of the values. -/
  stored : V → V
  /-- The patch a create logs. -/
  changePatch : V → Json
  /-- The patch a patch or a restore logs, from the client's own. -/
  logged : Json → V → Json

namespace EntitySpec

variable {V : Type} (spec : EntitySpec V)

/-- The row under the id, when it belongs to the account. -/
def selectRow (entities : Entities) (userId id : Uuid) : Option (EntityRow V) :=
  ((spec.table entities).lookup id).filter fun row => row.userId == userId

def insertRow (entities : Entities) (userId id : Uuid) (values : V) (serverSeq : Int)
    (now : Instant) : Applied Entities :=
  if ((spec.table entities).lookup id).isSome || spec.violates entities userId id values then
    .error (.database .constraint)
  else
    .ok <| spec.withTable entities <| (spec.table entities).insert id {
      userId := userId
      values := spec.stored values
      serverRev := serverSeq
      createdAt := now
      updatedAt := now
      deletedAt := none }

def updateRow (entities : Entities) (userId id : Uuid) (row : EntityRow V) (values : V)
    (serverSeq : Int) (now : Instant) (restoring : Bool) : Applied Entities :=
  if spec.violates entities userId id values then .error (.database .constraint)
  else
    .ok <| spec.withTable entities <| (spec.table entities).insert id { row with
      values := spec.stored values
      serverRev := serverSeq
      updatedAt := now
      deletedAt := if restoring then none else row.deletedAt }

def create (entities : Entities) (userId : Uuid) (mutation : Mutation) (serverSeq : Int)
    (now : Instant) : Applied (Json × Entities) := do
  orReject (requirePresentFields mutation.patch spec.required)
  refuseIf (spec.selectRow entities userId mutation.entityId).isSome (.reject .alreadyExists)
  let values ← orReject (spec.patched mutation.patch true (spec.blank now.dateNaive))
  orReject (spec.createCheck values)
  orReject (spec.validate values)
  orReject (spec.ensureParent entities userId values)
  let entities ← spec.insertRow entities userId mutation.entityId values serverSeq now
  return (spec.changePatch values, entities)

def patch (entities : Entities) (userId : Uuid) (mutation : Mutation) (serverSeq : Int)
    (now : Instant) : Applied (Json × Entities) :=
  match spec.selectRow entities userId mutation.entityId with
  | none => .error (.reject .notFound)
  | some row => do
      refuseIf row.deletedAt.isSome (.reject .tombstoned)
      let values ← orReject (spec.patched mutation.patch false row.values)
      orReject (spec.validate values)
      orReject (spec.ensureParent entities userId values)
      let entities ←
        spec.updateRow entities userId mutation.entityId row values serverSeq now false
      return (spec.logged mutation.patch values, entities)

def delete (entities : Entities) (userId : Uuid) (mutation : Mutation) (serverSeq : Int)
    (now : Instant) : Applied (Json × Entities) :=
  match spec.selectRow entities userId mutation.entityId with
  | none => .error (.reject .notFound)
  | some row => do
      refuseIf row.deletedAt.isSome (.reject .tombstoned)
      orReject (ensureEmptyPatch mutation.patch)
      let table := (spec.table entities).insert mutation.entityId { row with
        serverRev := serverSeq
        updatedAt := now
        deletedAt := some now }
      return (.obj [], spec.withTable entities table)

def restore (entities : Entities) (userId : Uuid) (mutation : Mutation) (serverSeq : Int)
    (now : Instant) : Applied (Json × Entities) :=
  match spec.selectRow entities userId mutation.entityId with
  | none => .error (.reject .notFound)
  | some row => do
      refuseIf row.deletedAt.isNone (.reject (.invalidState "entity is not deleted"))
      let values ← orReject (spec.patched mutation.patch true row.values)
      orReject (spec.validate values)
      orReject (spec.ensureParent entities userId values)
      let entities ←
        spec.updateRow entities userId mutation.entityId row values serverSeq now true
      return (spec.logged mutation.patch values, entities)

def apply (entities : Entities) (userId : Uuid) (mutation : Mutation) (serverSeq : Int)
    (now : Instant) : Applied (Json × Entities) :=
  match mutation.kind with
  | .create => spec.create entities userId mutation serverSeq now
  | .patch => spec.patch entities userId mutation serverSeq now
  | .delete => spec.delete entities userId mutation serverSeq now
  | .restore => spec.restore entities userId mutation serverSeq now

end EntitySpec

/-! ### The four entities -/

/-- `length(btrim(text)) BETWEEN 1 AND maxChars`; `btrim` takes spaces only. -/
def nonemptyCheck (text : String) (maxChars : Nat) : Bool :=
  let isSpace := fun c : Char => c == ' '
  let kept := ((text.toList.dropWhile isSpace).reverse.dropWhile isSpace).length
  1 ≤ kept && kept ≤ maxChars

def ensureActiveList (entities : Entities) (userId : Uuid) : Option Uuid → Checked Unit
  | none => .ok ()
  | some listId =>
      refuseIf ((entities.lists.lookup listId).all fun row =>
          row.userId != userId || row.deletedAt.isSome)
        (.invalidParent "list_id must reference an active list owned by this account")

def ensureActiveTask (entities : Entities) (userId taskId : Uuid) : Checked Unit :=
  refuseIf ((entities.tasks.lookup taskId).all fun row =>
      row.userId != userId || row.deletedAt.isSome)
    (.invalidParent "task_id must reference an active task owned by this account")

/-- The foreign key `(user_id, key)` into a table finds no row. -/
def missingReference {V : Type} (table : Table Uuid (EntityRow V)) (userId key : Uuid) : Bool :=
  ((table.lookup key).filter fun row => row.userId == userId).isNone

def requireTaskId (taskId : Uuid) : Checked Unit :=
  refuseIf taskId.isNil (.validation "field \"task_id\" is required")

def listSpec : EntitySpec ListValues where
  table := Entities.lists
  withTable entities table := { entities with lists := table }
  required := ["name"]
  blank _ := .empty
  patched value allowEmpty values := do (← parseListPatch value allowEmpty).apply values
  createCheck _ := .ok ()
  validate := ListValues.validate
  ensureParent _ _ _ := .ok ()
  violates _ _ _ values := !nonemptyCheck values.name 120
  stored values := values
  changePatch := ListValues.changePatch
  logged value _ := value

/-- What the columns keep of a task's instants. -/
def TaskValues.stored (values : TaskValues) : TaskValues :=
  { values with
    remindAt := values.remindAt.map Instant.toColumn
    completedAt := values.completedAt.map Instant.toColumn }

/-- `idx_tasks_recurrence_identity`: another task of the account has the same occurrence of the same series. -/
def recurrenceTaken (entities : Entities) (userId id : Uuid) (values : TaskValues) : Bool :=
  values.seriesId.isSome && values.occurrenceKey.isSome &&
    entities.tasks.any fun other row =>
      other != id && row.userId == userId && row.values.seriesId == values.seriesId &&
        row.values.occurrenceKey == values.occurrenceKey

/-- `task_patch_change`: the log holds the normalized tags, everything else as the client sent it. -/
def taskPatchChange (patch : Json) (values : TaskValues) : Json :=
  match patch.get "tags" with
  | none => patch
  | some _ => patch.insert "tags" (.arr (values.tags.map .str))

def taskSpec (env : Env) : EntitySpec TaskValues where
  table := Entities.tasks
  withTable entities table := { entities with tasks := table }
  required := ["title"]
  blank _ := .empty
  patched value allowEmpty values := do (← parseTaskPatch env value allowEmpty).apply env values
  createCheck _ := .ok ()
  validate := TaskValues.validate env
  ensureParent entities userId values := ensureActiveList entities userId values.listId
  violates entities userId id values :=
    !nonemptyCheck values.title 1000 || decide (values.tags.length > 20) ||
      (match values.listId with
        | none => false
        | some listId => missingReference entities.lists userId listId) ||
      recurrenceTaken entities userId id values
  stored := TaskValues.stored
  changePatch := TaskValues.changePatch env
  logged := taskPatchChange

def stepSpec (env : Env) : EntitySpec StepValues where
  table := Entities.steps
  withTable entities table := { entities with steps := table }
  required := ["task_id", "title"]
  blank _ := .empty .nil
  patched value allowEmpty values := do (← parseStepPatch env value allowEmpty).apply values
  createCheck values := requireTaskId values.taskId
  validate := StepValues.validate
  ensureParent entities userId values := ensureActiveTask entities userId values.taskId
  violates entities userId _ values :=
    !nonemptyCheck values.title 1000 || missingReference entities.tasks userId values.taskId
  stored values := values
  changePatch := StepValues.changePatch env
  logged value _ := value

/-- `UNIQUE (user_id, task_id, local_date)`, deleted plans included. -/
def daySlotTaken (entities : Entities) (userId id : Uuid) (values : DayPlanValues) : Bool :=
  entities.dayPlans.any fun other row =>
    other != id && row.userId == userId && row.values.taskId == values.taskId &&
      row.values.localDate == values.localDate

def dayPlanSpec (env : Env) : EntitySpec DayPlanValues where
  table := Entities.dayPlans
  withTable entities table := { entities with dayPlans := table }
  required := ["task_id", "local_date"]
  blank today := .empty .nil today
  patched value allowEmpty values := do (← parseDayPlanPatch env value allowEmpty).apply values
  createCheck values := requireTaskId values.taskId
  validate := DayPlanValues.validate
  ensureParent entities userId values := ensureActiveTask entities userId values.taskId
  violates entities userId id values :=
    missingReference entities.tasks userId values.taskId || daySlotTaken entities userId id values
  stored values := values
  changePatch := DayPlanValues.changePatch env
  logged value _ := value

def applyList : Entities → Uuid → Mutation → Int → Instant → Applied (Json × Entities) :=
  listSpec.apply

def applyTask (env : Env) : Entities → Uuid → Mutation → Int → Instant → Applied (Json × Entities) :=
  (taskSpec env).apply

def applyStep (env : Env) : Entities → Uuid → Mutation → Int → Instant → Applied (Json × Entities) :=
  (stepSpec env).apply

def applyDayPlan (env : Env) :
    Entities → Uuid → Mutation → Int → Instant → Applied (Json × Entities) :=
  (dayPlanSpec env).apply

def applyMutation (env : Env) (entities : Entities) (userId : Uuid) (mutation : Mutation)
    (serverSeq : Int) (now : Instant) : Applied (Json × Entities) :=
  match mutation.entity with
  | .list => applyList entities userId mutation serverSeq now
  | .task => applyTask env entities userId mutation serverSeq now
  | .step => applyStep env entities userId mutation serverSeq now
  | .dayPlan => applyDayPlan env entities userId mutation serverSeq now

end ShishiTodo
