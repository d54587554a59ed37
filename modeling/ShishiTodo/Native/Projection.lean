import ShishiTodo.Native.Tables
import Mathlib.Data.List.Sort
import Mathlib.Data.List.Dedup
import Mathlib.Data.String.Basic

/-!
# Projections

`sync_support.rs`: a row is rebuilt from the server's copy of the entity by replaying the pending mutations over it.
-/

namespace ShishiTodo.Native

open Lib

def mutableFields : EntityType → List String
  | .task => [
      "listId", "title", "note", "tags", "status", "important", "dueOn", "remindAt",
      "remindTimezone", "rank", "seriesId", "occurrenceKey", "recurrence", "completedAt"]
  | .list => ["name", "color", "icon", "rank"]
  | .step => ["taskId", "title", "isCompleted", "rank"]
  | .dayPlan => ["taskId", "localDate", "rank"]

/-- Copies the fields that the patch has. -/
def copyFields (patch : Data) : List String → Data → Data
  | [], data => data
  | field :: rest, data =>
      match patch.lookup field with
      | some value => copyFields patch rest (Json.putMember field value data)
      | none => copyFields patch rest data

def fullPatch (entity : EntityType) (value : Data) : Data :=
  copyFields value (mutableFields entity) []

/-- The data the mutation starts from: a creation forgets what was there. -/
def mutationBase (base : Data) (mutation : OutboxRow) (now : String) : Data :=
  match mutation.kind with
  | .create => [("id", .str mutation.entityId), ("createdAt", .str now)]
  | _ => Json.putMember "id" (.str mutation.entityId) base

def applyMutationToData (entity : EntityType) (base : Data) (mutation : OutboxRow) (now : String) :
    Data :=
  let data := mutationBase base mutation now
  match mutation.kind with
  | .delete => Json.putMember "updatedAt" (.str now) (Json.putMember "deletedAt" (.str now) data)
  | kind =>
      let data := if kind = .restore then Json.putMember "deletedAt" .null data else data
      Json.putMember "updatedAt" (.str now) (copyFields mutation.patch (mutableFields entity) data)

/-! ### Reading a row -/

def asStr : Json → Option String
  | .str text => some text
  | _ => none

def asBool : Json → Option Bool
  | .bool value => some value
  | _ => none

def stringField (data : Data) (key : String) : Option String := (data.lookup key).bind asStr

/-- What is no string is left out. -/
def tagsFromData (data : Data) : List String :=
  match data.lookup "tags" with
  | some (.arr items) => items.filterMap asStr
  | _ => []

def nullableString (data : Data) (key : String) : Option String :=
  (stringField data key).filter fun value => !value.isEmpty

def requiredString (data : Data) (key fallback : String) : String :=
  ((stringField data key).filter fun value => !(trim value).isEmpty).getD fallback

def boolField (data : Data) (key : String) : Bool := ((data.lookup key).bind asBool).getD false

def recurrenceField (data : Data) : Option Json :=
  (data.lookup "recurrence").filter fun value => value.isObject

def statusField (data : Data) : TaskStatus :=
  ((stringField data "status").bind TaskStatus.parse).getD .open

section

variable (texts : Texts)

def dateField (data : Data) (key : String) : Option String :=
  (stringField data key).filter texts.isDate

def taskFromData (id : String) (data : Data) (now : String) : Task where
  id := id
  listId := nullableString data "listId"
  title := requiredString data "title" "未命名任务"
  note := (stringField data "note").getD ""
  tags := tagsFromData data
  status := statusField data
  important := boolField data "important"
  dueOn := dateField texts data "dueOn"
  remindAt := nullableString data "remindAt"
  remindTimezone := nullableString data "remindTimezone"
  rank := requiredString data "rank" "a0"
  seriesId := nullableString data "seriesId"
  occurrenceKey := nullableString data "occurrenceKey"
  recurrence := recurrenceField data
  completedAt := nullableString data "completedAt"
  createdAt := (stringField data "createdAt").getD now
  updatedAt := (stringField data "updatedAt").getD now
  deletedAt := nullableString data "deletedAt"

def listFromData (id : String) (data : Data) (now : String) : TaskList where
  id := id
  name := requiredString data "name" "未命名清单"
  color := nullableString data "color"
  icon := nullableString data "icon"
  rank := requiredString data "rank" "a0"
  createdAt := (stringField data "createdAt").getD now
  updatedAt := (stringField data "updatedAt").getD now
  deletedAt := nullableString data "deletedAt"

def stepFromData (id : String) (data : Data) (now : String) : Step where
  id := id
  taskId := requiredString data "taskId" ""
  title := (stringField data "title").getD ""
  isCompleted := boolField data "isCompleted"
  rank := requiredString data "rank" "a0"
  createdAt := (stringField data "createdAt").getD now
  updatedAt := (stringField data "updatedAt").getD now
  deletedAt := nullableString data "deletedAt"

def dayPlanFromData (id : String) (data : Data) (now : String) : DayPlan where
  id := id
  taskId := requiredString data "taskId" ""
  localDate := (dateField texts data "localDate").getD "1970-01-01"
  rank := requiredString data "rank" "a0"
  createdAt := (stringField data "createdAt").getD now
  updatedAt := (stringField data "updatedAt").getD now
  deletedAt := nullableString data "deletedAt"

def rowFromData (key : RowKey) (data : Data) (now : String) : Row :=
  match key with
  | (.list, id) => .list (listFromData id data now)
  | (.task, id) => .task (taskFromData texts id data now)
  | (.step, id) => .step (stepFromData id data now)
  | (.dayPlan, id) => .dayPlan (dayPlanFromData texts id data now)

/-! ### Writing it back -/

/-- `DELETE FROM local_day_plans` of the other plans in the slot. -/
def Tx.clearSlot (tx : Tx) (plan : DayPlan) : StoreResult Tx :=
  tx.statement { tx.tables with
    dayPlans := tx.tables.dayPlans.select fun id other =>
      !(other.taskId == plan.taskId && other.localDate == plan.localDate && id != plan.id) }

/-- A list that is missing leaves the task without one; a task that is missing leaves out the step or the plan. -/
def upsertRow (tx : Tx) : Row → StoreResult Tx
  | .task task => tx.write (.task { task with
      listId := task.listId.filter fun listId => (tx.tables.lists.lookup listId).isSome })
  | .list list => tx.write (.list list)
  | .step step =>
      if (tx.tables.tasks.lookup step.taskId).isNone then .ok tx else tx.write (.step step)
  | .dayPlan plan =>
      if (tx.tables.tasks.lookup plan.taskId).isNone then .ok tx
      else do
        let tx ← tx.clearSlot plan
        tx.write (.dayPlan plan)

def upsertEntityData (tx : Tx) (key : RowKey) (data : Data) (now : String) : StoreResult Tx :=
  upsertRow tx (rowFromData texts key data now)

/-- The pending mutations of an entity, in the order of their sequence. -/
def pendingForEntity (outbox : Table String OutboxRow) (key : RowKey) : List OutboxRow :=
  (outbox.values.filter fun row => row.key == key && row.status == .pending).insertionSort
    fun left right => left.clientSeq ≤ right.clientSeq

/-- The data under the shadow, with the mutations replayed over it. -/
def projectedData (key : RowKey) (payload : Data) (pending : List OutboxRow) (now : String) : Data :=
  pending.foldl (fun data mutation => applyMutationToData key.1 data mutation now)
    (Json.putMember "id" (.str key.2) payload)

/-- Without a copy from the server there is nothing to rebuild from. -/
def reprojectEntity (tx : Tx) (key : RowKey) (now : String) : StoreResult Tx :=
  match tx.store.shadow.lookup key with
  | none => .ok tx
  | some shadow =>
      upsertEntityData texts tx key
        (projectedData key shadow.payload (pendingForEntity tx.store.outbox key) now) now

def entityOrder : EntityType → Nat
  | .list => 0
  | .task => 1
  | .step => 2
  | .dayPlan => 3

/-- Lists before tasks, tasks before steps and plans. -/
def projectionOrder (left right : RowKey) : Prop :=
  entityOrder left.1 < entityOrder right.1 ∨
    entityOrder left.1 = entityOrder right.1 ∧ left.2 ≤ right.2

instance : DecidableRel projectionOrder := fun left right =>
  inferInstanceAs (Decidable (entityOrder left.1 < entityOrder right.1 ∨
    entityOrder left.1 = entityOrder right.1 ∧ left.2 ≤ right.2))

instance : Std.Total projectionOrder where
  total left right := by
    rcases lt_trichotomy (entityOrder left.1) (entityOrder right.1) with hlt | heq | hlt
    · exact Or.inl (Or.inl hlt)
    · exact (le_total left.2 right.2).imp (fun h => Or.inr ⟨heq, h⟩) fun h => Or.inr ⟨heq.symm, h⟩
    · exact Or.inr (Or.inl hlt)

instance : IsTrans RowKey projectionOrder where
  trans first second third := by
    rintro (hlt | ⟨heq, hle⟩) (hlt' | ⟨heq', hle'⟩)
    · exact Or.inl (hlt.trans hlt')
    · exact Or.inl (heq' ▸ hlt)
    · exact Or.inl (heq ▸ hlt')
    · exact Or.inr ⟨heq.trans heq', hle.trans hle'⟩

theorem projectionOrder.le {left right : RowKey} (h : projectionOrder left right) :
    entityOrder left.1 ≤ entityOrder right.1 := by
  rcases h with hlt | ⟨heq, -⟩
  · exact le_of_lt hlt
  · exact le_of_eq heq

def reprojectEntities (tx : Tx) (affected : List RowKey) (now : String) : StoreResult Tx :=
  (affected.dedup.insertionSort projectionOrder).foldlM
    (fun tx key => reprojectEntity texts tx key now) tx

end

end ShishiTodo.Native
