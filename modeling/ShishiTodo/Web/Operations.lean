import ShishiTodo.Recurring.Service
import ShishiTodo.Sync.Names
import ShishiTodo.Web.Ranks
import ShishiTodo.Web.Reorder

/-!
# The local operations in the browser

`DexieTaskRepository`: each operation is one transaction. It reads the tables, writes rows and logs edits, or throws and writes nothing. `normalizeNewTask` and `validateTaskPatch` come before it, and an operation takes what they return.
-/

namespace ShishiTodo.Web

open Lib Native Sync Recurring

/-! ### Inputs -/

/-- A task as an object of the language: it may have members that its type does not name, and a spread copies them. -/
structure Spread where
  task : Task
  others : Data
  fresh : ∀ name ∈ fieldNames others, name ∉ fieldNames task.data
  nodup : (fieldNames others).Nodup

/-- `{ ...task }`. -/
def Spread.data (spread : Spread) : Data := spread.task.data ++ spread.others

theorem fieldNames_task (task : Task) : fieldNames task.data = fieldNames (Task.data {
    id := ""
    listId := none
    title := ""
    note := ""
    tags := []
    status := .open
    important := false
    dueOn := none
    remindAt := none
    remindTimezone := none
    rank := ""
    seriesId := none
    occurrenceKey := none
    recurrence := none
    completedAt := none
    createdAt := ""
    updatedAt := ""
    deletedAt := none }) := rfl

/-- `{ ...spread, ... }`, with other values of members that the type names. -/
def Spread.withTask (spread : Spread) (task : Task) : Spread where
  task := task
  others := spread.others
  fresh name hname := by
    rw [fieldNames_task task, ← fieldNames_task spread.task]
    exact spread.fresh name hname
  nodup := spread.nodup

structure CompletionCommit where
  taskId : String
  completedAt : String
  nextTask : Option Spread

structure ListPatch where
  name : Option String
  color : Option (Option String)
  icon : Option (Option String)
  rank : Option String
  deriving DecidableEq, Repr

def ListPatch.data (patch : ListPatch) : Data := present [
  ("name", patch.name.map Json.str),
  ("color", patch.color.map textJson),
  ("icon", patch.icon.map textJson),
  ("rank", patch.rank.map Json.str)]

structure TaskPatch where
  title : Option String
  listId : Option (Option String)
  note : Option String
  tags : Option (List String)
  status : Option TaskStatus
  important : Option Bool
  dueOn : Option (Option String)
  remindAt : Option (Option String)
  remindTimezone : Option (Option String)
  recurrence : Option (Option Json)
  rank : Option String
  completedAt : Option (Option String)
  deriving DecidableEq, Repr

def TaskPatch.data (patch : TaskPatch) : Data := present [
  ("title", patch.title.map Json.str),
  ("listId", patch.listId.map textJson),
  ("note", patch.note.map Json.str),
  ("tags", patch.tags.map Native.tagsJson),
  ("status", patch.status.map statusJson),
  ("important", patch.important.map Json.bool),
  ("dueOn", patch.dueOn.map textJson),
  ("remindAt", patch.remindAt.map textJson),
  ("remindTimezone", patch.remindTimezone.map textJson),
  ("recurrence", patch.recurrence.map fun value => value.getD .null),
  ("rank", patch.rank.map Json.str),
  ("completedAt", patch.completedAt.map textJson)]

structure StepPatch where
  title : Option String
  isCompleted : Option Bool
  rank : Option String
  deriving DecidableEq, Repr

def StepPatch.data (patch : StepPatch) : Data := present [
  ("title", patch.title.map Json.str),
  ("isCompleted", patch.isCompleted.map Json.bool),
  ("rank", patch.rank.map Json.str)]

/-- `{ ...current, ...validated }`. -/
def TaskPatch.onto (patch : TaskPatch) (current : Task) : Task :=
  { current with
    title := patch.title.getD current.title
    listId := patch.listId.getD current.listId
    note := patch.note.getD current.note
    tags := patch.tags.getD current.tags
    status := patch.status.getD current.status
    important := patch.important.getD current.important
    dueOn := patch.dueOn.getD current.dueOn
    remindAt := patch.remindAt.getD current.remindAt
    remindTimezone := patch.remindTimezone.getD current.remindTimezone
    recurrence := patch.recurrence.getD current.recurrence
    rank := patch.rank.getD current.rank
    completedAt := patch.completedAt.getD current.completedAt }

/-! ### New rows -/

/-- `replace(/^(?:#+\s*)+/, '')`. -/
def withoutHashes : List Char → List Char
  | '#' :: rest => rest.dropWhile fun c => c == '#' || isJsWhitespace c
  | chars => chars

def cleanTag (raw : String) : String :=
  String.ofList <| jsTrim <| sliceUnits 32 <| jsTrim <| withoutHashes (cleanSingleLine raw 1000).toList

/-- The tags from the first one on, with the ones that were seen and those that were taken. -/
def normalizeTagsFrom (texts : Texts) : List String → List String → List String → List String
  | [], _, result => result
  | raw :: rest, seen, result =>
      let tag := cleanTag raw
      let key := texts.toLowercase tag
      if tag.isEmpty ∨ key ∈ seen then normalizeTagsFrom texts rest seen result
      else if 20 ≤ (result ++ [tag]).length then result ++ [tag]
      else normalizeTagsFrom texts rest (key :: seen) (result ++ [tag])

def normalizeTags (texts : Texts) (tags : List String) : List String :=
  normalizeTagsFrom texts tags [] []

def makeTask (texts : Texts) (id : String) (input : PreparedNewTask) (now fallbackRank : String) : Task where
  id := id
  listId := input.listId
  title := input.title
  note := input.note
  tags := normalizeTags texts input.tags
  status := .open
  important := input.important
  dueOn := input.dueOn
  remindAt := input.remindAt
  remindTimezone := input.remindTimezone
  rank := input.rank.getD fallbackRank
  seriesId := none
  occurrenceKey := input.dueOn
  recurrence := input.recurrence
  completedAt := none
  createdAt := now
  updatedAt := now
  deletedAt := none

def makeList (id name now : String) : StoreResult TaskList := do
  let cleaned := cleanSingleLine name 120
  refuseIf cleaned.isEmpty (.validation "清单名称不能为空")
  return {
    id := id
    name := cleaned
    color := none
    icon := none
    rank := "a0"
    createdAt := now
    updatedAt := now
    deletedAt := none }

/-! ### Rows in reach of an operation -/

section

variable (db : Db)

def Db.liveList (id : String) : Option TaskList :=
  (db.rows.lists.lookup id).filter fun list => !isDeleted (.list list)

def Db.liveTask (id : String) : Option Task :=
  (db.rows.tasks.lookup id).filter fun task => !isDeleted (.task task)

def Db.liveStep (id : String) : Option Step :=
  (db.rows.steps.lookup id).filter fun step => !isDeleted (.step step)

/-- `db.dayPlans.toArray()`. -/
def Db.dayPlans : List DayPlan :=
  db.rows.dayPlans.values.insertionSort fun left right => codeUnits left.id ≤ codeUnits right.id

def Db.steps : List Step :=
  db.rows.steps.values.insertionSort fun left right => codeUnits left.id ≤ codeUnits right.id

/-- The first plan of the index in the slot, deleted or not. -/
def Db.planAt (taskId date : String) : Option DayPlan :=
  db.dayPlans.find? fun plan => plan.taskId = taskId ∧ plan.localDate = date

/-- `attachDetails`. -/
def Db.attachDetails (task : Task) : Spread where
  task := task
  others := [
    ("steps", .arr (((db.steps.filter fun step => step.taskId = task.id ∧ !isDeleted (.step step)).insertionSort
      fun left right => codeUnits left.rank ≤ codeUnits right.rank).map fun step => .obj step.data)),
    ("dayPlanDates", .arr ((db.dayPlans.filter fun plan => plan.taskId = task.id ∧ !isDeleted (.dayPlan plan)).map
      fun plan => .str plan.localDate))]
  fresh := by
    show ∀ name ∈ ["steps", "dayPlanDates"], name ∉ _
    rw [fieldNames_task]
    decide
  nodup := by
    show ["steps", "dayPlanDates"].Nodup
    decide

/-! ### The operations -/

/-- The tables after an operation, and its edits in the order in which they are logged. -/
structure Written where
  rows : Tables
  edits : List Edit

/-- Nothing is written. -/
def Db.unwritten : Written where
  rows := db.rows
  edits := []

variable (texts : Texts) (beyond : Int → Option String) (supply : Supply)

/-- One edit, the `number`th of its operation. -/
def edit (number : Nat) (key : RowKey) (kind : MutationKind) (patch : Data) : Edit where
  opId := supply.opId number
  entity := key.1
  entityId := key.2
  kind := kind
  patch := patch
  now := supply.now

/-- A row that is written, with the edit that says so. -/
def Db.wrote (row : Row) (kind : MutationKind) (patch : Data) : Written where
  rows := db.rows.put row
  edits := [edit supply 1 row.key kind patch]

/-- A list has to be there, when it is named. -/
def Db.ensureList (listId : Option String) : StoreResult Unit :=
  match listId.filter fun listId => !listId.isEmpty with
  | none => .ok ()
  | some listId => refuseIf (db.liveList listId).isNone (.notFound "清单不存在")

def Db.newPlan (taskId date : String) : DayPlan where
  id := supply.planId
  taskId := taskId
  localDate := date
  rank := nextRank beyond ((db.rows.dayPlans.values.filter fun plan => plan.localDate = date).map DayPlan.rank)
  createdAt := supply.now
  updatedAt := supply.now
  deletedAt := none

def Db.createTask (input : PreparedNewTask) : StoreResult Written := do
  db.ensureList input.listId
  let task := makeTask texts supply.id input supply.now
    (nextRank beyond (db.rows.tasks.values.map Task.rank))
  let written := db.wrote supply (.task task) .create task.data
  match input.planDate.filter fun planDate => !planDate.isEmpty with
  | none => return written
  | some planDate =>
      let plan := db.newPlan beyond supply task.id planDate
      return {
        rows := written.rows.put (.dayPlan plan)
        edits := written.edits ++ [edit supply 2 (.dayPlan, plan.id) .create plan.data] }

def Db.patchTask (id : String) (validated : TaskPatch) : StoreResult Written := do
  let current ← orNotFound (db.liveTask id) "任务不存在"
  db.ensureList validated.listId.join
  let changed := { validated.onto current with updatedAt := supply.now }
  return {
    rows := db.rows.put (.task changed)
    edits := [edit supply 1 (.task, id) .patch validated.data] }

def Db.commitCompletion (commit : CompletionCommit) : StoreResult Written := do
  let current ← orNotFound (db.liveTask commit.taskId) "任务不存在"
  let completed : Task := { current with
    status := .completed
    completedAt := some commit.completedAt
    updatedAt := supply.now }
  let written := db.wrote supply (.task completed) .patch [
    ("status", statusJson .completed), ("completedAt", .str commit.completedAt)]
  match commit.nextTask with
  | none => return written
  | some next => return {
      rows := written.rows.put (.task next.task)
      edits := written.edits ++ [
        { edit supply 2 (.task, next.task.id) .create next.data with now := next.task.updatedAt }] }

def Db.deleteTask (id : String) : Written :=
  match db.liveTask id with
  | none => db.unwritten
  | some task => db.wrote supply (.task { task with deletedAt := some supply.now, updatedAt := supply.now })
      .delete []

def Db.restoreTask (id : String) : Written :=
  match db.rows.tasks.lookup id with
  | none => db.unwritten
  | some task => db.wrote supply (.task { task with deletedAt := none, updatedAt := supply.now }) .restore []

/-- `reorderTask`, as what it writes. -/
def Db.moveTask (id direction : String) : Written :=
  match db.liveTask id with
  | none => db.unwritten
  | some task =>
      match neighbour (db.siblings task) id direction with
      | none => db.unwritten
      | some other =>
          let moved := { task with rank := other.rank, updatedAt := supply.now }
          let displaced := { other with rank := task.rank, updatedAt := supply.now }
          { rows := { db.rows with
              tasks := (db.rows.tasks.insert task.id moved).insert other.id displaced }
            edits := [
              edit supply 1 (.task, task.id) .patch [("rank", .str other.rank)],
              edit supply 2 (.task, other.id) .patch [("rank", .str task.rank)]] }

def Db.createList (input : NewList) : StoreResult Written := do
  let made ← makeList supply.id input.name supply.now
  let list : TaskList := { made with
    color := input.color
    icon := input.icon
    rank := nextRank beyond (db.rows.lists.values.map TaskList.rank) }
  return db.wrote supply (.list list) .create list.data

/-- A name that is clean of nothing leaves the one before. -/
def cleanedOr (given : Option String) (maxLength : Nat) (current : String) : String :=
  match given with
  | none => current
  | some text =>
      let cleaned := cleanSingleLine text maxLength
      if cleaned.isEmpty then current else cleaned

def Db.patchList (id : String) (patch : ListPatch) : StoreResult Written := do
  let current ← orNotFound (db.liveList id) "清单不存在"
  let next : TaskList := { current with
    name := cleanedOr patch.name 120 current.name
    color := patch.color.getD current.color
    icon := patch.icon.getD current.icon
    rank := patch.rank.getD current.rank
    updatedAt := supply.now }
  return {
    rows := db.rows.put (.list next)
    edits := [edit supply 1 (.list, id) .patch patch.data] }

/-- The tasks of a deleted list lose it, one edit after another. -/
def Db.deleteList (id : String) : Written :=
  match db.liveList id with
  | none => db.unwritten
  | some list =>
      let tasks := db.tasks.filter fun task => task.listId = some id ∧ !isDeleted (.task task)
      let deleted := db.rows.put (.list { list with deletedAt := some supply.now, updatedAt := supply.now })
      { rows := tasks.foldl (fun rows task =>
          rows.put (.task { task with listId := none, updatedAt := supply.now })) deleted
        edits := edit supply 1 (.list, id) .delete [] :: (tasks.zipIdx 2).map fun (task, number) =>
          edit supply number (.task, task.id) .patch [("listId", .null)] }

def Db.restoreList (id : String) : Written :=
  match db.rows.lists.lookup id with
  | none => db.unwritten
  | some list => db.wrote supply (.list { list with deletedAt := none, updatedAt := supply.now }) .restore []

def Db.addToDay (taskId date : String) : StoreResult Written := do
  let _ ← orNotFound (db.liveTask taskId) "任务不存在"
  match db.planAt taskId date with
  | some existing =>
      if isDeleted (.dayPlan existing) then
        return db.wrote supply (.dayPlan { existing with deletedAt := none, updatedAt := supply.now })
          .restore []
      else return db.unwritten
  | none =>
      let plan := db.newPlan beyond supply taskId date
      return db.wrote supply (.dayPlan plan) .create plan.data

def Db.removeFromDay (taskId date : String) : Written :=
  match (db.planAt taskId date).filter fun plan => !isDeleted (.dayPlan plan) with
  | none => db.unwritten
  | some plan => db.wrote supply
      (.dayPlan { plan with deletedAt := some supply.now, updatedAt := supply.now }) .delete []

def Db.createStep (taskId title : String) : StoreResult Written := do
  let title := cleanSingleLine title 1000
  refuseIf title.isEmpty (.validation "子步骤不能为空")
  let _ ← orNotFound (db.liveTask taskId) "任务不存在"
  let steps := db.rows.steps.values.filter fun step => step.taskId = taskId ∧ !isDeleted (.step step)
  let step : Step := {
    id := supply.id
    taskId := taskId
    title := title
    isCompleted := false
    rank := nextRank beyond (steps.map Step.rank)
    createdAt := supply.now
    updatedAt := supply.now
    deletedAt := none }
  return db.wrote supply (.step step) .create step.data

def Db.patchStep (id : String) (patch : StepPatch) : StoreResult Written := do
  let current ← orNotFound (db.liveStep id) "子步骤不存在"
  let updated : Step := { current with
    title := cleanedOr patch.title 1000 current.title
    isCompleted := patch.isCompleted.getD current.isCompleted
    rank := patch.rank.getD current.rank
    updatedAt := supply.now }
  return {
    rows := db.rows.put (.step updated)
    edits := [edit supply 1 (.step, id) .patch patch.data] }

def Db.deleteStep (id : String) : Written :=
  match db.liveStep id with
  | none => db.unwritten
  | some step => db.wrote supply (.step { step with deletedAt := some supply.now, updatedAt := supply.now })
      .delete []

end

/-- What the application asks of the repository. -/
inductive LocalOp where
  | createTask (input : PreparedNewTask)
  | patchTask (id : String) (validated : TaskPatch)
  | commitCompletion (commit : CompletionCommit)
  | deleteTask (id : String)
  | restoreTask (id : String)
  | reorderTask (id direction : String)
  | createList (input : NewList)
  | patchList (id : String) (patch : ListPatch)
  | deleteList (id : String)
  | restoreList (id : String)
  | addToDay (taskId date : String)
  | removeFromDay (taskId date : String)
  | createStep (taskId title : String)
  | patchStep (id : String) (patch : StepPatch)
  | deleteStep (id : String)

def LocalOp.perform (texts : Texts) (beyond : Int → Option String) (supply : Supply) (db : Db) :
    LocalOp → StoreResult Written
  | .createTask input => db.createTask texts beyond supply input
  | .patchTask id validated => db.patchTask supply id validated
  | .commitCompletion commit => db.commitCompletion supply commit
  | .deleteTask id => .ok (db.deleteTask supply id)
  | .restoreTask id => .ok (db.restoreTask supply id)
  | .reorderTask id direction => .ok (db.moveTask supply id direction)
  | .createList input => db.createList beyond supply input
  | .patchList id patch => db.patchList supply id patch
  | .deleteList id => .ok (db.deleteList supply id)
  | .restoreList id => .ok (db.restoreList supply id)
  | .addToDay taskId date => db.addToDay beyond supply taskId date
  | .removeFromDay taskId date => .ok (db.removeFromDay supply taskId date)
  | .createStep taskId title => db.createStep beyond supply taskId title
  | .patchStep id patch => db.patchStep supply id patch
  | .deleteStep id => .ok (db.deleteStep supply id)

/-! ### The task service -/

def requireTask (db : Db) (id : String) : Thrown Task :=
  match db.liveTask id with
  | some task => .ok task
  | none => .error ⟨"NOT_FOUND", "任务不存在"⟩

/-- `completeTask` up to its commit: the task that it reads comes with its steps and its days. -/
def completeTask (db : Db) (id : String) (reading : Recurring.Reading) (newId : String) :
    Thrown (Option CompletionCommit) := do
  let task ← requireTask db id
  if task.status = .completed then return none
  else do
    let completionDate ← reading.date
    let next ← nextRecurringTask { task with status := .completed } completionDate newId reading.now
    return some ⟨id, reading.now, next.map (db.attachDetails task).withTask⟩

/-- The next task of a commit of the service has two members more than a task. -/
theorem others_of_completeTask {db : Db} {id newId : String} {reading : Recurring.Reading} {commit : CompletionCommit}
    {next : Spread} (h : completeTask db id reading newId = .ok (some commit))
    (hnext : commit.nextTask = some next) : fieldNames next.others = ["steps", "dayPlanDates"] := by
  obtain ⟨task, -, h⟩ := bind_eq_ok_iff.mp h
  split at h
  · cases h
  · obtain ⟨completionDate, -, h⟩ := bind_eq_ok_iff.mp h
    obtain ⟨found, -, h⟩ := bind_eq_ok_iff.mp h
    cases h
    cases found with
    | none => cases hnext
    | some found =>
        cases hnext
        rfl

end ShishiTodo.Web
