import ShishiTodo.Lib.Machine
import ShishiTodo.Tasks.QuickAdd

/-!
# The task service in the browser

`TaskService` over `DexieTaskRepository`. A call checks its arguments, reads the task it is about and ends in one operation of the repository, which checks the arguments again; what throws leaves the tables as they were.
-/

namespace ShishiTodo.Web

open Lib Native Recurring

/-- What the service takes from the platform. -/
structure Platform where
  texts : Texts
  /-- How a rank beyond the safe numbers is printed. -/
  beyond : Int → Option String
  /-- `zonedDateTimeToUtc` in a zone, or nothing where it throws. -/
  toUtc : String → String → Option String
  /-- `new Date(text).toISOString()`, or nothing where the text is no date. -/
  toIso : String → Option String

/-! ### The arguments -/

/-- A value counts as true. -/
def truthy : Json → Bool
  | .null => false
  | .bool value => value
  | .num literal => (decimal literal).any fun value => value ≠ 0
  | .str text => !text.isEmpty
  | .arr _ | .obj _ => true

/-- `normalizeRecurrence`, as the value that is stored. -/
def normalizedRule (input : Option Json) : Thrown (Option Json) :=
  match input.filter truthy with
  | none => .ok none
  | some rule => do
      let regular ← normalizeRecurrence rule
      return some (.obj (present [
        ("frequency", rule.get "frequency"),
        ("interval", some (.num (regular.interval.elim "NaN" toString))),
        ("anchorMode", some ((given rule "anchorMode").getD (.str "calendar"))),
        ("weekdays", regular.weekdays.map fun days => .arr (days.map fun day => .num (toString day))),
        ("monthDay", regular.monthDay.map fun day => .num (toString day)),
        ("month", regular.month.map fun month => .num (toString month))]))

def assertTitle (title : String) : Thrown String := do
  let cleaned := cleanSingleLine title 1000
  refuseIf cleaned.isEmpty ⟨"VALIDATION_FAILED", "任务标题不能为空"⟩
  return cleaned

def wrongDueOn : DomainError := ⟨"INVALID_DATE", "截止日期格式应为 YYYY-MM-DD"⟩

def normalizeNewTask (texts : Texts) (input : NewTask) : Thrown NewTask := do
  let title ← assertTitle input.title
  refuseIf (input.dueOn.any fun dueOn => !dueOn.isEmpty && !isDateOnly dueOn) wrongDueOn
  refuseIf (input.planDate.any fun planDate => !planDate.isEmpty && !isDateOnly planDate)
    ⟨"INVALID_DATE", "计划日期格式应为 YYYY-MM-DD"⟩
  let recurrence ← normalizedRule input.recurrence
  return { input with
    title := title
    note := some (cleanNote (input.note.getD ""))
    tags := normalizeTags texts input.tags
    important := some (input.important.getD false)
    recurrence := recurrence }

/-- The values that `makeTask` reads of a normalized input. -/
def prepared (input : NewTask) : PreparedNewTask where
  listId := input.listId
  title := input.title
  note := input.note.getD ""
  tags := input.tags
  important := input.important.getD false
  dueOn := input.dueOn
  remindAt := input.remindAt
  remindTimezone := input.remindTimezone
  recurrence := input.recurrence
  rank := input.rank
  planDate := input.planDate

def validRemindAt (platform : Platform) : Option String → Thrown (Option String)
  | none => .ok none
  | some remindAt =>
      match platform.toIso remindAt with
      | some instant => .ok (some instant)
      | none => .error ⟨"INVALID_DATE", "提醒时间无效"⟩

/-- `validateTaskPatch`, at a time. -/
def validateTaskPatch (platform : Platform) (now : String) (patch : TaskPatch) : Thrown TaskPatch := do
  let title ← patch.title.mapM assertTitle
  refuseIf (patch.dueOn.any fun dueOn => dueOn.any fun dueOn => !isDateOnly dueOn) wrongDueOn
  let remindAt ← patch.remindAt.mapM (validRemindAt platform)
  let recurrence ← patch.recurrence.mapM normalizedRule
  return { patch with
    title := title
    note := patch.note.map cleanNote
    tags := patch.tags.map (normalizeTags platform.texts)
    remindAt := remindAt
    recurrence := recurrence
    completedAt := match patch.status with
      | some .completed => some (some (patch.completedAt.join.getD now))
      | some .open => some none
      | none => patch.completedAt }

/-! ### The calls -/

structure QuickAddContext where
  localDate : Tasks.ReferenceDate
  listId : Option String
  lists : List TaskList
  planDate : Option String

/-- The operations of the service that make, change, complete, delete or restore a task. -/
inductive ServiceCall where
  | createTask (input : NewTask)
  | quickAdd (text : String) (context : QuickAddContext)
  | patchTask (id : String) (patch : TaskPatch)
  | completeTask (id : String)
  | uncompleteTask (id : String)
  | deleteTask (id : String)
  | restoreTask (id : String)

/-- What a call draws and reads from the clock. -/
structure Moment where
  reading : Recurring.Reading
  newId : String
  supply : Supply

/-- `{ status: 'open', completedAt: null }`. -/
def reopening : TaskPatch where
  title := none
  listId := none
  note := none
  tags := none
  status := some .open
  important := none
  dueOn := none
  remindAt := none
  remindTimezone := none
  recurrence := none
  rank := none
  completedAt := some none

section

variable (platform : Platform) (moment : Moment) (db : Db)

/-- `createTask` of the service, and of the repository in it. -/
def Db.createFrom (input : NewTask) : Except ServiceError Written := do
  let normalized ← (normalizeNewTask platform.texts input).mapError .domain
  let again ← (normalizeNewTask platform.texts normalized).mapError .domain
  (db.createTask platform.texts platform.beyond moment.supply (prepared again)).mapError .store

/-- `patchTask` of the repository. -/
def Db.patchFrom (id : String) (patch : TaskPatch) : Except ServiceError Written := do
  let validated ← (validateTaskPatch platform moment.reading.now patch).mapError .domain
  (db.patchTask moment.supply id validated).mapError .store

def ServiceCall.write : ServiceCall → Except ServiceError Written
  | .createTask input => db.createFrom platform moment input
  | .quickAdd text context => do
      let timeZone := moment.reading.timeZone
      let parsed ← (Tasks.parseQuickAdd platform.texts (platform.toUtc timeZone) text context.localDate
        context.lists context.listId timeZone).mapError .domain
      db.createFrom platform moment { parsed with planDate := context.planDate }
  | .patchTask id patch => do
      let task ← (requireTask db id).mapError .domain
      let validated ← (validateTaskPatch platform moment.reading.now patch).mapError .domain
      refuseIf (validated.recurrence.join.isSome ∧ ¬ Tasks.hasDate validated.dueOn.join ∧
        ¬ Tasks.hasDate task.dueOn) (.domain ⟨"VALIDATION_FAILED", "重复任务需要截止日期"⟩)
      db.patchFrom platform moment id validated
  | .completeTask id => do
      let commit ← (Web.completeTask db id moment.reading moment.newId).mapError .domain
      match commit with
      | some commit => (db.commitCompletion moment.supply commit).mapError .store
      | none => .ok db.unwritten
  | .uncompleteTask id => do
      let task ← (requireTask db id).mapError .domain
      if task.status = .open then .ok db.unwritten
      else db.patchFrom platform moment id reopening
  | .deleteTask id => do
      let _ ← (requireTask db id).mapError .domain
      return db.deleteTask moment.supply id
  | .restoreTask id => .ok (db.restoreTask moment.supply id)

/-- The tables after a call; one that throws leaves them. -/
def ServiceCall.after (call : ServiceCall) : Db :=
  match call.write platform moment db with
  | .ok written => localWrite db written.rows written.edits
  | .error _ => db

end

/-- The service takes calls. -/
def service (platform : Platform) : Machine Db (Moment × ServiceCall) Unit where
  step db event := event.2.after platform event.1 db
  emit _ _ := []

/-- A repository without rows. -/
def Db.empty (kv : MetaRows) : Db where
  rows := .empty
  mutations := ∅
  shadow := ∅
  kv := kv

end ShishiTodo.Web
