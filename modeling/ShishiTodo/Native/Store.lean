import ShishiTodo.Native.Tables
import Mathlib.Data.List.Sort

/-!
# The local operations of the native store

`store.rs`: each operation is one transaction on the tables and the outbox. It returns the transaction to commit, or an error and nothing is written.
-/

namespace ShishiTodo.Native

open Lib

/-! ### Checks of the inputs -/

/-- The length is in bytes. -/
def validateNonEmptyId (id : String) : StoreResult Unit :=
  refuseIf ((trim id).isEmpty ∨ id.utf8ByteSize > 128) (.validation "id 无效")

def cleanSingleLine (value : String) (maxChars : Nat) : String :=
  let spaced := value.toList.map fun c => if c == '\r' || c == '\n' || c == '\t' then ' ' else c
  let words := (spaced.splitOnP isWhitespace).filter fun word => !word.isEmpty
  String.ofList ((List.intercalate [' '] words).take maxChars)

def cleanTitle (value : String) : StoreResult String := do
  let value := cleanSingleLine value 1000
  refuseIf value.isEmpty (.validation "任务标题不能为空")
  return value

def cleanListName (value : String) : StoreResult String := do
  let value := cleanSingleLine value 120
  refuseIf value.isEmpty (.validation "清单名称不能为空")
  return value

/-- `replace("\r\n", "\n")`. -/
def unixLines : List Char → List Char
  | '\r' :: '\n' :: rest => '\n' :: unixLines rest
  | c :: rest => c :: unixLines rest
  | [] => []

def cleanNote (value : Option String) : String :=
  String.ofList ((unixLines (value.getD "").toList).take 20000)

def cleanTag (raw : String) : StoreResult String := do
  let tag := trim raw
  refuseIf (tag.length = 0 ∨ tag.length > 32) (.validation "每个标签必须为 1–32 个字符")
  return tag

/-- Of tags that differ only in case, the first stays. -/
def firstSpellings (texts : Texts) : List String → List String → List String
  | _, [] => []
  | seen, tag :: rest =>
      if texts.toLowercase tag ∈ seen then firstSpellings texts seen rest
      else tag :: firstSpellings texts (texts.toLowercase tag :: seen) rest

def normalizeTags (texts : Texts) (tags : List String) : StoreResult (List String) := do
  let tags ← tags.mapM cleanTag
  let normalized := firstSpellings texts [] tags
  refuseIf (normalized.length > 20) (.validation "任务标签最多 20 个")
  return normalized

def validateDate (texts : Texts) (value field : String) : StoreResult Unit :=
  refuseIf (texts.isDate value = false) (.invalidDate s!"{field} 格式应为 YYYY-MM-DD")

def normalizeInstant (texts : Texts) (value field : String) : StoreResult String :=
  match texts.normalizeInstant value with
  | some instant => .ok instant
  | none => .error (.invalidDate s!"{field} 不是有效的 ISO-8601 时间")

def validateOptionalText (field : String) (value : Option String) (maxChars : Nat) :
    StoreResult (Option String) :=
  match value with
  | none => .ok none
  | some value => do
      let value := trim value
      refuseIf (value.length > maxChars) (.validation s!"{field} 过长")
      return if value.isEmpty then none else some value

def validateTimezone (value : String) : StoreResult String := do
  let value := trim value
  refuseIf (value.isEmpty ∨ value.length > 64) (.validation "remindTimezone 无效")
  return value

def validateRank (value : String) : StoreResult String := do
  let value := trim value
  refuseIf (value.isEmpty ∨ value.length > 128) (.validation "rank 无效")
  return value

def validateRecurrence (value : Json) : StoreResult Json := do
  refuseIf (value.isObject = false) (.validation "recurrence 必须是 JSON 对象")
  return value

def required {α : Type} (value : Option α) (field : String) : StoreResult α :=
  match value with
  | some value => .ok value
  | none => .error (.validation s!"{field} 不能为 null")

/-- Checks a value that is there. -/
def optionally {α β : Type} (value : Option α) (check : α → StoreResult β) : StoreResult (Option β) :=
  match value with
  | none => .ok none
  | some value => do return some (← check value)

/-- The value of a column after a patch. -/
def patched {α β : Type} (value : Option α) (current : β) (check : α → StoreResult β) : StoreResult β :=
  match value with
  | none => .ok current
  | some value => check value

/-! ### Ranks -/

def digit36 (c : Char) : Option Nat :=
  let n := c.toNat
  if 48 ≤ n ∧ n ≤ 57 then some (n - 48)
  else if 97 ≤ n ∧ n ≤ 122 then some (n - 87)
  else if 65 ≤ n ∧ n ≤ 90 then some (n - 55)
  else none

def maxU64 : Nat := 18446744073709551615

/-- `u64::from_str_radix(rank, 36).unwrap_or(0)`: one leading `+` is allowed. -/
def parseRank (rank : String) : Nat :=
  let digits := match rank.toList with
    | '+' :: rest => rest
    | chars => chars
  match digits.mapM digit36 with
  | none => 0
  | some values =>
      let value := values.foldl (fun value digit => 36 * value + digit) 0
      if value ≤ maxU64 then value else 0

def encodeDigit (n : Nat) : Char := if n < 10 then Char.ofNat (48 + n) else Char.ofNat (87 + n)

/-- The digits from the last one, of a number below `36 ^ fuel`. -/
def encodeBase36 : Nat → Nat → List Char
  | 0, _ => []
  | _, 0 => []
  | fuel + 1, value => encodeDigit (value % 36) :: encodeBase36 fuel (value / 36)

def nextRank (ranks : List String) : String :=
  let next := min ((ranks.map parseRank).foldl max 0 + 1) maxU64
  let digits := (encodeBase36 13 next).reverse
  String.ofList (List.replicate (6 - digits.length) '0' ++ digits)

/-- `compare_tasks(left, right)` is not `Greater`. -/
def compareTasks (left right : Task) : Bool :=
  if left.status ≠ right.status then left.status = .open
  else
    let byRank := left.rank < right.rank ∨ left.rank = right.rank ∧ left.createdAt ≤ right.createdAt
    match left.dueOn, right.dueOn with
    | some leftDue, some rightDue => if leftDue ≠ rightDue then leftDue < rightDue else byRank
    | some _, none => true
    | none, some _ => false
    | none, none => byRank

/-! ### Rows in reach of an operation -/

namespace Store

variable (store : Store)

/-- The list, unless it is deleted. -/
def liveList (id : String) : Option TaskList :=
  (store.rows.val.lists.lookup id).filter fun list => list.deletedAt.isNone

def liveTask (id : String) : Option Task :=
  (store.rows.val.tasks.lookup id).filter fun task => task.deletedAt.isNone

def liveStep (id : String) : Option Step :=
  (store.rows.val.steps.lookup id).filter fun step => step.deletedAt.isNone

/-- The plan that holds the slot, deleted or not. -/
def planAt (taskId localDate : String) : Option DayPlan :=
  store.rows.val.dayPlans.values.find? fun plan =>
    plan.taskId == taskId && plan.localDate == localDate

end Store

def orNotFound {α : Type} (row : Option α) (message : String) : StoreResult α :=
  match row with
  | some row => .ok row
  | none => .error (.notFound message)

def ensureActiveList (store : Store) (listId : String) : StoreResult Unit := do
  validateNonEmptyId listId
  let _ ← orNotFound (store.liveList listId) "清单不存在"
  return ()

/-! ### Lists -/

section operations

variable (texts : Texts) (supply : Supply) (store : Store)

def createList (input : NewList) : StoreResult (TaskList × Tx) := do
  let name ← cleanListName input.name
  let color ← validateOptionalText "color" input.color 64
  let icon ← validateOptionalText "icon" input.icon 128
  let list : TaskList := {
    id := supply.id
    name := name
    color := color
    icon := icon
    rank := nextRank (store.rows.val.lists.values.map TaskList.rank)
    createdAt := supply.now
    updatedAt := supply.now
    deletedAt := none }
  let tx ← store.begin.create supply (.list list)
  return (list, tx)

def patchList (id : String) (patch : ListPatch) : StoreResult (TaskList × Tx) := do
  refuseIf patch.isEmpty (.validation "list patch must contain at least one field")
  validateNonEmptyId id
  let current ← orNotFound (store.liveList id) "清单不存在"
  let name ← patched patch.name current.name fun value => do cleanListName (← required value "name")
  let color ← patched patch.color current.color fun value => validateOptionalText "color" value 64
  let icon ← patched patch.icon current.icon fun value => validateOptionalText "icon" value 128
  let rank ← patched patch.rank current.rank fun value => do validateRank (← required value "rank")
  let updated : TaskList := {
    current with
    name := name
    color := color
    icon := icon
    rank := rank
    updatedAt := supply.now }
  -- The outbox gets the patch as it came in.
  let tx ← store.begin.save supply (.list updated) .patch patch.data
  return (updated, tx)

/-- `UPDATE local_tasks SET list_id = NULL` for one of the tasks of a deleted list. -/
def detachTask (tx : Tx) (task : Task) : StoreResult Tx :=
  tx.save supply (.task { task with listId := none, updatedAt := supply.now }) .patch
    [("listId", .null)]

def deleteList (id : String) : StoreResult Tx := do
  validateNonEmptyId id
  match store.liveList id with
  | none => return store.begin
  | some list => do
      let tx ← store.begin.save supply
        (.list { list with deletedAt := some supply.now, updatedAt := supply.now }) .delete []
      let tasks := tx.tables.tasks.values.filter fun task =>
        task.listId == some id && task.deletedAt.isNone
      tasks.foldlM (detachTask supply) tx

def restoreList (id : String) : StoreResult Tx := do
  validateNonEmptyId id
  match (store.rows.val.lists.lookup id).filter fun list => list.deletedAt.isSome with
  | none => return store.begin
  | some list =>
      store.begin.save supply (.list { list with deletedAt := none, updatedAt := supply.now })
        .restore []

/-! ### Tasks -/

structure PreparedNewTask where
  listId : Option String
  title : String
  note : String
  tags : List String
  important : Bool
  dueOn : Option String
  remindAt : Option String
  remindTimezone : Option String
  recurrence : Option Json
  rank : Option String
  planDate : Option String

def prepareNewTask (input : NewTask) : StoreResult PreparedNewTask := do
  let title ← cleanTitle input.title
  let _ ← optionally input.dueOn fun value => validateDate texts value "dueOn"
  let _ ← optionally input.planDate fun value => validateDate texts value "planDate"
  let remindAt ← optionally input.remindAt fun value => normalizeInstant texts value "remindAt"
  let remindTimezone ← optionally input.remindTimezone validateTimezone
  let recurrence ← optionally input.recurrence validateRecurrence
  let rank ← optionally input.rank validateRank
  let tags ← normalizeTags texts input.tags
  return {
    listId := input.listId
    title := title
    note := cleanNote input.note
    tags := tags
    important := input.important.getD false
    dueOn := input.dueOn
    remindAt := remindAt
    remindTimezone := remindTimezone
    recurrence := recurrence
    rank := rank
    planDate := input.planDate }

/-- `insert_task` and the creation in the outbox. -/
def createTaskRow (tx : Tx) (task : Task) : StoreResult Tx := do
  validateNonEmptyId task.id
  let _ ← cleanTitle task.title
  tx.create supply (.task task)

/-- A new plan at the end of its day. -/
def createPlan (tx : Tx) (taskId localDate : String) : StoreResult Tx :=
  let plans := tx.tables.dayPlans.values.filter fun plan =>
    plan.localDate == localDate && plan.deletedAt.isNone
  tx.create supply (.dayPlan {
    id := supply.planId
    taskId := taskId
    localDate := localDate
    rank := nextRank (plans.map DayPlan.rank)
    createdAt := supply.now
    updatedAt := supply.now
    deletedAt := none })

def createPlanIfAsked (tx : Tx) (taskId : String) : Option String → StoreResult Tx
  | none => .ok tx
  | some planDate => createPlan supply tx taskId planDate

def createTask (input : NewTask) : StoreResult (Task × Tx) := do
  let prepared ← prepareNewTask texts input
  let _ ← optionally prepared.listId (ensureActiveList store)
  let task : Task := {
    id := supply.id
    listId := prepared.listId
    title := prepared.title
    note := prepared.note
    tags := prepared.tags
    status := .open
    important := prepared.important
    dueOn := prepared.dueOn
    remindAt := prepared.remindAt
    remindTimezone := prepared.remindTimezone
    rank := prepared.rank.getD (nextRank (store.rows.val.tasks.values.map Task.rank))
    seriesId := none
    occurrenceKey := prepared.dueOn
    recurrence := prepared.recurrence
    completedAt := none
    createdAt := supply.now
    updatedAt := supply.now
    deletedAt := none }
  let tx ← createTaskRow supply store.begin task
  let tx ← createPlanIfAsked supply tx task.id prepared.planDate
  return (task, tx)

/-- What a patch sets `completed_at` to, if it sets it. -/
def patchedCompletion (patch : TaskPatch) (status : Option TaskStatus) :
    StoreResult (Option (Option String)) :=
  if status = some .open then .ok (some none)
  else match patch.completedAt with
    | some value => do
        let instant ← optionally value fun value => normalizeInstant texts value "completedAt"
        return some instant
    | none => .ok (if status = some .completed then some (some supply.now) else none)

def patchTask (id : String) (patch : TaskPatch) : StoreResult (Task × Tx) := do
  refuseIf patch.isEmpty (.validation "task patch must contain at least one field")
  validateNonEmptyId id
  let current ← orNotFound (store.liveTask id) "任务不存在"
  let title ← patched patch.title current.title fun value => do cleanTitle (← required value "title")
  let listId ← patched patch.listId current.listId fun value => optionally value fun listId => do
    validateNonEmptyId listId
    ensureActiveList store listId
    return listId
  let note ← patched patch.note current.note fun value => .ok (cleanNote value)
  let tags ← patched patch.tags current.tags (normalizeTags texts)
  let important ← patched patch.important current.important fun value => required value "important"
  let dueOn ← patched patch.dueOn current.dueOn fun value => optionally value fun date => do
    validateDate texts date "dueOn"
    return date
  let remindAt ← patched patch.remindAt current.remindAt fun value =>
    optionally value fun instant => normalizeInstant texts instant "remindAt"
  let remindTimezone ← patched patch.remindTimezone current.remindTimezone fun value =>
    optionally value validateTimezone
  let recurrence ← patched patch.recurrence current.recurrence fun value =>
    optionally value validateRecurrence
  let rank ← patched patch.rank current.rank fun value => do validateRank (← required value "rank")
  let status ← optionally patch.status fun value => required value "status"
  let completedAt ← patchedCompletion texts supply patch status
  let updated : Task := {
    current with
    listId := listId
    title := title
    note := note
    tags := tags
    status := status.getD current.status
    important := important
    dueOn := dueOn
    remindAt := remindAt
    remindTimezone := remindTimezone
    rank := rank
    recurrence := recurrence
    completedAt := completedAt.getD current.completedAt
    updatedAt := supply.now }
  -- The rank stays as it came in.
  let effective : TaskPatch := {
    patch with
    title := patch.title.map fun _ => some title
    note := patch.note.map fun _ => some note
    tags := patch.tags.map fun _ => tags
    remindAt := patch.remindAt.map fun _ => remindAt
    remindTimezone := patch.remindTimezone.map fun _ => remindTimezone
    completedAt := completedAt }
  let tx ← store.begin.save supply (.task updated) .patch effective.data
  return (updated, tx)

/-- The checks of the occurrence that follows a completed task. -/
def checkNextTask (taskId : String) (next : Task) : StoreResult Unit := do
  validateNonEmptyId next.id
  refuseIf (next.id = taskId) (.conflict "nextTask 不能与已完成任务相同")

def createNextTask (tx : Tx) : Option Task → StoreResult Tx
  | none => .ok tx
  | some next => createTaskRow supply tx next

def commitCompletion (taskId completedAt : String) (nextTask : Option Task) :
    StoreResult ((Task × Option Task) × Tx) := do
  validateNonEmptyId taskId
  let completedAt ← normalizeInstant texts completedAt "completedAt"
  let _ ← optionally nextTask (checkNextTask taskId)
  let current ← orNotFound (store.liveTask taskId) "任务不存在"
  let _ ← optionally (nextTask.bind Task.listId) (ensureActiveList store)
  let completed : Task := {
    current with
    status := .completed
    completedAt := some completedAt
    updatedAt := supply.now }
  let tx ← store.begin.save supply (.task completed) .patch
    [("status", statusJson .completed), ("completedAt", .str completedAt)]
  let tx ← createNextTask supply tx nextTask
  return ((completed, nextTask), tx)

def deleteTask (id : String) : StoreResult Tx := do
  validateNonEmptyId id
  match store.liveTask id with
  | none => return store.begin
  | some task =>
      store.begin.save supply
        (.task { task with deletedAt := some supply.now, updatedAt := supply.now }) .delete []

def restoreTask (id : String) : StoreResult Tx := do
  validateNonEmptyId id
  match (store.rows.val.tasks.lookup id).filter fun task => task.deletedAt.isSome with
  | none => return store.begin
  | some task =>
      store.begin.save supply (.task { task with deletedAt := none, updatedAt := supply.now })
        .restore []

/-- The live tasks of the same list and status, in their order. -/
def siblings (current : Task) : List Task :=
  (store.rows.val.tasks.values.filter fun task => task.deletedAt.isNone &&
    task.status == current.status && task.listId == current.listId).insertionSort
      fun left right => compareTasks left right

/-- The sibling that the task changes places with. -/
def reorderTarget (current : Task) (direction : String) : Option Task := do
  let index ← (siblings store current).findIdx? fun task => task.id == current.id
  if direction = "up" then
    if index = 0 then none else (siblings store current)[index - 1]?
  else (siblings store current)[index + 1]?

def swapRanks (current other : Task) : StoreResult Tx := do
  let tx ← store.begin.write (.task { current with rank := other.rank, updatedAt := supply.now })
  let tx ← tx.write (.task { other with rank := current.rank, updatedAt := supply.now })
  let tx ← tx.appendMutation supply (.task, current.id) .patch [("rank", .str other.rank)]
  tx.appendMutation supply (.task, other.id) .patch [("rank", .str current.rank)]

def reorderTask (id direction : String) : StoreResult Tx := do
  validateNonEmptyId id
  refuseIf (direction ≠ "up" ∧ direction ≠ "down") (.validation "direction 必须是 up 或 down")
  let current ← orNotFound (store.liveTask id) "任务不存在"
  match reorderTarget store current direction with
  | none => return store.begin
  | some other => swapRanks supply store current other

/-! ### Day plans -/

def addToDay (taskId date : String) : StoreResult Tx := do
  validateNonEmptyId taskId
  validateDate texts date "date"
  let _ ← orNotFound (store.liveTask taskId) "任务不存在"
  match store.planAt taskId date with
  | none => createPlan supply store.begin taskId date
  | some plan =>
      if plan.deletedAt.isSome then
        store.begin.save supply (.dayPlan { plan with deletedAt := none, updatedAt := supply.now })
          .restore []
      else .ok store.begin

def removeFromDay (taskId date : String) : StoreResult Tx := do
  validateNonEmptyId taskId
  validateDate texts date "date"
  match (store.planAt taskId date).filter fun plan => plan.deletedAt.isNone with
  | none => return store.begin
  | some plan =>
      store.begin.save supply
        (.dayPlan { plan with deletedAt := some supply.now, updatedAt := supply.now }) .delete []

/-! ### Steps -/

def createStep (taskId title : String) : StoreResult (Step × Tx) := do
  validateNonEmptyId taskId
  let title ← cleanTitle title
  let _ ← orNotFound (store.liveTask taskId) "任务不存在"
  let steps := store.rows.val.steps.values.filter fun step =>
    step.taskId == taskId && step.deletedAt.isNone
  let step : Step := {
    id := supply.id
    taskId := taskId
    title := title
    isCompleted := false
    rank := nextRank (steps.map Step.rank)
    createdAt := supply.now
    updatedAt := supply.now
    deletedAt := none }
  let tx ← store.begin.create supply (.step step)
  return (step, tx)

def patchStep (id : String) (patch : StepPatch) : StoreResult (Step × Tx) := do
  refuseIf patch.isEmpty (.validation "step patch must contain at least one field")
  validateNonEmptyId id
  let current ← orNotFound (store.liveStep id) "子步骤不存在"
  let title ← patched patch.title current.title fun value => do cleanTitle (← required value "title")
  let isCompleted ← patched patch.isCompleted current.isCompleted fun value =>
    required value "isCompleted"
  let rank ← patched patch.rank current.rank fun value => do validateRank (← required value "rank")
  let updated : Step := {
    current with
    title := title
    isCompleted := isCompleted
    rank := rank
    updatedAt := supply.now }
  -- The outbox gets the patch as it came in.
  let tx ← store.begin.save supply (.step updated) .patch patch.data
  return (updated, tx)

def deleteStep (id : String) : StoreResult Tx := do
  validateNonEmptyId id
  match store.liveStep id with
  | none => return store.begin
  | some step =>
      store.begin.save supply
        (.step { step with deletedAt := some supply.now, updatedAt := supply.now }) .delete []

/-! ### Export and import -/

/-- Every row of the four tables, the deleted ones too. -/
def exportData : ExportBundle where
  format := "todo-export"
  version := 1
  tasks := store.rows.val.tasks.values.insertionSort fun left right => compareTasks left right
  lists := store.rows.val.lists.values.insertionSort fun left right =>
    left.rank < right.rank ∨ left.rank = right.rank ∧ left.createdAt ≤ right.createdAt
  steps := store.rows.val.steps.values.insertionSort fun left right =>
    left.taskId < right.taskId ∨ left.taskId = right.taskId ∧
      (left.rank < right.rank ∨ left.rank = right.rank ∧ left.createdAt ≤ right.createdAt)
  dayPlans := store.rows.val.dayPlans.values.insertionSort fun left right =>
    left.localDate < right.localDate ∨ left.localDate = right.localDate ∧ left.rank ≤ right.rank

def checkUnique (kind : String) : List String → List String → StoreResult Unit
  | _, [] => .ok ()
  | seen, id :: rest => do
      refuseIf (id ∈ seen) (.validation s!"导入 bundle 的 {kind} ID 重复: {id}")
      checkUnique kind (id :: seen) rest

def validateUniqueImportIds (bundle : ExportBundle) : StoreResult Unit := do
  checkUnique "list" [] (bundle.lists.map TaskList.id)
  checkUnique "task" [] (bundle.tasks.map Task.id)
  checkUnique "step" [] (bundle.steps.map Step.id)
  checkUnique "day_plan" [] (bundle.dayPlans.map DayPlan.id)

/-- Without the rows of the user, the outbox and the server's copies. -/
def Store.clear : Store where
  rows := .empty
  shadow := ∅
  outbox := ∅
  kv := store.kv

/-- The store that the rows of the bundle are written to. -/
def importStart : ImportMode → Store
  | .merge => store
  | .replace => store.clear

def importRow (tx : Tx) (row : Row) : StoreResult Tx :=
  tx.save supply row (if (tx.tables.find row.key).isSome then .patch else .create) row.data

def importTask (tx : Tx) (task : Task) : StoreResult Tx := do
  let tags ← normalizeTags texts task.tags
  importRow supply tx (.task { task with tags := tags })

def importData (bundle : ExportBundle) (mode : ImportMode) : StoreResult Tx := do
  refuseIf (bundle.format ≠ "todo-export" ∨ bundle.version ≠ 1) (.validation "备份格式不受支持")
  let _ ← bundle.lists.mapM fun list => cleanListName list.name
  let _ ← bundle.tasks.mapM fun task => cleanTitle task.title
  validateUniqueImportIds bundle
  let tx ← (bundle.lists.map Row.list).foldlM (importRow supply) (importStart store mode).begin
  let tx ← bundle.tasks.foldlM (importTask texts supply) tx
  let tx ← (bundle.steps.map Row.step).foldlM (importRow supply) tx
  (bundle.dayPlans.map Row.dayPlan).foldlM (importRow supply) tx

end operations

end ShishiTodo.Native
