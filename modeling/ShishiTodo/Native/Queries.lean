import ShishiTodo.Native.Store
import Mathlib.Logic.Equiv.List

/-!
# What the native store shows

`list_tasks` and `get_counts`: the rows of a view in the order in which they are shown, and the numbers beside the views. Rows that no sort tells apart come as the tables hold them, by their rowid.
-/

namespace ShishiTodo.Native

open Lib

inductive TaskView where
  | myDay | important | planned | all | completed | list
  deriving DecidableEq, Repr

structure TaskQuery where
  view : TaskView
  listId : Option String
  search : Option String
  tags : List String
  localDate : Option String
  dueFrom : Option String
  dueTo : Option String
  includeCompleted : Bool
  limit : Option UInt32
  deriving DecidableEq, Repr

/-- A query of the view alone. -/
def TaskView.query (view : TaskView) : TaskQuery := ⟨view, none, none, [], none, none, none, false, none⟩

/-- A query that filters by nothing but the view. -/
structure TaskQuery.Plain (query : TaskQuery) : Prop where
  search : query.search = none
  tags : query.tags = []
  dueFrom : query.dueFrom = none
  dueTo : query.dueTo = none
  openOnly : query.includeCompleted = false

structure TaskWithSteps where
  task : Task
  steps : List Step
  dayPlanDates : List String
  deriving DecidableEq, Repr

structure Page where
  items : List TaskWithSteps
  nextCursor : Option String
  deriving DecidableEq, Repr

structure ViewCounts where
  myDay : Nat
  important : Nat
  planned : Nat
  completed : Nat
  all : Nat
  lists : Table String Nat

/-- The rowids of the tables: an update keeps them. -/
structure RowOrder where
  rowid : RowKey → Nat
  injective : Function.Injective rowid

/-- The rows in the order of their texts. -/
def RowOrder.byText : RowOrder where
  rowid key := Encodable.encode (key.1.ctorIdx, key.2.toList.map Char.toNat)
  injective := by
    intro key other h
    obtain ⟨hentity, hid⟩ := Prod.mk.inj (Encodable.encode_injective h)
    have hchars := List.map_injective_iff.mpr (fun _ _ => Char.toNat_inj.mp) hid
    refine Prod.ext ?_ (String.toList_inj.mp hchars)
    revert hentity
    cases key.1 <;> cases other.1 <;> decide

/-! ### The filter -/

/-- `split_whitespace`. -/
def splitWhitespace (text : String) : List (List Char) :=
  (text.toList.splitOnP isWhitespace).filter fun word => !word.isEmpty

def taskMatchesSearch (texts : Texts) (task : Task) (search : String) : Bool :=
  let needle := texts.toLowercase (trim search)
  if needle.isEmpty then true
  else
    let haystack := texts.toLowercase (task.title ++ "\n" ++ task.note ++ "\n" ++ " ".intercalate task.tags)
    (splitWhitespace needle).all fun token => decide (token <:+: haystack.toList)

def taskMatchesQuery (texts : Texts) (task : Task) (query : TaskQuery) : Bool :=
  if task.deletedAt.isSome then false
  else if query.view = .completed ∧ task.status ≠ .completed then false
  else if query.view ≠ .completed ∧ !query.includeCompleted ∧ task.status ≠ .open then false
  else if query.view = .important ∧ !task.important then false
  else if query.view = .planned ∧ task.dueOn.isNone then false
  else if query.view = .list ∧ task.listId ≠ query.listId then false
  else if query.dueFrom.any fun dueFrom => task.dueOn.all fun due => due < dueFrom then false
  else if query.dueTo.any fun dueTo => task.dueOn.all fun due => dueTo < due then false
  else
    let taskTags := task.tags.map texts.toLowercase
    if !query.tags.isEmpty && !query.tags.all fun tag => taskTags.contains (texts.toLowercase (trim tag)) then
      false
    else taskMatchesSearch texts task (query.search.getD "")

/-! ### The views -/

section

variable (texts : Texts) (order : RowOrder) (store : Store)

/-- `SELECT … FROM local_tasks`. -/
def RowOrder.tasks : List Task :=
  store.rows.val.tasks.values.insertionSort fun left right =>
    order.rowid (.task, left.id) ≤ order.rowid (.task, right.id)

def RowOrder.steps : List Step :=
  store.rows.val.steps.values.insertionSort fun left right =>
    order.rowid (.step, left.id) ≤ order.rowid (.step, right.id)

def RowOrder.dayPlans : List DayPlan :=
  store.rows.val.dayPlans.values.insertionSort fun left right =>
    order.rowid (.dayPlan, left.id) ≤ order.rowid (.dayPlan, right.id)

/-- The live tasks that have a plan for the date, with the rank of the plan. -/
def plannedTasks (localDate : String) : List (Task × String) :=
  ((order.dayPlans store).filter fun plan => plan.deletedAt.isNone && plan.localDate == localDate).flatMap
    fun plan => ((order.tasks store).filter fun task => task.deletedAt.isNone && task.id == plan.taskId).map
      fun task => (task, plan.rank)

/-- The tasks of a query in the order in which they are shown. -/
def shownTasks (query : TaskQuery) : List Task :=
  if query.view = .myDay then
    let rows := (plannedTasks order store (query.localDate.getD "")).filter fun row =>
      taskMatchesQuery texts row.1 query
    (rows.insertionSort fun left right =>
      left.2 < right.2 ∨ left.2 = right.2 ∧ left.1.createdAt ≤ right.1.createdAt).map Prod.fst
  else
    ((order.tasks store).filter fun task => taskMatchesQuery texts task query).insertionSort
      fun left right => compareTasks left right

def attachDetails (task : Task) : TaskWithSteps where
  task := task
  steps := ((order.steps store).filter fun step => step.deletedAt.isNone && step.taskId == task.id).insertionSort
    fun left right => left.rank < right.rank ∨ left.rank = right.rank ∧ left.createdAt ≤ right.createdAt
  dayPlanDates := (((order.dayPlans store).filter fun plan =>
    plan.deletedAt.isNone && plan.taskId == task.id).insertionSort fun left right =>
      left.localDate < right.localDate ∨ left.localDate = right.localDate ∧ left.rank ≤ right.rank).map
        DayPlan.localDate

/-- `limit.unwrap_or(500).clamp(1, 5_000)`. -/
def TaskQuery.pageSize (query : TaskQuery) : Nat := max 1 (min (query.limit.getD 500).toNat 5000)

def listTasks (query : TaskQuery) : StoreResult Page := do
  let _ ← optionally query.localDate fun date => validateDate texts date "localDate"
  let _ ← optionally query.dueFrom fun date => validateDate texts date "dueFrom"
  let _ ← optionally query.dueTo fun date => validateDate texts date "dueTo"
  refuseIf (query.view = .myDay ∧ query.localDate = none) (.validation "my-day 查询需要 localDate")
  return {
    items := ((shownTasks texts order store query).take query.pageSize).map (attachDetails order store)
    nextCursor := none }

/-! ### The numbers -/

/-- `sorted_lists`, without the order. -/
def liveListIds : List String :=
  (store.rows.val.lists.values.filter fun list => list.deletedAt.isNone).map TaskList.id

/-- One round of the loop over the open tasks. -/
def countTask (myDayIds : List String) (counts : ViewCounts) (task : Task) : ViewCounts :=
  { counts with
    myDay := counts.myDay + if task.id ∈ myDayIds then 1 else 0
    important := counts.important + if task.important then 1 else 0
    planned := counts.planned + if task.dueOn.isSome then 1 else 0
    lists := match task.listId with
      | none => counts.lists
      | some listId => counts.lists.insert listId ((counts.lists.lookup listId).getD 0 + 1) }

def getCounts (localDate : String) : StoreResult ViewCounts := do
  validateDate texts localDate "localDate"
  let tasks := order.tasks store
  let openTasks := tasks.filter fun task => task.deletedAt.isNone && task.status == .open
  let myDayIds := ((order.dayPlans store).filter fun plan =>
    plan.localDate == localDate && plan.deletedAt.isNone).map DayPlan.taskId
  let lists := (liveListIds store).foldl (fun lists id => lists.insert id 0) (∅ : Table String Nat)
  let counts : ViewCounts := {
    myDay := 0
    important := 0
    planned := 0
    completed := tasks.countP fun task => task.deletedAt.isNone && task.status == .completed
    all := openTasks.length
    lists := lists }
  return openTasks.foldl (countTask myDayIds) counts

end

/-! ### Rows as they come -/

/-- In a table whose rows say their own keys no two rows say the same. -/
theorem nodup_map_values {ρ : Type} {table : Table String ρ} {idOf : ρ → String}
    (hkeyed : ∀ id row, table.lookup id = some row → idOf row = id) : (table.values.map idOf).Nodup := by
  have hkeys : table.values.map idOf = table.keys := by
    rw [Table.values, AList.keys, List.keys, List.map_map]
    apply List.map_congr_left
    rintro ⟨id, row⟩ hmem
    exact hkeyed id row (Table.mem_entries_iff.mp hmem)
  rw [hkeys]
  exact table.keys_nodup

theorem tasks_perm (order : RowOrder) (store : Store) :
    (order.tasks store).Perm store.rows.val.tasks.values := List.perm_insertionSort _ _

theorem dayPlans_perm (order : RowOrder) (store : Store) :
    (order.dayPlans store).Perm store.rows.val.dayPlans.values := List.perm_insertionSort _ _

theorem task_keyed (store : Store) (id : String) (task : Task)
    (h : store.rows.val.tasks.lookup id = some task) : task.id = id := by
  have hkey := store.rows.property.keyed (.task, id) (.task task) (by rw [Tables.find, h]; rfl)
  exact congrArg Prod.snd hkey

theorem plan_keyed (store : Store) (id : String) (plan : DayPlan)
    (h : store.rows.val.dayPlans.lookup id = some plan) : plan.id = id := by
  have hkey := store.rows.property.keyed (.dayPlan, id) (.dayPlan plan) (by rw [Tables.find, h]; rfl)
  exact congrArg Prod.snd hkey

/-- No two tasks have one id. -/
theorem nodup_taskIds (order : RowOrder) (store : Store) : ((order.tasks store).map Task.id).Nodup :=
  ((tasks_perm order store).map Task.id).nodup_iff.mpr (nodup_map_values (task_keyed store))

theorem nodup_planIds (order : RowOrder) (store : Store) : ((order.dayPlans store).map DayPlan.id).Nodup :=
  ((dayPlans_perm order store).map DayPlan.id).nodup_iff.mpr (nodup_map_values (plan_keyed store))

end ShishiTodo.Native
