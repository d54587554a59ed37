import ShishiTodo.Native.Explained
import ShishiTodo.Native.Queries

/-!
# Counts and lists

Each number that `get_counts` gives is the number of tasks that match the view, and `list_tasks` returns so many of them, up to the size of a page.
-/

namespace ShishiTodo.Native

open Lib

variable {texts : Texts} {order : RowOrder} {store : Store}

/-- The number of a view; for the view of a list, the number of that list. -/
def ViewCounts.number (counts : ViewCounts) (listId : Option String) : TaskView → Nat
  | .myDay => counts.myDay
  | .important => counts.important
  | .planned => counts.planned
  | .all => counts.all
  | .completed => counts.completed
  | .list => (listId.bind fun id => counts.lists.lookup id).getD 0

/-! ### What the loop counts -/

def Task.isOpen (task : Task) : Bool := task.deletedAt.isNone && task.status == .open

theorem countTask_foldl (myDayIds : List String) (tasks : List Task) (counts : ViewCounts) :
    let final := tasks.foldl (countTask myDayIds) counts
    final.myDay = counts.myDay + tasks.countP (fun task => decide (task.id ∈ myDayIds)) ∧
      final.important = counts.important + tasks.countP (fun task => task.important) ∧
      final.planned = counts.planned + tasks.countP (fun task => task.dueOn.isSome) ∧
      final.completed = counts.completed ∧ final.all = counts.all ∧
      ∀ id, (final.lists.lookup id).getD 0 =
        (counts.lists.lookup id).getD 0 + tasks.countP fun task => task.listId == some id := by
  induction tasks generalizing counts with
  | nil => simp
  | cons task rest ih =>
      obtain ⟨hmyDay, himportant, hplanned, hcompleted, hall, hlists⟩ := ih (countTask myDayIds counts task)
      simp only [List.foldl_cons, List.countP_cons]
      refine ⟨?_, ?_, ?_, hcompleted, hall, fun id => ?_⟩
      · rw [hmyDay]
        simp only [countTask, decide_eq_true_eq]
        omega
      · rw [himportant]
        simp only [countTask]
        omega
      · rw [hplanned]
        simp only [countTask]
        omega
      · rw [hlists]
        simp only [countTask]
        rcases htask : task.listId with _ | listId
        · simp
        · by_cases hid : listId = id
          · subst hid
            simp
            omega
          · have hid' : id ≠ listId := fun h => hid h.symm
            simp [AList.lookup_insert_ne hid', hid]

theorem lookup_zeros (ids : List String) (id : String) {start : Table String Nat}
    (hstart : (start.lookup id).getD 0 = 0) :
    ((ids.foldl (fun lists id => lists.insert id 0) start).lookup id).getD 0 = 0 := by
  induction ids generalizing start with
  | nil => exact hstart
  | cons first rest ih =>
      apply ih
      rw [Table.lookup_insert_eq_ite]
      split
      · rfl
      · exact hstart

/-! ### What a view shows -/

/-- The plans of a date are of different tasks. -/
theorem nodup_plannedIds (date : String) : (((order.dayPlans store).filter fun plan =>
    plan.deletedAt.isNone && plan.localDate == date).map DayPlan.taskId).Nodup := by
  rw [List.Nodup, List.pairwise_map, List.pairwise_filter]
  have hids := List.pairwise_map.mp (nodup_planIds order store)
  refine hids.imp_of_mem fun {plan other} hplan hother hne hdate hdate' hsame => hne ?_
  simp only [Bool.and_eq_true, beq_iff_eq] at hdate hdate'
  have hlookup := (Table.mem_values_of_keyed (plan_keyed store)).mp ((dayPlans_perm order store).subset hplan)
  have hlookup' := (Table.mem_values_of_keyed (plan_keyed store)).mp ((dayPlans_perm order store).subset hother)
  exact (store.rows.property.slot _ plan hlookup _ other hlookup' hsame.symm
    (hdate'.2.trans hdate.2.symm)).symm

/-- The tasks with a plan for the date, each once. -/
theorem plannedTasks_perm (date : String) : ((plannedTasks order store date).map Prod.fst).Perm
    ((order.tasks store).filter fun task => task.deletedAt.isNone &&
      decide (task.id ∈ ((order.dayPlans store).filter fun plan =>
        plan.localDate == date && plan.deletedAt.isNone).map DayPlan.taskId)) := by
  have htasks : (order.tasks store).Nodup := (nodup_taskIds order store).of_map _
  have hfst : (plannedTasks order store date).map Prod.fst =
      ((order.dayPlans store).filter fun plan => plan.deletedAt.isNone && plan.localDate == date).flatMap
        fun plan => (order.tasks store).filter fun task => task.deletedAt.isNone && task.id == plan.taskId := by
    unfold plannedTasks
    rw [List.map_flatMap]
    congr 1
    funext plan
    rw [List.map_map]
    exact List.map_id _
  rw [hfst, List.perm_ext_iff_of_nodup _ (htasks.filter _)]
  · intro task
    simp only [List.mem_flatMap, List.mem_filter, Bool.and_eq_true, beq_iff_eq, decide_eq_true_eq, List.mem_map]
    constructor
    · rintro ⟨plan, ⟨hplan, hlive, hdate⟩, htask, hopen, hid⟩
      exact ⟨htask, hopen, plan, ⟨hplan, hdate, hlive⟩, hid.symm⟩
    · rintro ⟨htask, hopen, plan, ⟨hplan, hdate, hlive⟩, hid⟩
      exact ⟨plan, ⟨hplan, hlive, hdate⟩, htask, hopen, hid.symm⟩
  · rw [List.nodup_flatMap]
    refine ⟨fun plan _ => htasks.filter _, ?_⟩
    refine (List.pairwise_map.mp (nodup_plannedIds date)).imp fun {plan other} hne => ?_
    intro task htask hother
    simp only [List.mem_filter, Bool.and_eq_true, beq_iff_eq] at htask hother
    exact hne (htask.2.2.symm.trans hother.2.2)

/-! ### Agreement -/

theorem validateDate_ok {date field : String} (hvalid : texts.isDate date = true) :
    validateDate texts date field = .ok () := by
  rw [validateDate, refuseIf_eq_ok_iff, hvalid]
  exact Bool.noConfusion

theorem getCounts_ok {date : String} (hvalid : texts.isDate date = true) :
    ∃ counts, getCounts texts order store date = .ok counts := by
  rw [getCounts, validateDate_ok hvalid]
  exact ⟨_, rfl⟩

/-- Whether an open task counts for a view. -/
def Task.countsFor (order : RowOrder) (store : Store) (date : String) (listId : Option String) (task : Task) :
    TaskView → Bool
  | .myDay => task.isOpen && decide (task.id ∈ ((order.dayPlans store).filter fun plan =>
      plan.localDate == date && plan.deletedAt.isNone).map DayPlan.taskId)
  | .important => task.isOpen && task.important
  | .planned => task.isOpen && task.dueOn.isSome
  | .all => task.isOpen
  | .completed => task.deletedAt.isNone && task.status == .completed
  | .list => task.isOpen && task.listId == listId

theorem getCounts_number {date : String} {counts : ViewCounts}
    (h : getCounts texts order store date = .ok counts) (view : TaskView) {listId : Option String}
    (hlist : view = .list → listId.isSome) :
    counts.number listId view =
      (order.tasks store).countP fun task => task.countsFor order store date listId view := by
  obtain ⟨_, -, hcounts⟩ := bind_eq_ok_iff.mp h
  have hdone := Except.ok.inj hcounts
  have hzeros : ∀ id, (((liveListIds store).foldl (fun lists id => lists.insert id 0)
      (∅ : Table String Nat)).lookup id).getD 0 = 0 := fun id => lookup_zeros (liveListIds store) id rfl
  obtain ⟨hmyDay, himportant, hplanned, hcompleted, hall, hlists⟩ :=
    countTask_foldl (((order.dayPlans store).filter fun plan =>
      plan.localDate == date && plan.deletedAt.isNone).map DayPlan.taskId)
      ((order.tasks store).filter Task.isOpen)
      { myDay := 0
        important := 0
        planned := 0
        completed := (order.tasks store).countP fun task => task.deletedAt.isNone && task.status == .completed
        all := ((order.tasks store).filter Task.isOpen).length
        lists := (liveListIds store).foldl (fun lists id => lists.insert id 0) ∅ }
  have hopen : ∀ test : Task → Bool, 0 + ((order.tasks store).filter Task.isOpen).countP test =
      (order.tasks store).countP fun task => task.isOpen && test task := by
    intro test
    rw [Nat.zero_add, List.countP_filter]
    exact List.countP_congr fun task _ => by rw [Bool.and_comm]
  subst hdone
  cases view with
  | list =>
      obtain ⟨id, rfl⟩ := Option.isSome_iff_exists.mp (hlist rfl)
      refine (hlists id).trans ?_
      rw [hzeros]
      exact hopen _
  | myDay => exact hmyDay.trans (hopen _)
  | important => exact himportant.trans (hopen _)
  | planned => exact hplanned.trans (hopen _)
  | all => exact hall.trans List.countP_eq_length_filter.symm
  | completed => exact hcompleted

theorem taskMatchesQuery_eq (hlower : texts.toLowercase "" = "") {query : TaskQuery} (task : Task)
    (hplain : query.Plain) :
    taskMatchesQuery texts task query = match query.view with
      | .important => task.isOpen && task.important
      | .planned => task.isOpen && task.dueOn.isSome
      | .completed => task.deletedAt.isNone && task.status == .completed
      | .list => task.isOpen && task.listId == query.listId
      | _ => task.isOpen := by
  obtain ⟨hsearch, htags, hfrom, hto, hopen⟩ := hplain
  have hneedle : taskMatchesSearch texts task "" = true := by
    have htrim : trim "" = "" := by decide
    simp [taskMatchesSearch, htrim, hlower]
  simp only [taskMatchesQuery, hsearch, htags, hfrom, hto, hopen, Task.isOpen]
  cases query.view <;> cases task.deletedAt <;> cases task.status <;> simp [hneedle]
  · cases task.dueOn <;> rfl
  · exact (beq_eq_decide _ _).symm

theorem shownTasks_length (hlower : texts.toLowercase "" = "") {date : String} {query : TaskQuery}
    (hdate : query.view = .myDay → query.localDate = some date)
    (hplain : query.Plain) :
    (shownTasks texts order store query).length =
      (order.tasks store).countP fun task => task.countsFor order store date query.listId query.view := by
  have hmatches := fun task => @taskMatchesQuery_eq texts hlower query task hplain
  unfold shownTasks
  split
  · rename_i hview
    rw [List.length_map, List.length_insertionSort, hdate hview, Option.getD_some,
      ← List.countP_eq_length_filter]
    have hfst : (plannedTasks order store date).countP (fun row => taskMatchesQuery texts row.1 query) =
        ((plannedTasks order store date).map Prod.fst).countP fun task =>
          taskMatchesQuery texts task query := by
      rw [List.countP_map]
      rfl
    rw [hfst, (plannedTasks_perm date).countP_eq, List.countP_filter]
    apply List.countP_congr
    intro task _
    rw [hmatches, hview, Task.countsFor]
    simp only [Task.isOpen, Bool.and_eq_true]
    tauto
  · rename_i hview
    rw [List.length_insertionSort, ← List.countP_eq_length_filter]
    apply List.countP_congr
    intro task _
    rw [hmatches]
    cases hquery : query.view with
    | myDay => exact absurd hquery hview
    | _ => rfl

/-- The query is answered when its date is a date, and there where the view needs it. -/
theorem listTasks_ok {query : TaskQuery} (hplain : query.Plain)
    (hvalid : ∀ date, query.localDate = some date → texts.isDate date = true)
    (hmyDay : query.view = .myDay → query.localDate ≠ none) :
    listTasks texts order store query = .ok
      { items := ((shownTasks texts order store query).take query.pageSize).map (attachDetails order store)
        nextCursor := none } := by
  have hasked : refuseIf (query.view = .myDay ∧ query.localDate = none)
      (StoreError.validation "my-day 查询需要 localDate") = .ok () :=
    refuseIf_eq_ok_iff.mpr fun h => hmyDay h.1 h.2
  unfold listTasks
  rw [hplain.dueFrom, hplain.dueTo, hasked]
  cases hdate : query.localDate with
  | none => rfl
  | some date =>
      simp only [optionally, validateDate_ok (hvalid date hdate)]
      rfl

section

variable (tasks : List Task) (hids : (tasks.map Task.id).Nodup) (hlists : ∀ task ∈ tasks, task.listId = none)

/-- The tasks under their ids. -/
def tasksById : Table String Task where
  entries := tasks.map fun task => ⟨task.id, task⟩
  nodupKeys := by
    rw [List.NodupKeys, List.keys, List.map_map]
    exact hids

variable {tasks} in
theorem lookup_tasksById {id : String} {task : Task} (h : (tasksById tasks hids).lookup id = some task) :
    task.id = id ∧ task ∈ tasks := by
  obtain ⟨found, hmem, hentry⟩ := List.mem_map.mp (Table.mem_entries_iff.mpr h)
  cases hentry
  exact ⟨rfl, hmem⟩

/-- A new store with these tasks, of no list. -/
def Store.withTasks : Store := { Store.open "device" with
  rows := ⟨{ Tables.empty with tasks := tasksById tasks hids }, {
    keyed := by
      rintro ⟨entity, id⟩ row hfind
      cases entity with
      | task =>
          obtain ⟨task, hlookup, rfl⟩ := Option.map_eq_some_iff.mp hfind
          exact Prod.ext rfl (lookup_tasksById hids hlookup).1
      | list => cases hfind
      | step => cases hfind
      | dayPlan => cases hfind
    listOf := fun id task hlookup listId hlistId => by
      rw [hlists task (lookup_tasksById hids hlookup).2] at hlistId
      cases hlistId
    taskOfStep := fun _ _ h => nomatch h
    taskOfPlan := fun _ _ h => nomatch h
    slot := fun _ _ h => nomatch h }⟩ }

theorem withTasks_perm (order : RowOrder) :
    (order.tasks (Store.withTasks tasks hids hlists)).Perm tasks := by
  have hvalues : (Store.withTasks tasks hids hlists).rows.val.tasks.values = tasks := by
    simp only [Store.withTasks, Table.values, tasksById, List.map_map]
    exact List.map_id tasks
  refine (tasks_perm order _).trans ?_
  rw [hvalues]

end

/-- One of many tasks. -/
def crowdTask (number : Nat) : Task where
  id := Codecs.uuid.render ⟨BitVec.ofNat 128 number⟩
  listId := none
  title := "Water the plants"
  note := ""
  tags := []
  status := .open
  important := false
  dueOn := none
  remindAt := none
  remindTimezone := none
  rank := "000001"
  seriesId := none
  occurrenceKey := none
  recurrence := none
  completedAt := none
  createdAt := "2026-10-21T05:00:00.000Z"
  updatedAt := "2026-10-21T05:00:00.000Z"
  deletedAt := none

/-- One task more than a page holds. -/
def crowd : List Task := (List.range 5001).map crowdTask

theorem nodup_crowd : (crowd.map Task.id).Nodup := by
  rw [crowd, List.map_map]
  refine List.nodup_range.map_on fun number hnumber other hother h => ?_
  have hparse := congrArg Codecs.uuid.parse h
  simp only [Function.comp_apply, crowdTask, Codecs.uuid_roundTrips _] at hparse
  have hsame := congrArg BitVec.toNat (Uuid.mk.inj (Option.some.inj hparse))
  rw [List.mem_range] at hnumber hother
  rwa [BitVec.toNat_ofNat, BitVec.toNat_ofNat, Nat.mod_eq_of_lt (by omega), Nat.mod_eq_of_lt (by omega)] at hsame

theorem crowd_listless : ∀ task ∈ crowd, task.listId = none := by
  intro task htask
  obtain ⟨number, -, rfl⟩ := List.mem_map.mp htask
  rfl

theorem crowd_open : crowd.countP Task.isOpen = 5001 := by
  rw [crowd, List.countP_map]
  exact (List.countP_eq_length.mpr fun _ _ => rfl).trans List.length_range

end ShishiTodo.Native
