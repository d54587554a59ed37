import ShishiTodo.Native.Queries
import ShishiTodo.Native.Upsert
import ShishiTodo.Lib.Exchange
import Mathlib.Data.Prod.Lex
import Mathlib.Data.String.Basic
import Mathlib.Order.WithBot

/-!
# Moving a task among its siblings

`reorder_task` exchanges the ranks of a task and of its neighbour among the live tasks of its list and status. The list view shows the rows by status, due date and rank, by the time of their creation where these are the same, and by their rowid at last.
-/

namespace ShishiTodo.Native

open Lib

/-- The task with another rank. -/
def Task.ranked (task : Task) (rank now : String) : Task := { task with rank := rank, updatedAt := now }

/-- The sibling next to a task. -/
def neighbour (siblings : List Task) (id direction : String) : Option Task := do
  let index ← siblings.findIdx? fun task => task.id == id
  if direction = "up" then
    if index = 0 then none else siblings[index - 1]?
  else siblings[index + 1]?

theorem neighbour_up {above below : List Task} {upper lower : Task}
    (hnodup : ((above ++ upper :: lower :: below).map Task.id).Nodup) :
    neighbour (above ++ upper :: lower :: below) lower.id "up" = some upper := by
  have hlower : (above ++ upper :: lower :: below)[above.length + 1]? = some lower := by simp
  unfold neighbour
  rw [findIdx?_ident hnodup hlower]
  simp

theorem neighbour_down {above below : List Task} {upper lower : Task}
    (hnodup : ((above ++ upper :: lower :: below).map Task.id).Nodup) :
    neighbour (above ++ upper :: lower :: below) upper.id "down" = some lower := by
  have hupper : (above ++ upper :: lower :: below)[above.length]? = some upper := by simp
  unfold neighbour
  rw [findIdx?_ident hnodup hupper]
  simp

/-! ### Ranks that are exchanged -/

/-- Two tasks of a table have exchanged their ranks. -/
structure Exchanged (tasks after : Table String Task) (upper lower : Task) (now : String) : Prop where
  first : after.lookup upper.id = some (upper.ranked lower.rank now)
  second : after.lookup lower.id = some (lower.ranked upper.rank now)
  others : ∀ id, id ≠ upper.id → id ≠ lower.id → after.lookup id = tasks.lookup id

section

variable {tasks after : Table String Task} {upper lower : Task} {now : String}

theorem Exchanged.symm (h : Exchanged tasks after upper lower now) : Exchanged tasks after lower upper now :=
  ⟨h.second, h.first, fun id hlower hupper => h.others id hupper hlower⟩

/-- Every task stands under its own id. -/
def TasksKeyed (tasks : Table String Task) : Prop := ∀ id task, tasks.lookup id = some task → task.id = id

theorem Exchanged.keyed (h : Exchanged tasks after upper lower now) (hkeyed : TasksKeyed tasks) :
    TasksKeyed after := by
  intro id task hlookup
  by_cases hupper : id = upper.id
  · rw [hupper, h.first] at hlookup
    rw [hupper, ← Option.some.inj hlookup]
    rfl
  · by_cases hlower : id = lower.id
    · rw [hlower, h.second] at hlookup
      rw [hlower, ← Option.some.inj hlookup]
      rfl
    · rw [h.others id hupper hlower] at hlookup
      exact hkeyed id task hlookup

theorem TasksKeyed.mem_values (hkeyed : TasksKeyed tasks) {task : Task} :
    task ∈ tasks.values ↔ tasks.lookup task.id = some task :=
  Table.mem_values_of_keyed hkeyed

theorem TasksKeyed.nodup (hkeyed : TasksKeyed tasks) : (tasks.values.map Task.id).Nodup :=
  nodup_map_values hkeyed

variable {test : Task → Bool} {above below : List Task}

/-- What the two of them do not decide shows the same rows. -/
theorem Exchanged.others_perm (h : Exchanged tasks after upper lower now) (hkeyed : TasksKeyed tasks)
    (htest : ∀ (task : Task) (rank now : String), test (task.ranked rank now) = test task)
    (hupper : tasks.lookup upper.id = some upper) (hlower : tasks.lookup lower.id = some lower)
    (hleft : test upper = false) (hright : test lower = false) :
    (after.values.filter test).Perm (tasks.values.filter test) := by
  have hafter := h.keyed hkeyed
  refine (List.perm_ext_iff_of_nodup (hafter.nodup.of_map.filter _) (hkeyed.nodup.of_map.filter _)).mpr ?_
  intro task
  rw [List.mem_filter, List.mem_filter, hafter.mem_values, hkeyed.mem_values]
  refine and_congr_left fun hchosen => ?_
  by_cases hid : task.id = upper.id
  · rw [hid, h.first, hupper, Option.some.injEq, Option.some.injEq]
    constructor
    · intro heq
      rw [← heq, htest, hleft] at hchosen
      cases hchosen
    · intro heq
      rw [← heq, hleft] at hchosen
      cases hchosen
  · by_cases hid' : task.id = lower.id
    · rw [hid', h.second, hlower, Option.some.injEq, Option.some.injEq]
      constructor
      · intro heq
        rw [← heq, htest, hright] at hchosen
        cases hchosen
      · intro heq
        rw [← heq, hright] at hchosen
        cases hchosen
    · rw [h.others task.id hid hid']

/-- The rows of a view after the exchange. -/
theorem Exchanged.rows_perm (h : Exchanged tasks after upper lower now) (hkeyed : TasksKeyed tasks)
    (htest : ∀ (task : Task) (rank now : String), test (task.ranked rank now) = test task)
    (hrows : (above ++ upper :: lower :: below).Perm (tasks.values.filter test)) :
    (after.values.filter test).Perm
      (above ++ lower.ranked upper.rank now :: upper.ranked lower.rank now :: below) := by
  have hafter := h.keyed hkeyed
  have hnodup : ((above ++ upper :: lower :: below).map Task.id).Nodup :=
    (hrows.map Task.id).nodup_iff.mpr ((List.filter_sublist.map Task.id).nodup hkeyed.nodup)
  have hchosen : ∀ task ∈ above ++ upper :: lower :: below,
      tasks.lookup task.id = some task ∧ test task = true := fun task htask => by
    have hmem := List.mem_filter.mp (hrows.subset htask)
    exact ⟨hkeyed.mem_values.mp hmem.1, hmem.2⟩
  have hids : (above ++ lower.ranked upper.rank now :: upper.ranked lower.rank now :: below).map Task.id =
      above.map Task.id ++ lower.id :: upper.id :: below.map Task.id := by
    rw [List.map_append]
    rfl
  rw [List.map_append, List.map_cons, List.map_cons] at hnodup
  have hnext : (above ++ lower.ranked upper.rank now :: upper.ranked lower.rank now :: below).Nodup := by
    apply List.Nodup.of_map Task.id
    rw [hids]
    exact ((List.Perm.swap _ _ _).append_left _).nodup_iff.mp hnodup
  refine (List.perm_ext_iff_of_nodup (hafter.nodup.of_map.filter _) hnext).mpr fun task => ?_
  rw [List.mem_filter, hafter.mem_values]
  have hupper := hchosen upper (by simp)
  have hlower := hchosen lower (by simp)
  have hapart : ∀ other ∈ above ++ below, other.id ≠ upper.id ∧ other.id ≠ lower.id := by
    intro other hother
    have hmoved : (upper.id :: lower.id :: (above ++ below).map Task.id).Nodup := by
      refine (List.Perm.nodup_iff ?_).mp hnodup
      rw [List.map_append]
      exact List.perm_middle.trans (List.perm_middle.cons _)
    have hmem := List.mem_map_of_mem (f := Task.id) hother
    obtain ⟨hfirst, hrest⟩ := List.nodup_cons.mp hmoved
    constructor
    · rintro heq
      exact hfirst (List.mem_cons_of_mem _ (heq ▸ hmem))
    · rintro heq
      exact (List.nodup_cons.mp hrest).1 (heq ▸ hmem)
  constructor
  · rintro ⟨hlookup, htask⟩
    by_cases hid : task.id = upper.id
    · rw [hid, h.first] at hlookup
      simp [← Option.some.inj hlookup]
    · by_cases hid' : task.id = lower.id
      · rw [hid', h.second] at hlookup
        simp [← Option.some.inj hlookup]
      · rw [h.others _ hid hid'] at hlookup
        have hmem := hrows.symm.subset (List.mem_filter.mpr ⟨hkeyed.mem_values.mpr hlookup, htask⟩)
        have hother : task ≠ upper ∧ task ≠ lower :=
          ⟨fun heq => hid (congrArg Task.id heq), fun heq => hid' (congrArg Task.id heq)⟩
        simp only [List.mem_append, List.mem_cons] at hmem ⊢
        tauto
  · intro hmem
    have hcases : task = lower.ranked upper.rank now ∨ task = upper.ranked lower.rank now ∨
        task ∈ above ++ below := by
      simp only [List.mem_append, List.mem_cons] at hmem ⊢
      tauto
    rcases hcases with rfl | rfl | hother
    · exact ⟨h.second, (htest _ _ _).trans hlower.2⟩
    · exact ⟨h.first, (htest _ _ _).trans hupper.2⟩
    · obtain ⟨hid, hid'⟩ := hapart task hother
      have hold := hchosen task (by
        simp only [List.mem_append, List.mem_cons] at hother ⊢
        tauto)
      rw [h.others _ hid hid']
      exact hold

end

/-! ### The operation -/

/-- `compare_tasks` by status and due date; a task without a due date comes last. -/
def Task.group (task : Task) : Nat ×ₗ WithTop String :=
  toLex (if task.status = .open then 0 else 1, match task.dueOn with
    | some due => (due : WithTop String)
    | none => ⊤)

def Task.sortKey (task : Task) : (Nat ×ₗ WithTop String) ×ₗ String ×ₗ String :=
  toLex (task.group, toLex (task.rank, task.createdAt))

theorem compareTasks_iff (left right : Task) : compareTasks left right = true ↔ left.sortKey ≤ right.sortKey := by
  simp only [compareTasks, Task.sortKey, Task.group, Prod.Lex.toLex_le_toLex, Prod.Lex.toLex_lt_toLex]
  cases left.status <;> cases right.status <;> rcases left.dueOn with _ | leftDue <;>
    rcases right.dueOn with _ | rightDue <;> simp [-String.lt_iff_ltb]
  all_goals
    by_cases hdue : leftDue = rightDue
    · simp [hdue, -String.lt_iff_ltb]
    · simp [hdue, -String.lt_iff_ltb]

section

variable (supply : Supply) (order : RowOrder) (store : Store)

/-- The live tasks of the same list and status, in their order. -/
def RowOrder.siblings (current : Task) : List Task :=
  ((order.tasks store).filter fun task => task.deletedAt.isNone && task.status == current.status &&
    task.listId == current.listId).insertionSort fun left right => compareTasks left right

/-- `reorder_task`, over the rows as the table hands them out. -/
def RowOrder.reorderTask (id direction : String) : StoreResult Tx := do
  validateNonEmptyId id
  refuseIf (direction ≠ "up" ∧ direction ≠ "down") (.validation "direction 必须是 up 或 down")
  let current ← orNotFound (store.liveTask id) "任务不存在"
  match neighbour (order.siblings store current) id direction with
  | none => return store.begin
  | some other => swapRanks supply store current other

end

/-! ### The list view -/

instance : Std.Total fun left right : Task => compareTasks left right = true where
  total left right := by
    simp only [compareTasks_iff]
    exact le_total _ _

instance : IsTrans Task fun left right => compareTasks left right = true where
  trans left middle right hleft hright := by
    rw [compareTasks_iff] at hleft hright ⊢
    exact hleft.trans hright

/-- Where a task is shown among the tasks of its list. -/
def RowOrder.place (order : RowOrder) (task : Task) : Place (Nat ×ₗ WithTop String) String (String ×ₗ Nat) where
  group := task.group
  rank := task.rank
  tie := toLex (task.createdAt, order.rowid (.task, task.id))

/-- All tasks of a list. -/
def listQuery (listId : Option String) : TaskQuery :=
  { TaskView.list.query with listId := listId, includeCompleted := true }

def Task.isIn (listId : Option String) (task : Task) : Bool := task.deletedAt.isNone && task.listId == listId

section

variable {order : RowOrder} {store : Store}

/-- The table hands the rows out by their rowids. -/
theorem tasks_inOrder (order : RowOrder) (store : Store) : (order.tasks store).Pairwise fun first second =>
    order.rowid (.task, first.id) < order.rowid (.task, second.id) := by
  have hle : (order.tasks store).Pairwise fun first second =>
      order.rowid (.task, first.id) ≤ order.rowid (.task, second.id) := by
    have : Std.Total fun first second : Task =>
        order.rowid (.task, first.id) ≤ order.rowid (.task, second.id) := ⟨fun _ _ => le_total _ _⟩
    have : IsTrans Task fun first second =>
        order.rowid (.task, first.id) ≤ order.rowid (.task, second.id) := ⟨fun _ _ _ => le_trans⟩
    exact List.pairwise_insertionSort _ _
  refine hle.imp₂ (fun first second hrowid hne => lt_of_le_of_ne hrowid fun hsame => hne ?_)
    (List.pairwise_map.mp (nodup_taskIds order store))
  exact (Prod.mk.inj (order.injective hsame)).2

/-- Tasks that are chosen from the table and sorted are shown in their places. -/
theorem shown_sorted (order : RowOrder) (store : Store) (test : Task → Bool) :
    Shown order.place (store.rows.val.tasks.values.filter test)
      (((order.tasks store).filter test).insertionSort fun left right => compareTasks left right) := by
  refine ⟨(List.perm_insertionSort _ _).trans ((tasks_perm order store).filter test), ?_⟩
  refine (insertionSort_stable ((tasks_inOrder order store).filter test)).imp fun {first second} hstable => ?_
  rcases hstable with hless | ⟨hle, hrowid⟩
  · beta_reduce at hless
    rw [compareTasks_iff, not_le, Task.sortKey, Task.sortKey, Prod.Lex.toLex_lt_toLex,
      Prod.Lex.toLex_lt_toLex] at hless
    rcases hless with hgroup | ⟨hgroup, hrank | ⟨hrank, hcreated⟩⟩
    · exact .inl hgroup
    · exact .inr ⟨hgroup, .inl hrank⟩
    · exact .inr ⟨hgroup, .inr ⟨hrank, Prod.Lex.toLex_lt_toLex.mpr (.inl hcreated)⟩⟩
  · rw [compareTasks_iff, Task.sortKey, Task.sortKey, Prod.Lex.toLex_le_toLex,
      Prod.Lex.toLex_le_toLex] at hle
    rcases hle with hgroup | ⟨hgroup, hrank | ⟨hrank, hcreated⟩⟩
    · exact .inl hgroup
    · exact .inr ⟨hgroup, .inl hrank⟩
    · refine .inr ⟨hgroup, .inr ⟨hrank, Prod.Lex.toLex_lt_toLex.mpr ?_⟩⟩
      exact hcreated.lt_or_eq.imp_right fun heq => ⟨heq, hrowid⟩

variable {texts : Texts}

/-- The list view shows the live tasks of the list. -/
theorem shownTasks_listQuery (hlower : texts.toLowercase "" = "") (listId : Option String) :
    shownTasks texts order store (listQuery listId) =
      ((order.tasks store).filter (Task.isIn listId)).insertionSort fun left right => compareTasks left right := by
  have hmatches : ∀ task, taskMatchesQuery texts task (listQuery listId) = task.isIn listId := by
    intro task
    have htrim : trim "" = "" := by decide
    have hneedle : taskMatchesSearch texts task "" = true := by
      simp [taskMatchesSearch, htrim, hlower]
    unfold taskMatchesQuery Task.isIn listQuery
    cases task.deletedAt <;> by_cases hlist : task.listId = listId <;> simp [TaskView.query, hneedle, hlist]
  have hview : (listQuery listId).view ≠ .myDay := fun h => nomatch h
  unfold shownTasks
  rw [if_neg hview]
  congr 1
  exact List.filter_congr fun task _ => hmatches task

/-- The list as it is shown. -/
def RowOrder.listed (order : RowOrder) (texts : Texts) (store : Store) (listId : Option String) : List String :=
  (shownTasks texts order store (listQuery listId)).map Task.id

theorem siblings_eq {current : Task} :
    order.siblings store current = (((order.tasks store).filter (Task.isIn current.listId)).insertionSort
      fun left right => compareTasks left right).filter fun task => task.status == current.status := by
  refine (shown_sorted order store _).unique ((shown_sorted order store _).filter _) ?_
  rw [List.filter_filter]
  apply List.Perm.of_eq
  apply List.filter_congr
  intro task _
  unfold Task.isIn
  cases task.deletedAt.isNone <;> cases task.status == current.status <;> rfl

end

/-! ### One move -/

/-- The identifiers that an operation draws for the outbox are new. -/
structure Supply.Fresh (supply : Supply) (store : Store) : Prop where
  injective : Function.Injective supply.opId
  unused : ∀ seq, store.outbox.lookup (supply.opId seq) = none

section

variable {supply : Supply} {order : RowOrder} {store : Store}

theorem write_accepted (tx : Tx) (row : Row) (h : tx.tables.Accepts row) :
    ∃ written, tx.write row = .ok written ∧ written.tables = tx.tables.put row ∧
      written.store.outbox = tx.store.outbox := ⟨_, write_ok_of_accepts h, rfl, rfl⟩

theorem appendMutation_fresh {tx : Tx} (key : RowKey) (kind : MutationKind) (patch : Data)
    (h : tx.store.outbox.lookup (supply.opId tx.nextClientSeq) = none) :
    ∃ logged, tx.appendMutation supply key kind patch = .ok logged ∧ logged.tables = tx.tables ∧
      tx.nextClientSeq < logged.nextClientSeq ∧ ∀ opId, opId ≠ supply.opId tx.nextClientSeq →
        logged.store.outbox.lookup opId = tx.store.outbox.lookup opId := by
  refine ⟨tx.withMutation (tx.mutation supply key kind patch), ?_, rfl, ?_, fun opId hne => ?_⟩
  · have hfree : refuseIf (tx.store.outbox.lookup (tx.mutation supply key kind patch).opId).isSome
        StoreError.database = .ok () := by
      rw [refuseIf_eq_ok_iff, Tx.mutation, h]
      exact Bool.noConfusion
    simp only [Tx.appendMutation, hfree]
    rfl
  · have hseq : (tx.withMutation (tx.mutation supply key kind patch)).store.kv.clientSeq = tx.nextClientSeq := rfl
    rw [Tx.nextClientSeq.eq_def (tx.withMutation _), hseq]
    omega
  · rw [Tx.withMutation_outbox]
    exact AList.lookup_insert_ne hne

theorem swapRanks_ok (hfresh : supply.Fresh store) {current other : Task}
    (hcurrent : store.rows.val.tasks.lookup current.id = some current)
    (hother : store.rows.val.tasks.lookup other.id = some other) (hne : current.id ≠ other.id) :
    ∃ tx, swapRanks supply store current other = .ok tx ∧
      Exchanged store.rows.val.tasks tx.store.rows.val.tasks current other supply.now := by
  obtain ⟨first, hfirst, hfirstRows, hfirstOutbox⟩ :=
    write_accepted store.begin (.task (current.ranked other.rank supply.now))
      (fun listId hlistId => store.rows.property.listOf _ _ hcurrent listId hlistId)
  obtain ⟨second, hsecond, hsecondRows, hsecondOutbox⟩ :=
    write_accepted first (.task (other.ranked current.rank supply.now))
      (fun listId hlistId => by
        rw [hfirstRows]
        exact store.rows.property.listOf _ _ hother listId hlistId)
  have hunused : ∀ seq, second.store.outbox.lookup (supply.opId seq) = none := fun seq => by
    rw [hsecondOutbox, hfirstOutbox]
    exact hfresh.unused seq
  obtain ⟨logged, hlogged, hloggedRows, hseq, hkept⟩ :=
    appendMutation_fresh (.task, current.id) .patch [("rank", .str other.rank)] (hunused second.nextClientSeq)
  have hnext : logged.store.outbox.lookup (supply.opId logged.nextClientSeq) = none := by
    rw [hkept _ fun heq => absurd (hfresh.injective heq) hseq.ne', hunused]
  obtain ⟨final, hfinal, hfinalRows, -⟩ :=
    appendMutation_fresh (.task, other.id) .patch [("rank", .str current.rank)] hnext
  have htasks : final.store.rows.val.tasks = (store.rows.val.tasks.insert current.id
      (current.ranked other.rank supply.now)).insert other.id (other.ranked current.rank supply.now) := by
    have hall : final.tables = (store.begin.tables.put (.task (current.ranked other.rank supply.now))).put
        (.task (other.ranked current.rank supply.now)) := by
      rw [hfinalRows, hloggedRows, hsecondRows, hfirstRows]
    exact congrArg Tables.tasks hall
  refine ⟨final, ?_, ?_⟩
  · exact bind_eq_ok_iff.mpr ⟨first, hfirst, bind_eq_ok_iff.mpr ⟨second, hsecond,
      bind_eq_ok_iff.mpr ⟨logged, hlogged, hfinal⟩⟩⟩
  · rw [htasks]
    refine ⟨?_, AList.lookup_insert _, fun id hid hid' => ?_⟩
    · rw [AList.lookup_insert_ne hne, AList.lookup_insert]
    · rw [AList.lookup_insert_ne hid', AList.lookup_insert_ne hid]

/-- The move of a task: it is done, the list is shown as expected and the other lists as before, and the move back shows it as at first. -/
def RowOrder.Moves (order : RowOrder) (texts : Texts) (supply : Supply) (store : Store)
    (listId : Option String) (id direction back : String) (expected : List String) : Prop :=
  ∃ tx, order.reorderTask supply store id direction = .ok tx ∧
    order.listed texts tx.store listId = expected ∧
    (∀ other, other ≠ listId → order.listed texts tx.store other = order.listed texts store other) ∧
    ∀ again : Supply, again.Fresh tx.store → ∃ undone,
      order.reorderTask again tx.store id back = .ok undone ∧
        order.listed texts undone.store listId = order.listed texts store listId

theorem reorderTask_eq {id direction : String} (hid : validateNonEmptyId id = .ok ())
    (hdirection : direction = "up" ∨ direction = "down") {current other : Task}
    (hcurrent : store.liveTask id = some current)
    (hneighbour : neighbour (order.siblings store current) id direction = some other) :
    order.reorderTask supply store id direction = swapRanks supply store current other := by
  have hknown : refuseIf (direction ≠ "up" ∧ direction ≠ "down")
      (StoreError.validation "direction 必须是 up 或 down") = .ok () := by
    rw [refuseIf_eq_ok_iff]
    tauto
  simp only [RowOrder.reorderTask, hid, hknown, hcurrent, orNotFound]
  exact (congrArg (fun found => match found with
    | none => Except.ok store.begin
    | some other => swapRanks supply store current other) hneighbour)

/-- The task next above and the task next below change places. -/
structure RowOrder.Adjacent (order : RowOrder) (store : Store) (upper lower : Task) : Prop where
  upperLive : store.liveTask upper.id = some upper
  lowerLive : store.liveTask lower.id = some lower
  apart : upper.id ≠ lower.id
  up : neighbour (order.siblings store lower) lower.id "up" = some upper
  down : neighbour (order.siblings store upper) upper.id "down" = some lower

theorem lookup_of_liveTask {id : String} {task : Task} (h : store.liveTask id = some task) :
    store.rows.val.tasks.lookup id = some task := (Option.filter_eq_some_iff.mp h).1

section

variable {upper lower : Task}

theorem RowOrder.Adjacent.moveUp (h : order.Adjacent store upper lower) (hfresh : supply.Fresh store)
    (hid : validateNonEmptyId lower.id = .ok ()) : ∃ tx,
      order.reorderTask supply store lower.id "up" = .ok tx ∧
        Exchanged store.rows.val.tasks tx.store.rows.val.tasks upper lower supply.now := by
  obtain ⟨tx, hswap, hexchanged⟩ := swapRanks_ok hfresh (lookup_of_liveTask h.lowerLive)
    (lookup_of_liveTask h.upperLive) h.apart.symm
  exact ⟨tx, (reorderTask_eq hid (.inl rfl) h.lowerLive h.up).trans hswap, hexchanged.symm⟩

theorem RowOrder.Adjacent.moveDown (h : order.Adjacent store upper lower) (hfresh : supply.Fresh store)
    (hid : validateNonEmptyId upper.id = .ok ()) : ∃ tx,
      order.reorderTask supply store upper.id "down" = .ok tx ∧
        Exchanged store.rows.val.tasks tx.store.rows.val.tasks upper lower supply.now := by
  obtain ⟨tx, hswap, hexchanged⟩ := swapRanks_ok hfresh (lookup_of_liveTask h.upperLive)
    (lookup_of_liveTask h.lowerLive) h.apart
  exact ⟨tx, (reorderTask_eq hid (.inr rfl) h.upperLive h.down).trans hswap, hexchanged⟩

variable {texts : Texts} {listId : Option String} {above below : List Task}

theorem shown_list (order : RowOrder) (store : Store) (hlower : texts.toLowercase "" = "")
    (listId : Option String) : Shown order.place (store.rows.val.tasks.values.filter (Task.isIn listId))
      (shownTasks texts order store (listQuery listId)) := by
  rw [shownTasks_listQuery hlower]
  exact shown_sorted order store _

/-- The tasks of a list view are live, each under its own id. -/
theorem live_of_shown (hlower : texts.toLowercase "" = "") {task : Task}
    (h : task ∈ shownTasks texts order store (listQuery listId)) :
    store.liveTask task.id = some task ∧ task.listId = listId := by
  have hmem := List.mem_filter.mp ((shown_list order store hlower listId).perm.subset h)
  have hlive := hmem.2
  simp only [Task.isIn, Bool.and_eq_true, beq_iff_eq] at hlive
  have hkeyed : TasksKeyed store.rows.val.tasks := task_keyed store
  exact ⟨Option.filter_eq_some_iff.mpr ⟨hkeyed.mem_values.mp hmem.1, hlive.1⟩, hlive.2⟩

theorem nodup_shown (hlower : texts.toLowercase "" = "") :
    ((shownTasks texts order store (listQuery listId)).map Task.id).Nodup := by
  have hkeyed : TasksKeyed store.rows.val.tasks := task_keyed store
  refine ((shown_list order store hlower listId).perm.map Task.id).nodup_iff.mpr ?_
  exact (List.filter_sublist.map Task.id).nodup hkeyed.nodup

/-- Two tasks of one status that are shown one after the other are neighbours for the operation. -/
theorem adjacent_of_shown (hlower : texts.toLowercase "" = "")
    (hshown : shownTasks texts order store (listQuery listId) = above ++ upper :: lower :: below)
    (hstatus : upper.status = lower.status) : order.Adjacent store upper lower := by
  have hupperMem : upper ∈ shownTasks texts order store (listQuery listId) := by rw [hshown]; simp
  have hlowerMem : lower ∈ shownTasks texts order store (listQuery listId) := by rw [hshown]; simp
  obtain ⟨hupperLive, hupperList⟩ := live_of_shown hlower hupperMem
  obtain ⟨hlowerLive, hlowerList⟩ := live_of_shown hlower hlowerMem
  have hnodup : ((shownTasks texts order store (listQuery listId)).map Task.id).Nodup := nodup_shown hlower
  rw [hshown] at hnodup
  have hsiblings : ∀ current : Task, current.listId = listId → current.status = upper.status →
      order.siblings store current = above.filter (fun task => task.status == upper.status) ++
        upper :: lower :: below.filter fun task => task.status == upper.status := by
    intro current hlist hcurrent
    rw [siblings_eq, hlist, ← shownTasks_listQuery hlower, hshown, hcurrent]
    simp [List.filter_append, hstatus]
  have hkept : ((above.filter (fun task => task.status == upper.status) ++
      upper :: lower :: below.filter fun task => task.status == upper.status).map Task.id).Nodup := by
    rw [← hsiblings upper hupperList rfl, siblings_eq, hupperList, ← shownTasks_listQuery hlower]
    exact (List.filter_sublist.map Task.id).nodup (nodup_shown hlower)
  have hapart : upper.id ≠ lower.id := by
    rw [List.map_append, List.map_cons, List.map_cons] at hnodup
    intro heq
    have hrest := (List.nodup_append.mp hnodup).2.1
    exact (List.nodup_cons.mp hrest).1 (heq ▸ List.mem_cons_self)
  refine ⟨hupperLive, hlowerLive, hapart, ?_, ?_⟩
  · rw [hsiblings lower hlowerList hstatus.symm]
    exact neighbour_up hkept
  · rw [hsiblings upper hupperList rfl]
    exact neighbour_down hkept

end

end

/-! ### What the list shows afterwards -/

section

variable {texts : Texts} {order : RowOrder} {store after : Store} {listId : Option String}
  {above below : List Task} {upper lower : Task} {now : String}

theorem isIn_ranked (listId : Option String) (task : Task) (rank now : String) :
    (task.ranked rank now).isIn listId = task.isIn listId := rfl

theorem rows_after (hlower : texts.toLowercase "" = "")
    (hshown : shownTasks texts order store (listQuery listId) = above ++ upper :: lower :: below)
    (hexchanged : Exchanged store.rows.val.tasks after.rows.val.tasks upper lower now) :
    (after.rows.val.tasks.values.filter (Task.isIn listId)).Perm
      (above ++ lower.ranked upper.rank now :: upper.ranked lower.rank now :: below) := by
  refine hexchanged.rows_perm (task_keyed store) (isIn_ranked listId) ?_
  rw [← hshown]
  exact (shown_list order store hlower listId).perm

theorem listed_after_iff (hlower : texts.toLowercase "" = "")
    (hshown : shownTasks texts order store (listQuery listId) = above ++ upper :: lower :: below)
    (hexchanged : Exchanged store.rows.val.tasks after.rows.val.tasks upper lower now) :
    order.listed texts after listId = above.map Task.id ++ lower.id :: upper.id :: below.map Task.id ↔
      Place.Interchangeable (above.map order.place) (order.place upper) (order.place lower)
        (below.map order.place) := by
  have hkeyed : TasksKeyed store.rows.val.tasks := task_keyed store
  have hbefore := shown_list order store hlower listId
  rw [hshown] at hbefore
  exact exchange_shown_iff ((List.filter_sublist.map Task.id).nodup hkeyed.nodup) hbefore
    (rows_after hlower hshown hexchanged) rfl rfl rfl rfl (shown_list order after hlower listId)

theorem shown_after (hlower : texts.toLowercase "" = "")
    (hshown : shownTasks texts order store (listQuery listId) = above ++ upper :: lower :: below)
    (hexchanged : Exchanged store.rows.val.tasks after.rows.val.tasks upper lower now)
    (h : Place.Interchangeable (above.map order.place) (order.place upper) (order.place lower)
      (below.map order.place)) :
    shownTasks texts order after (listQuery listId) =
      above ++ lower.ranked upper.rank now :: upper.ranked lower.rank now :: below := by
  have hbefore := shown_list order store hlower listId
  rw [hshown] at hbefore
  exact exchange_shown hbefore (rows_after hlower hshown hexchanged) rfl rfl
    (shown_list order after hlower listId) h

theorem listed_others (hlower : texts.toLowercase "" = "")
    (hshown : shownTasks texts order store (listQuery listId) = above ++ upper :: lower :: below)
    (hexchanged : Exchanged store.rows.val.tasks after.rows.val.tasks upper lower now) {other : Option String}
    (hother : other ≠ listId) : order.listed texts after other = order.listed texts store other := by
  have hupperMem : upper ∈ shownTasks texts order store (listQuery listId) := by rw [hshown]; simp
  have hlowerMem : lower ∈ shownTasks texts order store (listQuery listId) := by rw [hshown]; simp
  obtain ⟨hupperLive, hupperList⟩ := live_of_shown hlower hupperMem
  obtain ⟨hlowerLive, hlowerList⟩ := live_of_shown hlower hlowerMem
  have hout : ∀ task : Task, task.listId = listId → task.isIn other = false := fun task hlist => by
    rw [Task.isIn, hlist, beq_eq_false_iff_ne.mpr hother.symm, Bool.and_false]
  have hperm := hexchanged.others_perm (task_keyed store) (isIn_ranked other) (lookup_of_liveTask hupperLive)
    (lookup_of_liveTask hlowerLive) (hout upper hupperList) (hout lower hlowerList)
  exact congrArg (List.map Task.id)
    ((shown_list order after hlower other).unique (shown_list order store hlower other) hperm)

/-- A second exchange of the two shows the list as at first. -/
theorem listed_back {undone : Store} {later : String} (hlower : texts.toLowercase "" = "")
    (hshown : shownTasks texts order store (listQuery listId) = above ++ upper :: lower :: below)
    (hafter : shownTasks texts order after (listQuery listId) =
      above ++ lower.ranked upper.rank now :: upper.ranked lower.rank now :: below)
    (hexchanged : Exchanged after.rows.val.tasks undone.rows.val.tasks (lower.ranked upper.rank now)
      (upper.ranked lower.rank now) later) :
    order.listed texts undone listId = order.listed texts store listId := by
  have hbefore := shown_list order store hlower listId
  rw [hshown] at hbefore
  have hback : (shownTasks texts order undone (listQuery listId)).map Task.id =
      (above ++ upper :: lower :: below).map Task.id :=
    exchange_back hbefore (rows_after hlower hafter hexchanged) (shown_list order undone hlower listId)
      ⟨rfl, rfl⟩ ⟨rfl, rfl⟩
  rw [RowOrder.listed, RowOrder.listed, hback, hshown]

variable {supply : Supply}

/-- The lower of two neighbours moves up in these cases only. -/
theorem moves_up_iff (hlower : texts.toLowercase "" = "") (hfresh : supply.Fresh store)
    (hshown : shownTasks texts order store (listQuery listId) = above ++ upper :: lower :: below)
    (hstatus : upper.status = lower.status) :
    order.Moves texts supply store listId lower.id "up" "down"
        (above.map Task.id ++ lower.id :: upper.id :: below.map Task.id) ↔
      validateNonEmptyId lower.id = .ok () ∧ Place.Interchangeable (above.map order.place)
        (order.place upper) (order.place lower) (below.map order.place) := by
  have hadjacent := adjacent_of_shown hlower hshown hstatus
  constructor
  · rintro ⟨tx, hmove, hlisted, -⟩
    obtain ⟨_, hid, -⟩ := bind_eq_ok_iff.mp hmove
    obtain ⟨done, hdone, hexchanged⟩ := hadjacent.moveUp hfresh hid
    cases hmove.symm.trans hdone
    exact ⟨hid, (listed_after_iff hlower hshown hexchanged).mp hlisted⟩
  · rintro ⟨hid, hplaces⟩
    obtain ⟨tx, hmove, hexchanged⟩ := hadjacent.moveUp hfresh hid
    have hafter := shown_after hlower hshown hexchanged hplaces
    refine ⟨tx, hmove, (listed_after_iff hlower hshown hexchanged).mpr hplaces,
      fun other hother => listed_others hlower hshown hexchanged hother, fun again hagain => ?_⟩
    obtain ⟨undone, hundone, hback⟩ := (adjacent_of_shown hlower hafter hstatus.symm).moveDown hagain hid
    exact ⟨undone, hundone, listed_back hlower hshown hafter hback⟩

/-- The upper of two neighbours moves down in these cases only. -/
theorem moves_down_iff (hlower : texts.toLowercase "" = "") (hfresh : supply.Fresh store)
    (hshown : shownTasks texts order store (listQuery listId) = above ++ upper :: lower :: below)
    (hstatus : upper.status = lower.status) :
    order.Moves texts supply store listId upper.id "down" "up"
        (above.map Task.id ++ lower.id :: upper.id :: below.map Task.id) ↔
      validateNonEmptyId upper.id = .ok () ∧ Place.Interchangeable (above.map order.place)
        (order.place upper) (order.place lower) (below.map order.place) := by
  have hadjacent := adjacent_of_shown hlower hshown hstatus
  constructor
  · rintro ⟨tx, hmove, hlisted, -⟩
    obtain ⟨_, hid, -⟩ := bind_eq_ok_iff.mp hmove
    obtain ⟨done, hdone, hexchanged⟩ := hadjacent.moveDown hfresh hid
    cases hmove.symm.trans hdone
    exact ⟨hid, (listed_after_iff hlower hshown hexchanged).mp hlisted⟩
  · rintro ⟨hid, hplaces⟩
    obtain ⟨tx, hmove, hexchanged⟩ := hadjacent.moveDown hfresh hid
    have hafter := shown_after hlower hshown hexchanged hplaces
    refine ⟨tx, hmove, (listed_after_iff hlower hshown hexchanged).mpr hplaces,
      fun other hother => listed_others hlower hshown hexchanged hother, fun again hagain => ?_⟩
    obtain ⟨undone, hundone, hback⟩ := (adjacent_of_shown hlower hafter hstatus.symm).moveUp hagain hid
    exact ⟨undone, hundone, listed_back hlower hshown hafter hback⟩

end

end ShishiTodo.Native
