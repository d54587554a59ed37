import ShishiTodo.Native.Explained

/-!
# Tasks and the lists they are in

A task that is not deleted belongs to no list, or to one that is not deleted. Each operation checks the list it is given, and deleting a list lets go of its tasks that are not deleted. A deleted task keeps its list, so restoring it is where the check is missing; and a bundle can bring a deleted list to tasks that the bundle does not know.
-/

namespace ShishiTodo.Native

open Lib

namespace Tables

/-- The list is there and not deleted. -/
def HasLiveList (tables : Tables) (listId : String) : Prop :=
  ∃ list, tables.lists.lookup listId = some list ∧ list.deletedAt = none

/-- Every task that is not deleted is in no list, in one that is not deleted, or among the exempt ones. -/
def ListedBut (tables : Tables) (exempt : List String) : Prop :=
  ∀ id task, tables.tasks.lookup id = some task → task.deletedAt = none →
    id ∈ exempt ∨ ∀ listId ∈ task.listId, tables.HasLiveList listId

def Listed (tables : Tables) : Prop := tables.ListedBut []

/-- The row brings no task into a deleted list. -/
def Lists (tables : Tables) : Row → Prop
  | .list list => list.deletedAt = none
  | .task task => task.deletedAt = none → ∀ listId ∈ task.listId, tables.HasLiveList listId
  | .step _ => True
  | .dayPlan _ => True

variable {tables : Tables}

theorem listed_iff : tables.Listed ↔ ∀ id task, tables.tasks.lookup id = some task →
    task.deletedAt = none → ∀ listId ∈ task.listId, tables.HasLiveList listId := by
  simp [Listed, ListedBut]

theorem HasLiveList.put {listId : String} (h : tables.HasLiveList listId) {row : Row}
    (hrow : ∀ list, row = .list list → list.deletedAt = none) :
    (tables.put row).HasLiveList listId := by
  cases row with
  | list list =>
      by_cases hid : listId = list.id
      · exact ⟨list, by rw [Tables.put, hid, AList.lookup_insert], hrow list rfl⟩
      · obtain ⟨found, hfound, hlive⟩ := h
        exact ⟨found, by rw [Tables.put, AList.lookup_insert_ne hid]; exact hfound, hlive⟩
  | task task => exact h
  | step step => exact h
  | dayPlan plan => exact h

/-- A task is written into a list that is not deleted: it is exempt no longer. -/
theorem ListedBut.putTask {exempt : List String} {task : Task}
    (h : tables.ListedBut (task.id :: exempt)) (htask : tables.Lists (.task task)) :
    (tables.put (.task task)).ListedBut exempt := by
  intro id found hfound hlive
  rw [put, Table.lookup_insert_eq_ite] at hfound
  split at hfound
  · cases hfound
    exact Or.inr (htask hlive)
  · rename_i hne
    refine (h id found hfound hlive).imp_left fun hexempt => ?_
    exact (List.mem_cons.mp hexempt).resolve_left hne

theorem Listed.put (h : tables.Listed) {row : Row} (hrow : tables.Lists row) :
    (tables.put row).Listed := by
  cases row with
  | list list =>
      refine listed_iff.mpr fun id task htask hlive listId hlistId => ?_
      apply HasLiveList.put (listed_iff.mp h id task htask hlive listId hlistId)
      intro written hwritten
      cases hwritten
      exact hrow
  | task task =>
      apply ListedBut.putTask ?_ hrow
      exact fun id found hfound hlive => Or.inr (listed_iff.mp h id found hfound hlive)
  | step step => exact h
  | dayPlan plan => exact h

/-- Without a list, its own tasks are the ones to let go of. -/
theorem Listed.putDeletedList (h : tables.Listed) {list : TaskList} {exempt : List String}
    (hexempt : ∀ id task, tables.tasks.lookup id = some task → task.deletedAt = none →
      task.listId = some list.id → id ∈ exempt) :
    (tables.put (.list list)).ListedBut exempt := by
  intro id task htask hlive
  by_cases hin : task.listId = some list.id
  · exact Or.inl (hexempt id task htask hlive hin)
  · refine Or.inr fun listId hlistId => ?_
    obtain ⟨found, hfound, hfoundLive⟩ := listed_iff.mp h id task htask hlive listId hlistId
    have hne : listId ≠ list.id := fun heq => hin (heq ▸ hlistId)
    exact ⟨found, by rw [Tables.put, AList.lookup_insert_ne hne]; exact hfound, hfoundLive⟩

theorem listed_empty : empty.Listed := fun _ _ h => nomatch h

end Tables

theorem ensureActiveList_ok {store : Store} {listId : String} {done : Unit}
    (h : ensureActiveList store listId = .ok done) : store.rows.val.HasLiveList listId := by
  obtain ⟨_, -, h⟩ := bind_eq_ok_iff.mp h
  obtain ⟨list, hlist, -⟩ := bind_eq_ok_iff.mp h
  obtain ⟨hlookup, hlive⟩ := Option.filter_eq_some_iff.mp (orNotFound_ok hlist)
  exact ⟨list, hlookup, Option.isNone_iff_eq_none.mp hlive⟩

theorem ensureActiveLists_ok {store : Store} {listId : Option String} {done : Option Unit}
    (h : optionally listId (ensureActiveList store) = .ok done) :
    ∀ id ∈ listId, store.rows.val.HasLiveList id := by
  cases listId with
  | none => exact fun _ hid => nomatch hid
  | some given =>
      obtain ⟨_, hgiven, -⟩ := bind_eq_ok_iff.mp h
      intro id hid
      cases hid
      exact ensureActiveList_ok hgiven

namespace Tx

variable {tx after : Tx} {supply : Supply} {row : Row} {kind : MutationKind} {patch : Data}

theorem tables_of_save (h : tx.save supply row kind patch = .ok after) :
    after.tables = tx.tables.put row := by
  obtain ⟨-, hconsistent, rfl⟩ := save_ok h
  rfl

theorem listed_of_save (htx : tx.tables.Listed) (h : tx.save supply row kind patch = .ok after)
    (hrow : tx.tables.Lists row) : after.tables.Listed := by
  rw [tables_of_save h]
  exact htx.put hrow

theorem listed_of_create (htx : tx.tables.Listed) (h : tx.create supply row = .ok after)
    (hrow : tx.tables.Lists row) : after.tables.Listed :=
  listed_of_save htx (create_ok h).2 hrow

end Tx

section operations

variable {texts : Texts} {supply : Supply} {store : Store} {tx : Tx}

theorem createList_listed (hstore : store.rows.val.Listed) {input : NewList} {list : TaskList}
    (h : createList supply store input = .ok (list, tx)) : tx.tables.Listed := by
  obtain ⟨name, -, h⟩ := bind_eq_ok_iff.mp h
  obtain ⟨color, -, h⟩ := bind_eq_ok_iff.mp h
  obtain ⟨icon, -, h⟩ := bind_eq_ok_iff.mp h
  obtain ⟨created, hcreate, h⟩ := bind_eq_ok_iff.mp h
  cases h
  exact Tx.listed_of_create hstore hcreate rfl

theorem liveList_ok {id message : String} {list : TaskList}
    (h : orNotFound (store.liveList id) message = .ok list) : list.deletedAt = none :=
  Option.isNone_iff_eq_none.mp (Option.filter_eq_some_iff.mp (orNotFound_ok h)).2

theorem patchList_listed (hstore : store.rows.val.Listed) {id : String} {patch : ListPatch}
    {list : TaskList} (h : patchList supply store id patch = .ok (list, tx)) : tx.tables.Listed := by
  obtain ⟨_, -, h⟩ := bind_eq_ok_iff.mp h
  obtain ⟨_, -, h⟩ := bind_eq_ok_iff.mp h
  obtain ⟨current, hcurrent, h⟩ := bind_eq_ok_iff.mp h
  obtain ⟨name, -, h⟩ := bind_eq_ok_iff.mp h
  obtain ⟨color, -, h⟩ := bind_eq_ok_iff.mp h
  obtain ⟨icon, -, h⟩ := bind_eq_ok_iff.mp h
  obtain ⟨rank, -, h⟩ := bind_eq_ok_iff.mp h
  obtain ⟨saved, hsave, h⟩ := bind_eq_ok_iff.mp h
  cases h
  have hlive := liveList_ok hcurrent
  exact Tx.listed_of_save hstore hsave hlive

/-- The list is deleted first, and each of its tasks is exempt until its round. -/
theorem deleteList_listed (hstore : store.rows.val.Listed) {id : String}
    (h : deleteList supply store id = .ok tx) : tx.tables.Listed := by
  obtain ⟨_, -, h⟩ := bind_eq_ok_iff.mp h
  split at h
  · cases h
    exact hstore
  · rename_i list hlist
    obtain ⟨deleted, hdelete, h⟩ := bind_eq_ok_iff.mp h
    obtain ⟨hid, -, -⟩ := Store.find_list hlist
    have hlater : deleted.tables.ListedBut ((deleted.tables.tasks.values.filter fun task =>
        task.listId == some id && task.deletedAt.isNone).map Task.id) := by
      have hkeyed := deleted.store.rows.property.keyed
      have htables := Tx.tables_of_save hdelete
      conv_lhs => rw [htables]
      apply hstore.putDeletedList
      intro other task htask hlive hin
      have hdeletedTask : deleted.tables.tasks.lookup other = some task := by
        rw [htables]
        exact htask
      have hkey := hkeyed (.task, other) (.task task) (by
        rw [Tables.find, show deleted.store.rows.val.tasks.lookup other = some task from hdeletedTask]
        rfl)
      refine List.mem_map.mpr ⟨task, List.mem_filter.mpr ⟨?_, ?_⟩, congrArg Prod.snd hkey⟩
      · exact Table.mem_values_iff.mpr ⟨other, hdeletedTask⟩
      · rw [hin, hlive]
        simp [hid]
    apply foldlM_induction (fun rest tx => tx.tables.ListedBut (rest.map Task.id)) ?_ hlater h
    intro task rest before after hbefore hdetach
    rw [Tx.tables_of_save hdetach]
    exact Tables.ListedBut.putTask hbefore fun _ _ hnone => by cases hnone

theorem restoreList_listed (hstore : store.rows.val.Listed) {id : String}
    (h : restoreList supply store id = .ok tx) : tx.tables.Listed := by
  obtain ⟨_, -, h⟩ := bind_eq_ok_iff.mp h
  split at h
  · cases h
    exact hstore
  · exact Tx.listed_of_save hstore h rfl

theorem createTaskRow_listed {before after : Tx} {task : Task} (hbefore : before.tables.Listed)
    (h : createTaskRow supply before task = .ok after) (htask : before.tables.Lists (.task task)) :
    after.tables.Listed := by
  obtain ⟨_, -, h⟩ := bind_eq_ok_iff.mp h
  obtain ⟨_, -, hcreate⟩ := bind_eq_ok_iff.mp h
  exact Tx.listed_of_create hbefore hcreate htask

theorem createTask_listed (hstore : store.rows.val.Listed) {input : NewTask} {task : Task}
    (h : createTask texts supply store input = .ok (task, tx)) : tx.tables.Listed := by
  obtain ⟨prepared, -, h⟩ := bind_eq_ok_iff.mp h
  obtain ⟨_, hlist, h⟩ := bind_eq_ok_iff.mp h
  obtain ⟨created, hcreate, h⟩ := bind_eq_ok_iff.mp h
  obtain ⟨planned, hplan, h⟩ := bind_eq_ok_iff.mp h
  cases h
  have hcreated := createTaskRow_listed hstore hcreate fun _ => ensureActiveLists_ok hlist
  cases hdate : prepared.planDate with
  | none =>
      rw [hdate] at hplan
      cases hplan
      exact hcreated
  | some planDate =>
      rw [hdate] at hplan
      exact Tx.listed_of_create hcreated hplan trivial

/-- A task that is not deleted can be written again in the list it is in. -/
theorem lists_of_liveTask (hstore : store.rows.val.Listed) {id : String} {task : Task}
    (h : store.liveTask id = some task) : ∀ listId ∈ task.listId, store.rows.val.HasLiveList listId := by
  obtain ⟨hlookup, hlive⟩ := Option.filter_eq_some_iff.mp h
  exact Tables.listed_iff.mp hstore id task hlookup (Option.isNone_iff_eq_none.mp hlive)

theorem patchTask_listed (hstore : store.rows.val.Listed) {id : String} {patch : TaskPatch}
    {task : Task} (h : patchTask texts supply store id patch = .ok (task, tx)) : tx.tables.Listed := by
  obtain ⟨_, -, h⟩ := bind_eq_ok_iff.mp h
  obtain ⟨_, -, h⟩ := bind_eq_ok_iff.mp h
  obtain ⟨current, hcurrent, h⟩ := bind_eq_ok_iff.mp h
  obtain ⟨title, -, h⟩ := bind_eq_ok_iff.mp h
  obtain ⟨listId, hlistId, h⟩ := bind_eq_ok_iff.mp h
  obtain ⟨note, -, h⟩ := bind_eq_ok_iff.mp h
  obtain ⟨tags, -, h⟩ := bind_eq_ok_iff.mp h
  obtain ⟨important, -, h⟩ := bind_eq_ok_iff.mp h
  obtain ⟨dueOn, -, h⟩ := bind_eq_ok_iff.mp h
  obtain ⟨remindAt, -, h⟩ := bind_eq_ok_iff.mp h
  obtain ⟨remindTimezone, -, h⟩ := bind_eq_ok_iff.mp h
  obtain ⟨recurrence, -, h⟩ := bind_eq_ok_iff.mp h
  obtain ⟨rank, -, h⟩ := bind_eq_ok_iff.mp h
  obtain ⟨status, -, h⟩ := bind_eq_ok_iff.mp h
  obtain ⟨completedAt, -, h⟩ := bind_eq_ok_iff.mp h
  obtain ⟨saved, hsave, h⟩ := bind_eq_ok_iff.mp h
  cases h
  apply Tx.listed_of_save hstore hsave
  show _ → ∀ id ∈ listId, store.rows.val.HasLiveList id
  intro _
  cases hgiven : patch.listId with
  | none =>
      rw [hgiven] at hlistId
      cases hlistId
      exact lists_of_liveTask hstore (orNotFound_ok hcurrent)
  | some given =>
      rw [hgiven] at hlistId
      cases given with
      | none =>
          cases hlistId
          exact fun _ hid => nomatch hid
      | some given =>
          obtain ⟨kept, hkept, hlistId⟩ := bind_eq_ok_iff.mp hlistId
          cases hlistId
          obtain ⟨_, -, hkept⟩ := bind_eq_ok_iff.mp hkept
          obtain ⟨_, hactive, hkept⟩ := bind_eq_ok_iff.mp hkept
          cases hkept
          intro id hid
          cases hid
          exact ensureActiveList_ok hactive

theorem commitCompletion_listed (hstore : store.rows.val.Listed) {taskId completedAt : String}
    {nextTask : Option Task} {done : Task × Option Task}
    (h : commitCompletion texts supply store taskId completedAt nextTask = .ok (done, tx)) :
    tx.tables.Listed := by
  obtain ⟨_, -, h⟩ := bind_eq_ok_iff.mp h
  obtain ⟨instant, -, h⟩ := bind_eq_ok_iff.mp h
  obtain ⟨_, -, h⟩ := bind_eq_ok_iff.mp h
  obtain ⟨current, hcurrent, h⟩ := bind_eq_ok_iff.mp h
  obtain ⟨_, hlist, h⟩ := bind_eq_ok_iff.mp h
  obtain ⟨saved, hsave, h⟩ := bind_eq_ok_iff.mp h
  obtain ⟨created, hnext, h⟩ := bind_eq_ok_iff.mp h
  cases h
  have hlists := lists_of_liveTask hstore (orNotFound_ok hcurrent)
  have hsaved := Tx.listed_of_save hstore hsave fun _ => hlists
  cases nextTask with
  | none =>
      cases hnext
      exact hsaved
  | some next =>
      apply createTaskRow_listed hsaved hnext
      rw [Tx.tables_of_save hsave]
      exact fun _ listId hlistId => ensureActiveLists_ok hlist listId hlistId

theorem deleteTask_listed (hstore : store.rows.val.Listed) {id : String}
    (h : deleteTask supply store id = .ok tx) : tx.tables.Listed := by
  obtain ⟨_, -, h⟩ := bind_eq_ok_iff.mp h
  split at h
  · cases h
    exact hstore
  · exact Tx.listed_of_save hstore h fun hlive => nomatch hlive

/-- The one operation that does not look at the list of the task it writes. -/
theorem restoreTask_listed (hstore : store.rows.val.Listed) {id : String}
    (h : restoreTask supply store id = .ok tx)
    (hlists : ∀ task ∈ store.rows.val.tasks.lookup id, ∀ listId ∈ task.listId,
      store.rows.val.HasLiveList listId) : tx.tables.Listed := by
  obtain ⟨_, -, h⟩ := bind_eq_ok_iff.mp h
  split at h
  · cases h
    exact hstore
  · rename_i task htask
    apply Tx.listed_of_save hstore h
    exact fun _ => hlists task (Option.filter_eq_some_iff.mp htask).1

theorem reorderTask_listed (hstore : store.rows.val.Listed) {id direction : String}
    (h : reorderTask supply store id direction = .ok tx) : tx.tables.Listed := by
  obtain ⟨_, -, h⟩ := bind_eq_ok_iff.mp h
  obtain ⟨_, -, h⟩ := bind_eq_ok_iff.mp h
  obtain ⟨current, hcurrent, h⟩ := bind_eq_ok_iff.mp h
  split at h
  · cases h
    exact hstore
  · rename_i other htarget
    have hother := (List.mem_filter.mp ((List.mem_insertionSort _).mp (reorderTarget_ok htarget).1))
    obtain ⟨first, hfirst, h⟩ := bind_eq_ok_iff.mp h
    obtain ⟨second, hsecond, h⟩ := bind_eq_ok_iff.mp h
    obtain ⟨logged, hlogged, h⟩ := bind_eq_ok_iff.mp h
    obtain ⟨_, rfl⟩ := Tx.statement_ok hfirst
    obtain ⟨_, rfl⟩ := Tx.statement_ok hsecond
    obtain ⟨-, rfl⟩ := Tx.appendMutation_ok hlogged
    obtain ⟨-, rfl⟩ := Tx.appendMutation_ok h
    obtain ⟨otherId, hlookup⟩ := Table.mem_values_iff.mp hother.1
    have hotherLive : other.deletedAt = none := by
      simpa using (Bool.and_eq_true_iff.mp (Bool.and_eq_true_iff.mp hother.2).1).1
    have hlists := lists_of_liveTask hstore (orNotFound_ok hcurrent)
    have hotherLists := Tables.listed_iff.mp hstore otherId other hlookup hotherLive
    show ((store.rows.val.put (.task { current with
      rank := other.rank, updatedAt := supply.now })).put (.task { other with
        rank := current.rank, updatedAt := supply.now })).Listed
    apply Tables.Listed.put
    · exact hstore.put fun _ => hlists
    · exact fun _ => hotherLists

theorem addToDay_listed (hstore : store.rows.val.Listed) {taskId date : String}
    (h : addToDay texts supply store taskId date = .ok tx) : tx.tables.Listed := by
  obtain ⟨_, -, h⟩ := bind_eq_ok_iff.mp h
  obtain ⟨_, -, h⟩ := bind_eq_ok_iff.mp h
  obtain ⟨_, -, h⟩ := bind_eq_ok_iff.mp h
  split at h
  · exact Tx.listed_of_create hstore h trivial
  · split at h
    · exact Tx.listed_of_save hstore h trivial
    · cases h
      exact hstore

theorem removeFromDay_listed (hstore : store.rows.val.Listed) {taskId date : String}
    (h : removeFromDay texts supply store taskId date = .ok tx) : tx.tables.Listed := by
  obtain ⟨_, -, h⟩ := bind_eq_ok_iff.mp h
  obtain ⟨_, -, h⟩ := bind_eq_ok_iff.mp h
  split at h
  · cases h
    exact hstore
  · exact Tx.listed_of_save hstore h trivial

theorem createStep_listed (hstore : store.rows.val.Listed) {taskId title : String} {step : Step}
    (h : createStep supply store taskId title = .ok (step, tx)) : tx.tables.Listed := by
  obtain ⟨_, -, h⟩ := bind_eq_ok_iff.mp h
  obtain ⟨_, -, h⟩ := bind_eq_ok_iff.mp h
  obtain ⟨_, -, h⟩ := bind_eq_ok_iff.mp h
  obtain ⟨created, hcreate, h⟩ := bind_eq_ok_iff.mp h
  cases h
  exact Tx.listed_of_create hstore hcreate trivial

theorem patchStep_listed (hstore : store.rows.val.Listed) {id : String} {patch : StepPatch}
    {step : Step} (h : patchStep supply store id patch = .ok (step, tx)) : tx.tables.Listed := by
  obtain ⟨_, -, h⟩ := bind_eq_ok_iff.mp h
  obtain ⟨_, -, h⟩ := bind_eq_ok_iff.mp h
  obtain ⟨current, -, h⟩ := bind_eq_ok_iff.mp h
  obtain ⟨title, -, h⟩ := bind_eq_ok_iff.mp h
  obtain ⟨isCompleted, -, h⟩ := bind_eq_ok_iff.mp h
  obtain ⟨rank, -, h⟩ := bind_eq_ok_iff.mp h
  obtain ⟨saved, hsave, h⟩ := bind_eq_ok_iff.mp h
  cases h
  exact Tx.listed_of_save hstore hsave trivial

theorem deleteStep_listed (hstore : store.rows.val.Listed) {id : String}
    (h : deleteStep supply store id = .ok tx) : tx.tables.Listed := by
  obtain ⟨_, -, h⟩ := bind_eq_ok_iff.mp h
  split at h
  · cases h
    exact hstore
  · exact Tx.listed_of_save hstore h trivial

end operations

/-! ### Import of an export -/

theorem lists_export {store : Store} {task : Task} (hstore : store.rows.val.Listed)
    (htask : task ∈ (exportData store).tasks) (hlive : task.deletedAt = none) :
    ∀ listId ∈ task.listId, ∃ list ∈ (exportData store).lists, list.id = listId ∧
      list.deletedAt = none := by
  intro listId hlistId
  obtain ⟨id, hlookup⟩ := Table.mem_values_iff.mp ((List.mem_insertionSort _).mp htask)
  obtain ⟨list, hlist, hlistLive⟩ := Tables.listed_iff.mp hstore id task hlookup hlive listId hlistId
  have hkey := store.rows.property.keyed (.list, listId) (.list list) (by
    rw [Tables.find, hlist]
    rfl)
  refine ⟨list, ?_, congrArg Prod.snd hkey, hlistLive⟩
  exact (List.mem_insertionSort _).mpr (Table.mem_values_iff.mpr ⟨listId, hlist⟩)

/-- After the lists of a bundle, its own lists stand as the bundle has them, and the others as before. -/
theorem importLists_lookup {supply : Supply} {lists : List TaskList} {tx after : Tx}
    (hunique : (lists.map TaskList.id).Nodup)
    (h : lists.foldlM (fun tx list => importRow supply tx (.list list)) tx = .ok after) :
    after.tables.tasks = tx.tables.tasks ∧
      (∀ list ∈ lists, after.tables.lists.lookup list.id = some list) ∧
      ∀ id, id ∉ lists.map TaskList.id →
        after.tables.lists.lookup id = tx.tables.lists.lookup id := by
  induction lists generalizing tx with
  | nil =>
      cases h
      exact ⟨rfl, fun _ hmem => (List.not_mem_nil hmem).elim, fun _ _ => rfl⟩
  | cons list rest ih =>
      rw [List.foldlM_cons] at h
      obtain ⟨next, hnext, hrest⟩ := bind_eq_ok_iff.mp h
      rw [List.map_cons, List.nodup_cons] at hunique
      obtain ⟨htasks, hown, hother⟩ := ih hunique.2 hrest
      have htables := Tx.tables_of_save hnext
      refine ⟨?_, ?_, fun id hid => ?_⟩
      · rw [htasks, htables]
        rfl
      · intro written hwritten
        rcases List.mem_cons.mp hwritten with rfl | hmem
        · rw [hother _ hunique.1, htables, Tables.put, AList.lookup_insert]
        · exact hown written hmem
      · rw [List.map_cons, List.mem_cons, not_or] at hid
        rw [hother id hid.2, htables, Tables.put, AList.lookup_insert_ne hid.1]

/-- A loop over rows that have no say in the matter. -/
theorem importRows_listed {α : Type} {supply : Supply} (rowOf : α → Row)
    (hrow : ∀ tables item, Tables.Lists tables (rowOf item)) {items : List α} {tx after : Tx}
    (htx : tx.tables.Listed)
    (h : items.foldlM (fun tx item => importRow supply tx (rowOf item)) tx = .ok after) :
    after.tables.Listed := by
  apply foldlM_induction (fun _ tx => tx.tables.Listed) ?_ htx h
  intro item rest before next hbefore hnext
  exact Tx.listed_of_save hbefore hnext (hrow _ item)

theorem importTasks_listed {texts : Texts} {supply : Supply} {tasks : List Task} {tx after : Tx}
    (htx : tx.tables.ListedBut (tasks.map Task.id))
    (hlists : ∀ task ∈ tasks, tx.tables.Lists (.task task))
    (h : tasks.foldlM (importTask texts supply) tx = .ok after) : after.tables.Listed := by
  have hstart : tx.tables.ListedBut (tasks.map Task.id) ∧
      ∀ task ∈ tasks, tx.tables.Lists (.task task) := ⟨htx, hlists⟩
  refine (foldlM_induction (fun rest tx => tx.tables.ListedBut (rest.map Task.id) ∧
    ∀ task ∈ rest, tx.tables.Lists (.task task)) ?_ hstart h).1
  rintro task rest before next ⟨hbefore, hlists⟩ hnext
  obtain ⟨tags, -, himport⟩ := bind_eq_ok_iff.mp hnext
  rw [Tx.tables_of_save himport]
  refine ⟨Tables.ListedBut.putTask hbefore ?_, fun other hother => ?_⟩
  · exact hlists task List.mem_cons_self
  · exact hlists other (List.mem_cons_of_mem task hother)

/-- A deleted list of the bundle finds no task in the store that the bundle leaves in it. -/
def MergeKeepsListed (store : Store) (bundle : ExportBundle) : Prop :=
  ∀ list ∈ bundle.lists, list.deletedAt.isSome → ∀ task ∈ store.rows.val.tasks.values,
    task.deletedAt = none → task.listId = some list.id → task.id ∈ bundle.tasks.map Task.id

theorem importExport_listed {texts : Texts} {supply : Supply} {store source : Store}
    {mode : ImportMode} {tx : Tx} (hstore : store.rows.val.Listed)
    (hsource : source.rows.val.Listed)
    (hmerge : mode = .merge → MergeKeepsListed store (exportData source))
    (h : importData texts supply store (exportData source) mode = .ok tx) : tx.tables.Listed := by
  obtain ⟨_, -, h⟩ := bind_eq_ok_iff.mp h
  obtain ⟨_, -, h⟩ := bind_eq_ok_iff.mp h
  obtain ⟨_, -, h⟩ := bind_eq_ok_iff.mp h
  obtain ⟨_, hunique, h⟩ := bind_eq_ok_iff.mp h
  obtain ⟨_, hlistIds, -⟩ := bind_eq_ok_iff.mp hunique
  obtain ⟨lists, hlists, h⟩ := bind_eq_ok_iff.mp h
  obtain ⟨tasks, htasks, h⟩ := bind_eq_ok_iff.mp h
  obtain ⟨steps, hsteps, hplans⟩ := bind_eq_ok_iff.mp h
  rw [List.foldlM_map] at hlists hsteps hplans
  obtain ⟨hsameTasks, hown, hother⟩ := importLists_lookup (nodup_of_checkUnique hlistIds).1 hlists
  have hstart : (importStart store mode).rows.val.Listed := by
    cases mode with
    | merge => exact hstore
    | replace => exact Tables.listed_empty
  -- A task of the store is in a list that the bundle leaves alone or brings alive, or comes with it.
  have hbut : lists.tables.ListedBut ((exportData source).tasks.map Task.id) := by
    intro id task htask hlive
    rw [hsameTasks] at htask
    by_cases hexempt : id ∈ (exportData source).tasks.map Task.id
    · exact Or.inl hexempt
    refine Or.inr fun listId hlistId => ?_
    obtain ⟨found, hfound, hfoundLive⟩ :=
      Tables.listed_iff.mp hstart id task htask hlive listId hlistId
    by_cases hbundle : listId ∈ (exportData source).lists.map TaskList.id
    · obtain ⟨list, hlist, rfl⟩ := List.mem_map.mp hbundle
      refine ⟨list, hown list hlist, ?_⟩
      by_contra hdeleted
      cases mode with
      | replace => cases htask
      | merge =>
          have hkey := store.rows.property.keyed (.task, id) (.task task) (by
            rw [Tables.find, show store.rows.val.tasks.lookup id = some task from htask]
            rfl)
          have hid : task.id = id := congrArg Prod.snd hkey
          apply hexempt
          rw [← hid]
          exact hmerge rfl list hlist (Option.isSome_iff_ne_none.mpr hdeleted) task
            (Table.mem_values_iff.mpr ⟨id, htask⟩) hlive hlistId
    · exact ⟨found, (hother listId hbundle).trans hfound, hfoundLive⟩
  have hbundleTasks : ∀ task ∈ (exportData source).tasks, lists.tables.Lists (.task task) := by
    intro task htask hlive listId hlistId
    obtain ⟨list, hlist, rfl, hlistLive⟩ := lists_export hsource htask hlive listId hlistId
    exact ⟨list, hown list hlist, hlistLive⟩
  have hafterTasks := importTasks_listed hbut hbundleTasks htasks
  have hafterSteps := importRows_listed Row.step (fun _ _ => trivial) hafterTasks hsteps
  exact importRows_listed Row.dayPlan (fun _ _ => trivial) hafterSteps hplans

/-! ### Stores in reach -/

/-- The stores that local operations lead to from an empty one, where every step meets the condition. A bundle comes from such a store. -/
inductive Reached (texts : Texts) (condition : Store → Request → Prop) : Store → Prop
  | opened (deviceId : String) : Reached texts condition (.open deviceId)
  | performed {store : Store} (request : Request) : Reached texts condition store →
      (∀ bundle mode, request.op ≠ .importData bundle mode) → condition store request →
      Reached texts condition ((localRuns texts).step store request)
  | imported {store source : Store} (mode : ImportMode) (supply : Supply) :
      Reached texts condition store → Reached texts condition source →
      condition store ⟨.importData (exportData source) mode, supply⟩ →
      Reached texts condition
        ((localRuns texts).step store ⟨.importData (exportData source) mode, supply⟩)

/-- A task is not restored into a deleted list, and a bundle that is merged brings no deleted list to tasks of others. -/
def KeepsListed (store : Store) (request : Request) : Prop :=
  match request.op with
  | .restoreTask id => ∀ task ∈ store.rows.val.tasks.lookup id, ∀ listId ∈ task.listId,
      store.rows.val.HasLiveList listId
  | .importData bundle .merge => MergeKeepsListed store bundle
  | _ => True

instance (tables : Tables) (listId : String) : Decidable (tables.HasLiveList listId) :=
  decidable_of_iff ((tables.lists.lookup listId).any fun list => list.deletedAt.isNone) (by
    simp [Tables.HasLiveList, Option.any_eq_true])

instance (store : Store) (bundle : ExportBundle) : Decidable (MergeKeepsListed store bundle) :=
  inferInstanceAs (Decidable (∀ list ∈ bundle.lists, _))

instance (store : Store) : (request : Request) → Decidable (KeepsListed store request)
  | ⟨.restoreTask id, _⟩ => inferInstanceAs (Decidable (∀ task ∈ store.rows.val.tasks.lookup id, _))
  | ⟨.importData bundle .merge, _⟩ => inferInstanceAs (Decidable (MergeKeepsListed store bundle))
  | ⟨.importData _ .replace, _⟩ | ⟨.createList _, _⟩ | ⟨.patchList _ _, _⟩ | ⟨.deleteList _, _⟩
  | ⟨.restoreList _, _⟩ | ⟨.createTask _, _⟩ | ⟨.patchTask _ _, _⟩ | ⟨.commitCompletion _ _ _, _⟩
  | ⟨.deleteTask _, _⟩ | ⟨.reorderTask _ _, _⟩ | ⟨.addToDay _ _, _⟩ | ⟨.removeFromDay _ _, _⟩
  | ⟨.createStep _ _, _⟩ | ⟨.patchStep _ _, _⟩ | ⟨.deleteStep _, _⟩ => instDecidableTrue

theorem Request.listed {texts : Texts} {request : Request} {store : Store} {tx : Tx}
    (hstore : store.rows.val.Listed) (hkeeps : KeepsListed store request)
    (hbundle : ∀ bundle mode, request.op = .importData bundle mode →
      ∃ source : Store, source.rows.val.Listed ∧ bundle = exportData source)
    (h : request.perform texts store = .ok tx) : tx.tables.Listed := by
  obtain ⟨op, supply⟩ := request
  cases op with
  | createList input =>
      change (Native.createList supply store input).map Prod.snd = .ok tx at h
      obtain ⟨done, hdone, rfl⟩ := map_eq_ok_iff.mp h
      exact createList_listed hstore hdone
  | patchList id patch =>
      change (Native.patchList supply store id patch).map Prod.snd = .ok tx at h
      obtain ⟨done, hdone, rfl⟩ := map_eq_ok_iff.mp h
      exact patchList_listed hstore hdone
  | deleteList id => exact deleteList_listed hstore h
  | restoreList id => exact restoreList_listed hstore h
  | createTask input =>
      change (Native.createTask texts supply store input).map Prod.snd = .ok tx at h
      obtain ⟨done, hdone, rfl⟩ := map_eq_ok_iff.mp h
      exact createTask_listed hstore hdone
  | patchTask id patch =>
      change (Native.patchTask texts supply store id patch).map Prod.snd = .ok tx at h
      obtain ⟨done, hdone, rfl⟩ := map_eq_ok_iff.mp h
      exact patchTask_listed hstore hdone
  | commitCompletion taskId completedAt nextTask =>
      change (Native.commitCompletion texts supply store taskId completedAt nextTask).map Prod.snd =
        .ok tx at h
      obtain ⟨done, hdone, rfl⟩ := map_eq_ok_iff.mp h
      exact commitCompletion_listed hstore hdone
  | deleteTask id => exact deleteTask_listed hstore h
  | restoreTask id => exact restoreTask_listed hstore h hkeeps
  | reorderTask id direction => exact reorderTask_listed hstore h
  | addToDay taskId date => exact addToDay_listed hstore h
  | removeFromDay taskId date => exact removeFromDay_listed hstore h
  | createStep taskId title =>
      change (Native.createStep supply store taskId title).map Prod.snd = .ok tx at h
      obtain ⟨done, hdone, rfl⟩ := map_eq_ok_iff.mp h
      exact createStep_listed hstore hdone
  | patchStep id patch =>
      change (Native.patchStep supply store id patch).map Prod.snd = .ok tx at h
      obtain ⟨done, hdone, rfl⟩ := map_eq_ok_iff.mp h
      exact patchStep_listed hstore hdone
  | deleteStep id => exact deleteStep_listed hstore h
  | importData bundle mode =>
      obtain ⟨source, hsource, rfl⟩ := hbundle bundle mode rfl
      refine importExport_listed hstore hsource ?_ h
      intro hmode
      subst hmode
      exact hkeeps

theorem listed_step {texts : Texts} {request : Request} {store : Store}
    (hstore : store.rows.val.Listed) (hkeeps : KeepsListed store request)
    (hbundle : ∀ bundle mode, request.op = .importData bundle mode →
      ∃ source : Store, source.rows.val.Listed ∧ bundle = exportData source) :
    ((localRuns texts).step store request).rows.val.Listed := by
  cases h : request.perform texts store with
  | error error => simpa [localRuns, h] using hstore
  | ok tx => simpa [localRuns, h] using Request.listed hstore hkeeps hbundle h

/-- In a store in reach, a task that is not deleted is in no list, or in one that is there and not deleted. -/
theorem tasks_in_live_lists {texts : Texts} {store : Store} (h : Reached texts KeepsListed store) :
    ∀ id task, store.rows.val.tasks.lookup id = some task → task.deletedAt = none →
      ∀ listId, task.listId = some listId →
        ∃ list, store.rows.val.lists.lookup listId = some list ∧ list.deletedAt = none := by
  have hlisted : store.rows.val.Listed := by
    induction h with
    | opened deviceId => exact Tables.listed_empty
    | performed request _ hop hkeeps hstore =>
        apply listed_step hstore hkeeps
        exact fun bundle mode heq => (hop bundle mode heq).elim
    | imported mode supply _ _ hkeeps hstore hsource =>
        apply listed_step hstore hkeeps
        intro bundle mode heq
        cases heq
        exact ⟨_, hsource, rfl⟩
  exact Tables.listed_iff.mp hlisted

/-- Local operations other than imports, one after another. -/
theorem Reached.run {texts : Texts} {condition : Store → Request → Prop} :
    ∀ {requests : List Request} {store : Store}, Reached texts condition store →
      (∀ request ∈ requests, ∀ bundle mode, request.op ≠ .importData bundle mode) →
      (localRuns texts).Along condition store requests →
      Reached texts condition ((localRuns texts).run store requests)
  | [], _, h, _, _ => h
  | request :: _, _, h, hop, halong =>
      (h.performed request (hop request List.mem_cons_self) halong.1).run
        (fun later hlater => hop later (List.mem_cons_of_mem request hlater)) halong.2

/-- A list, a task in it, and the deletion of the task. -/
def deletedTaskRequests : List Request :=
  let supply (n : String) : Supply := {
    now := "2026-10-21T05:00:00.000Z"
    id := n
    planId := n ++ "-plan"
    opId := fun seq => n ++ "-" ++ toString seq }
  [⟨.createList ⟨"Work", none, none⟩, supply "list"⟩,
    ⟨.createTask ⟨"Buy milk", some "list", none, [], none, none, none, none, none, none, none⟩,
      supply "task"⟩,
    ⟨.deleteTask "task", supply "deleted"⟩]

def restoreSample (now : String) : Request :=
  ⟨.restoreTask "task", ⟨now, "restored", "plan", fun seq => "restored-" ++ toString seq⟩⟩

def restoredStore : Store :=
  (localRuns .utc).run (.open "device") (deletedTaskRequests ++ [restoreSample "later"])

theorem tasks_in_live_lists_restored :
    (∀ id task, restoredStore.rows.val.tasks.lookup id = some task → task.deletedAt = none →
      ∀ listId, task.listId = some listId →
        ∃ list, restoredStore.rows.val.lists.lookup listId = some list ∧ list.deletedAt = none) ∧
    (restoredStore.liveTask "task").bind Task.listId = some "list" :=
  ⟨tasks_in_live_lists ((Reached.opened "device").run
    (by simp [deletedTaskRequests, restoreSample]) (by decide)), by decide⟩

/-- The list is deleted between the deletion of its task and the restoration. -/
def strandedStore : Store :=
  (localRuns .utc).run (.open "device") (deletedTaskRequests ++
    [⟨.deleteList "list", ⟨"later", "gone", "plan", fun seq => "gone-" ++ toString seq⟩⟩,
      restoreSample "last"])

theorem restored_into_deleted_list :
    ¬ ∀ (texts : Texts) (store : Store), Reached texts (fun _ _ => True) store →
      ∀ id task, store.rows.val.tasks.lookup id = some task → task.deletedAt = none →
        ∀ listId, task.listId = some listId →
          ∃ list, store.rows.val.lists.lookup listId = some list ∧ list.deletedAt = none := by
  intro h
  have hreached : Reached .utc (fun _ _ => True) strandedStore :=
    (Reached.opened "device").run (by simp [deletedTaskRequests, restoreSample]) (by decide)
  have htask : strandedStore.liveTask "task" = some ⟨"task", some "list", "Buy milk", "", [], .open,
      false, none, none, none, "000001", none, none, none, none, "2026-10-21T05:00:00.000Z", "last",
      none⟩ := by
    decide
  obtain ⟨hlookup, -⟩ := Option.filter_eq_some_iff.mp htask
  obtain ⟨list, hlist, hlive⟩ := h .utc strandedStore hreached "task" _ hlookup rfl "list" rfl
  have hdeleted : (strandedStore.liveList "list").isNone = true := by decide
  rw [Store.liveList, hlist, Option.filter_some, hlive] at hdeleted
  cases hdeleted

end ShishiTodo.Native
