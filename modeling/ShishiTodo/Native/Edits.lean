import ShishiTodo.Native.Runs

/-!
# What an edit is made of

Every request of the application is a transaction of the same two statements: it writes rows and it appends mutations. What survives both of them survives every request, whatever its checks; only an import that replaces everything starts from another store.
-/

namespace ShishiTodo.Native

open Lib

/-- What survives the statements that an edit is made of. -/
structure KeptByStatements (holds : Tx → Prop) : Prop where
  write : ∀ {tx after : Tx} {row : Row}, holds tx → tx.write row = .ok after → holds after
  append : ∀ {tx after : Tx} {supply : Supply} {key : RowKey} {kind : MutationKind} {patch : Data},
    holds tx → tx.appendMutation supply key kind patch = .ok after → holds after

/-- The store that the statements of a request find. -/
def LocalOp.start (store : Store) : LocalOp → Store
  | .importData _ mode => importStart store mode
  | _ => store

namespace KeptByStatements

variable {holds : Tx → Prop} {texts : Texts} {supply : Supply} {store : Store} {tx after : Tx}

theorem save (kept : KeptByStatements holds) {row : Row} {kind : MutationKind} {patch : Data}
    (htx : holds tx) (h : tx.save supply row kind patch = .ok after) : holds after := by
  obtain ⟨written, hwrite, happend⟩ := bind_eq_ok_iff.mp h
  exact kept.append (kept.write htx hwrite) happend

theorem create (kept : KeptByStatements holds) {row : Row} (htx : holds tx)
    (h : tx.create supply row = .ok after) : holds after :=
  kept.save htx (Tx.create_ok h).2

/-- What each round of a loop keeps, the loop keeps. -/
theorem foldlM {α : Type} {step : Tx → α → StoreResult Tx}
    (hstep : ∀ item tx after, holds tx → step tx item = .ok after → holds after) {items : List α}
    (htx : holds tx) (h : items.foldlM step tx = .ok after) : holds after :=
  foldlM_induction (fun _ tx => holds tx) (fun item _ tx after hbefore hnext =>
    hstep item tx after hbefore hnext) htx h

section

variable (kept : KeptByStatements holds) (hbegin : holds store.begin)
include kept hbegin

theorem createList {input : NewList} {list : TaskList}
    (h : Native.createList supply store input = .ok (list, tx)) : holds tx := by
  obtain ⟨name, -, h⟩ := bind_eq_ok_iff.mp h
  obtain ⟨color, -, h⟩ := bind_eq_ok_iff.mp h
  obtain ⟨icon, -, h⟩ := bind_eq_ok_iff.mp h
  obtain ⟨created, hcreate, h⟩ := bind_eq_ok_iff.mp h
  cases h
  exact kept.create hbegin hcreate

theorem patchList {id : String} {patch : ListPatch} {list : TaskList}
    (h : Native.patchList supply store id patch = .ok (list, tx)) : holds tx := by
  obtain ⟨_, -, h⟩ := bind_eq_ok_iff.mp h
  obtain ⟨_, -, h⟩ := bind_eq_ok_iff.mp h
  obtain ⟨current, -, h⟩ := bind_eq_ok_iff.mp h
  obtain ⟨name, -, h⟩ := bind_eq_ok_iff.mp h
  obtain ⟨color, -, h⟩ := bind_eq_ok_iff.mp h
  obtain ⟨icon, -, h⟩ := bind_eq_ok_iff.mp h
  obtain ⟨rank, -, h⟩ := bind_eq_ok_iff.mp h
  obtain ⟨saved, hsave, h⟩ := bind_eq_ok_iff.mp h
  cases h
  exact kept.save hbegin hsave

theorem deleteList {id : String} (h : Native.deleteList supply store id = .ok tx) : holds tx := by
  obtain ⟨_, -, h⟩ := bind_eq_ok_iff.mp h
  split at h
  · cases h
    exact hbegin
  · obtain ⟨deleted, hdelete, h⟩ := bind_eq_ok_iff.mp h
    exact foldlM (fun task tx after htx hdetach => kept.save htx hdetach) (kept.save hbegin hdelete) h

theorem restoreList {id : String} (h : Native.restoreList supply store id = .ok tx) : holds tx := by
  obtain ⟨_, -, h⟩ := bind_eq_ok_iff.mp h
  split at h
  · cases h
    exact hbegin
  · exact kept.save hbegin h

omit hbegin in
theorem createTaskRow {task : Task} (htx : holds tx)
    (h : Native.createTaskRow supply tx task = .ok after) : holds after := by
  obtain ⟨_, -, h⟩ := bind_eq_ok_iff.mp h
  obtain ⟨_, -, hcreate⟩ := bind_eq_ok_iff.mp h
  exact kept.create htx hcreate

theorem createTask {input : NewTask} {task : Task}
    (h : Native.createTask texts supply store input = .ok (task, tx)) : holds tx := by
  obtain ⟨prepared, -, h⟩ := bind_eq_ok_iff.mp h
  obtain ⟨_, -, h⟩ := bind_eq_ok_iff.mp h
  obtain ⟨created, hcreate, h⟩ := bind_eq_ok_iff.mp h
  obtain ⟨planned, hplan, h⟩ := bind_eq_ok_iff.mp h
  cases h
  have hcreated := kept.createTaskRow hbegin hcreate
  cases hdate : prepared.planDate with
  | none =>
      rw [hdate] at hplan
      cases hplan
      exact hcreated
  | some planDate =>
      rw [hdate] at hplan
      exact kept.create hcreated hplan

theorem patchTask {id : String} {patch : TaskPatch} {task : Task}
    (h : Native.patchTask texts supply store id patch = .ok (task, tx)) : holds tx := by
  obtain ⟨_, -, h⟩ := bind_eq_ok_iff.mp h
  obtain ⟨_, -, h⟩ := bind_eq_ok_iff.mp h
  obtain ⟨current, -, h⟩ := bind_eq_ok_iff.mp h
  obtain ⟨title, -, h⟩ := bind_eq_ok_iff.mp h
  obtain ⟨listId, -, h⟩ := bind_eq_ok_iff.mp h
  obtain ⟨note, -, h⟩ := bind_eq_ok_iff.mp h
  obtain ⟨tags, -, h⟩ := bind_eq_ok_iff.mp h
  obtain ⟨important, -, h⟩ := bind_eq_ok_iff.mp h
  obtain ⟨dueOn, -, h⟩ := bind_eq_ok_iff.mp h
  obtain ⟨remindAt, -, h⟩ := bind_eq_ok_iff.mp h
  obtain ⟨remindTimezone, -, h⟩ := bind_eq_ok_iff.mp h
  obtain ⟨recurrence, -, h⟩ := bind_eq_ok_iff.mp h
  obtain ⟨rank, -, h⟩ := bind_eq_ok_iff.mp h
  obtain ⟨status, -, h⟩ := bind_eq_ok_iff.mp h
  obtain ⟨completedAt, -, h⟩ := bind_eq_ok_iff.mp h
  obtain ⟨saved, hsave, h⟩ := bind_eq_ok_iff.mp h
  cases h
  exact kept.save hbegin hsave

theorem commitCompletion {taskId completedAt : String} {nextTask : Option Task}
    {done : Task × Option Task}
    (h : Native.commitCompletion texts supply store taskId completedAt nextTask = .ok (done, tx)) :
    holds tx := by
  obtain ⟨_, -, h⟩ := bind_eq_ok_iff.mp h
  obtain ⟨instant, -, h⟩ := bind_eq_ok_iff.mp h
  obtain ⟨_, -, h⟩ := bind_eq_ok_iff.mp h
  obtain ⟨current, -, h⟩ := bind_eq_ok_iff.mp h
  obtain ⟨_, -, h⟩ := bind_eq_ok_iff.mp h
  obtain ⟨saved, hsave, h⟩ := bind_eq_ok_iff.mp h
  obtain ⟨created, hnext, h⟩ := bind_eq_ok_iff.mp h
  cases h
  have hsaved := kept.save hbegin hsave
  cases nextTask with
  | none =>
      cases hnext
      exact hsaved
  | some next => exact kept.createTaskRow hsaved hnext

theorem deleteTask {id : String} (h : Native.deleteTask supply store id = .ok tx) : holds tx := by
  obtain ⟨_, -, h⟩ := bind_eq_ok_iff.mp h
  split at h
  · cases h
    exact hbegin
  · exact kept.save hbegin h

theorem restoreTask {id : String} (h : Native.restoreTask supply store id = .ok tx) : holds tx := by
  obtain ⟨_, -, h⟩ := bind_eq_ok_iff.mp h
  split at h
  · cases h
    exact hbegin
  · exact kept.save hbegin h

theorem reorderTask {id direction : String}
    (h : Native.reorderTask supply store id direction = .ok tx) : holds tx := by
  obtain ⟨_, -, h⟩ := bind_eq_ok_iff.mp h
  obtain ⟨_, -, h⟩ := bind_eq_ok_iff.mp h
  obtain ⟨current, -, h⟩ := bind_eq_ok_iff.mp h
  split at h
  · cases h
    exact hbegin
  · obtain ⟨first, hfirst, h⟩ := bind_eq_ok_iff.mp h
    obtain ⟨second, hsecond, h⟩ := bind_eq_ok_iff.mp h
    obtain ⟨logged, hlogged, h⟩ := bind_eq_ok_iff.mp h
    have hwritten := kept.write (kept.write hbegin hfirst) hsecond
    exact kept.append (kept.append hwritten hlogged) h

theorem addToDay {taskId date : String}
    (h : Native.addToDay texts supply store taskId date = .ok tx) : holds tx := by
  obtain ⟨_, -, h⟩ := bind_eq_ok_iff.mp h
  obtain ⟨_, -, h⟩ := bind_eq_ok_iff.mp h
  obtain ⟨_, -, h⟩ := bind_eq_ok_iff.mp h
  split at h
  · exact kept.create hbegin h
  · split at h
    · exact kept.save hbegin h
    · cases h
      exact hbegin

theorem removeFromDay {taskId date : String}
    (h : Native.removeFromDay texts supply store taskId date = .ok tx) : holds tx := by
  obtain ⟨_, -, h⟩ := bind_eq_ok_iff.mp h
  obtain ⟨_, -, h⟩ := bind_eq_ok_iff.mp h
  split at h
  · cases h
    exact hbegin
  · exact kept.save hbegin h

theorem createStep {taskId title : String} {step : Step}
    (h : Native.createStep supply store taskId title = .ok (step, tx)) : holds tx := by
  obtain ⟨_, -, h⟩ := bind_eq_ok_iff.mp h
  obtain ⟨_, -, h⟩ := bind_eq_ok_iff.mp h
  obtain ⟨_, -, h⟩ := bind_eq_ok_iff.mp h
  obtain ⟨created, hcreate, h⟩ := bind_eq_ok_iff.mp h
  cases h
  exact kept.create hbegin hcreate

theorem patchStep {id : String} {patch : StepPatch} {step : Step}
    (h : Native.patchStep supply store id patch = .ok (step, tx)) : holds tx := by
  obtain ⟨_, -, h⟩ := bind_eq_ok_iff.mp h
  obtain ⟨_, -, h⟩ := bind_eq_ok_iff.mp h
  obtain ⟨current, -, h⟩ := bind_eq_ok_iff.mp h
  obtain ⟨title, -, h⟩ := bind_eq_ok_iff.mp h
  obtain ⟨isCompleted, -, h⟩ := bind_eq_ok_iff.mp h
  obtain ⟨rank, -, h⟩ := bind_eq_ok_iff.mp h
  obtain ⟨saved, hsave, h⟩ := bind_eq_ok_iff.mp h
  cases h
  exact kept.save hbegin hsave

theorem deleteStep {id : String} (h : Native.deleteStep supply store id = .ok tx) : holds tx := by
  obtain ⟨_, -, h⟩ := bind_eq_ok_iff.mp h
  split at h
  · cases h
    exact hbegin
  · exact kept.save hbegin h

omit hbegin in
theorem importData {bundle : ExportBundle} {mode : ImportMode}
    (hstart : holds (importStart store mode).begin)
    (h : Native.importData texts supply store bundle mode = .ok tx) : holds tx := by
  obtain ⟨_, -, h⟩ := bind_eq_ok_iff.mp h
  obtain ⟨_, -, h⟩ := bind_eq_ok_iff.mp h
  obtain ⟨_, -, h⟩ := bind_eq_ok_iff.mp h
  obtain ⟨_, -, h⟩ := bind_eq_ok_iff.mp h
  obtain ⟨lists, hlists, h⟩ := bind_eq_ok_iff.mp h
  obtain ⟨tasks, htasks, h⟩ := bind_eq_ok_iff.mp h
  obtain ⟨steps, hsteps, h⟩ := bind_eq_ok_iff.mp h
  have hrow : ∀ row tx after, holds tx → importRow supply tx row = .ok after → holds after :=
    fun row tx after htx hrow => kept.save htx hrow
  have hlists := foldlM hrow hstart hlists
  have htasks : holds tasks := by
    apply foldlM ?_ hlists htasks
    intro task tx after htx htask
    obtain ⟨tags, -, htask⟩ := bind_eq_ok_iff.mp htask
    exact kept.save htx htask
  exact foldlM hrow (foldlM hrow htasks hsteps) h

end

/-- A request keeps what its statements keep. -/
theorem perform (kept : KeptByStatements holds) {op : LocalOp} (hstart : holds (op.start store).begin)
    (h : op.perform texts supply store = .ok tx) : holds tx := by
  cases op with
  | createList input =>
      obtain ⟨⟨list, tx⟩, hcreate, rfl⟩ := map_eq_ok_iff.mp h
      exact kept.createList hstart hcreate
  | patchList id patch =>
      obtain ⟨⟨list, tx⟩, hpatch, rfl⟩ := map_eq_ok_iff.mp h
      exact kept.patchList hstart hpatch
  | deleteList id => exact kept.deleteList hstart h
  | restoreList id => exact kept.restoreList hstart h
  | createTask input =>
      obtain ⟨⟨task, tx⟩, hcreate, rfl⟩ := map_eq_ok_iff.mp h
      exact kept.createTask hstart hcreate
  | patchTask id patch =>
      obtain ⟨⟨task, tx⟩, hpatch, rfl⟩ := map_eq_ok_iff.mp h
      exact kept.patchTask hstart hpatch
  | commitCompletion taskId completedAt nextTask =>
      obtain ⟨⟨done, tx⟩, hcommit, rfl⟩ := map_eq_ok_iff.mp h
      exact kept.commitCompletion hstart hcommit
  | deleteTask id => exact kept.deleteTask hstart h
  | restoreTask id => exact kept.restoreTask hstart h
  | reorderTask id direction => exact kept.reorderTask hstart h
  | addToDay taskId date => exact kept.addToDay hstart h
  | removeFromDay taskId date => exact kept.removeFromDay hstart h
  | createStep taskId title =>
      obtain ⟨⟨step, tx⟩, hcreate, rfl⟩ := map_eq_ok_iff.mp h
      exact kept.createStep hstart hcreate
  | patchStep id patch =>
      obtain ⟨⟨step, tx⟩, hpatch, rfl⟩ := map_eq_ok_iff.mp h
      exact kept.patchStep hstart hpatch
  | deleteStep id => exact kept.deleteStep hstart h
  | importData bundle mode => exact kept.importData hstart h

end KeptByStatements

end ShishiTodo.Native
