import ShishiTodo.Native.Merge
import ShishiTodo.Native.Runs
import ShishiTodo.Sync.Names

/-!
# What the native store logs

Every operation of the store appends patches with the fields of their entity, each once, and nothing for a deletion. Such a patch goes through the transport and back.
-/

namespace ShishiTodo.Native

open Lib Sync

/-! ### Patches that may be logged -/

theorem fieldNames_present {fields : List (String × Option Json)} :
    (fieldNames (present fields)).Sublist (fields.map Prod.fst) := by
  induction fields with
  | nil => exact List.Sublist.slnil
  | cons field rest ih =>
      obtain ⟨name, value⟩ := field
      cases value with
      | none => exact ih.cons name
      | some value => exact ih.cons_cons name

section

variable {entity : EntityType} {kind : MutationKind}

/-- A patch with fields of the entity, each of them once. -/
theorem loggable_fields {patch : Data} (names : List String) (hkind : kind ≠ .delete)
    (hsub : (fieldNames patch).Sublist names) (hknown : ∀ name ∈ names, name ∈ mutableFields entity)
    (hnodup : names.Nodup) : Loggable entity kind patch where
  known name hname := .inl (hknown name (hsub.subset hname))
  nodup := hnodup.sublist hsub
  deleted hdelete := absurd hdelete hkind

theorem loggable_nil : Loggable entity kind [] where
  known _ hname := absurd hname List.not_mem_nil
  nodup := List.nodup_nil
  deleted _ := rfl

theorem loggable_data (row : Row) (hkind : kind ≠ .delete) : Loggable row.entity kind row.data where
  known := by
    cases row <;> (show ∀ name ∈ List.map Prod.fst _, _) <;>
      simp only [Row.data, TaskList.data, Task.data, Step.data, DayPlan.data, List.map_cons, List.map_nil,
        Row.entity] <;> decide
  nodup := by
    cases row <;> (show (List.map Prod.fst _).Nodup) <;>
      simp only [Row.data, TaskList.data, Task.data, Step.data, DayPlan.data, List.map_cons, List.map_nil] <;>
      decide
  deleted hdelete := absurd hdelete hkind

theorem loggable_rank (rank : Json) : Loggable .task .patch [("rank", rank)] :=
  loggable_fields ["rank"] (by decide) (List.Sublist.refl _) (by decide) (by decide)

theorem loggable_listId (listId : Json) : Loggable .task .patch [("listId", listId)] :=
  loggable_fields ["listId"] (by decide) (List.Sublist.refl _) (by decide) (by decide)

theorem loggable_completion (status completedAt : Json) :
    Loggable .task .patch [("status", status), ("completedAt", completedAt)] :=
  loggable_fields ["status", "completedAt"] (by decide) (List.Sublist.refl _) (by decide) (by decide)

theorem loggable_listPatch (name color icon rank : Option Json) : Loggable .list .patch (present [
    ("name", name), ("color", color), ("icon", icon), ("rank", rank)]) :=
  loggable_fields ["name", "color", "icon", "rank"] (by decide) fieldNames_present (by decide) (by decide)

theorem loggable_taskPatch (title listId note tags status important dueOn remindAt remindTimezone recurrence
    rank completedAt : Option Json) : Loggable .task .patch (present [
      ("title", title), ("listId", listId), ("note", note), ("tags", tags), ("status", status),
      ("important", important), ("dueOn", dueOn), ("remindAt", remindAt),
      ("remindTimezone", remindTimezone), ("recurrence", recurrence), ("rank", rank),
      ("completedAt", completedAt)]) :=
  loggable_fields ["title", "listId", "note", "tags", "status", "important", "dueOn", "remindAt",
    "remindTimezone", "recurrence", "rank", "completedAt"] (by decide) fieldNames_present (by decide) (by decide)

theorem loggable_stepPatch (title isCompleted rank : Option Json) : Loggable .step .patch (present [
    ("title", title), ("isCompleted", isCompleted), ("rank", rank)]) :=
  loggable_fields ["title", "isCompleted", "rank"] (by decide) fieldNames_present (by decide) (by decide)

end

/-! ### The operations -/

/-- Everything the transaction has appended may be logged. -/
def Logged (tx : Tx) : Prop := ∀ row ∈ tx.appended, Loggable row.entity row.kind row.patch

section

variable {texts : Texts} {supply : Supply} {store : Store} {tx after : Tx} {row : Row} {kind : MutationKind}
  {patch : Data}

theorem logged_begin (store : Store) : Logged store.begin := fun _ hrow => absurd hrow List.not_mem_nil

theorem Logged.appendMutation {key : RowKey} (htx : Logged tx)
    (happend : tx.appendMutation supply key kind patch = .ok after) (h : Loggable key.1 kind patch) :
    Logged after := by
  obtain ⟨-, rfl⟩ := Tx.appendMutation_ok happend
  intro row hrow
  rw [Tx.withMutation_appended, List.mem_append, List.mem_singleton] at hrow
  rcases hrow with hbefore | rfl
  · exact htx row hbefore
  · exact h

theorem Logged.write (htx : Logged tx) (hwrite : tx.write row = .ok after) : Logged after := by
  obtain ⟨_, rfl⟩ := Tx.statement_ok hwrite
  exact htx

theorem Logged.save (htx : Logged tx) (hsave : tx.save supply row kind patch = .ok after)
    (h : Loggable row.entity kind patch) : Logged after := by
  obtain ⟨written, hwrite, happend⟩ := bind_eq_ok_iff.mp hsave
  exact (htx.write hwrite).appendMutation happend h

theorem Logged.create (htx : Logged tx) (hcreate : tx.create supply row = .ok after) : Logged after :=
  htx.save (Tx.create_ok hcreate).2 (loggable_data row (by decide))

/-- What a loop appends may be logged when each of its rounds keeps to it. -/
theorem logged_foldlM {α : Type} {step : Tx → α → StoreResult Tx} {items : List α}
    (hstep : ∀ item ∈ items, ∀ tx after, Logged tx → step tx item = .ok after → Logged after)
    (htx : Logged tx) (h : items.foldlM step tx = .ok after) : Logged after := by
  refine (foldlM_induction (fun rest tx => (∀ item ∈ rest, item ∈ items) ∧ Logged tx) ?_
    ⟨fun _ hitem => hitem, htx⟩ h).2
  intro item rest state next hstate hnext
  refine ⟨fun later hlater => hstate.1 later (List.mem_cons_of_mem item hlater), ?_⟩
  exact hstep item (hstate.1 item List.mem_cons_self) state next hstate.2 hnext

theorem createList_logged {input : NewList} {list : TaskList}
    (h : createList supply store input = .ok (list, tx)) : Logged tx := by
  obtain ⟨name, -, h⟩ := bind_eq_ok_iff.mp h
  obtain ⟨color, -, h⟩ := bind_eq_ok_iff.mp h
  obtain ⟨icon, -, h⟩ := bind_eq_ok_iff.mp h
  obtain ⟨created, hcreate, h⟩ := bind_eq_ok_iff.mp h
  cases h
  exact (logged_begin store).create hcreate

theorem patchList_logged {id : String} {patch : ListPatch} {list : TaskList}
    (h : patchList supply store id patch = .ok (list, tx)) : Logged tx := by
  obtain ⟨_, -, h⟩ := bind_eq_ok_iff.mp h
  obtain ⟨_, -, h⟩ := bind_eq_ok_iff.mp h
  obtain ⟨current, -, h⟩ := bind_eq_ok_iff.mp h
  obtain ⟨name, -, h⟩ := bind_eq_ok_iff.mp h
  obtain ⟨color, -, h⟩ := bind_eq_ok_iff.mp h
  obtain ⟨icon, -, h⟩ := bind_eq_ok_iff.mp h
  obtain ⟨rank, -, h⟩ := bind_eq_ok_iff.mp h
  obtain ⟨saved, hsave, h⟩ := bind_eq_ok_iff.mp h
  cases h
  exact (logged_begin store).save hsave (loggable_listPatch _ _ _ _)

theorem deleteList_logged {id : String} (h : deleteList supply store id = .ok tx) : Logged tx := by
  obtain ⟨_, -, h⟩ := bind_eq_ok_iff.mp h
  split at h
  · cases h
    exact logged_begin store
  · obtain ⟨deleted, hdelete, h⟩ := bind_eq_ok_iff.mp h
    apply logged_foldlM ?_ ((logged_begin store).save hdelete loggable_nil) h
    exact fun task _ tx after htx hdetach => htx.save hdetach (loggable_listId .null)

theorem restoreList_logged {id : String} (h : restoreList supply store id = .ok tx) : Logged tx := by
  obtain ⟨_, -, h⟩ := bind_eq_ok_iff.mp h
  split at h
  · cases h
    exact logged_begin store
  · exact (logged_begin store).save h loggable_nil

theorem createTaskRow_logged {task : Task} (htx : Logged tx)
    (h : createTaskRow supply tx task = .ok after) : Logged after := by
  obtain ⟨_, -, h⟩ := bind_eq_ok_iff.mp h
  obtain ⟨_, -, hcreate⟩ := bind_eq_ok_iff.mp h
  exact htx.create hcreate

theorem createTask_logged {input : NewTask} {task : Task}
    (h : createTask texts supply store input = .ok (task, tx)) : Logged tx := by
  obtain ⟨prepared, -, h⟩ := bind_eq_ok_iff.mp h
  obtain ⟨_, -, h⟩ := bind_eq_ok_iff.mp h
  obtain ⟨created, hcreate, h⟩ := bind_eq_ok_iff.mp h
  obtain ⟨planned, hplan, h⟩ := bind_eq_ok_iff.mp h
  cases h
  have hcreated := createTaskRow_logged (logged_begin store) hcreate
  cases hdate : prepared.planDate with
  | none =>
      rw [hdate] at hplan
      cases hplan
      exact hcreated
  | some planDate =>
      rw [hdate] at hplan
      exact hcreated.create hplan

theorem patchTask_logged {id : String} {patch : TaskPatch} {task : Task}
    (h : patchTask texts supply store id patch = .ok (task, tx)) : Logged tx := by
  obtain ⟨_, -, h⟩ := bind_eq_ok_iff.mp h
  obtain ⟨_, -, h⟩ := bind_eq_ok_iff.mp h
  obtain ⟨current, -, h⟩ := bind_eq_ok_iff.mp h
  obtain ⟨title, -, h⟩ := bind_eq_ok_iff.mp h
  obtain ⟨listId, -, h⟩ := bind_eq_ok_iff.mp h
  obtain ⟨note, -, h⟩ := bind_eq_ok_iff.mp h
  obtain ⟨tags, -, h⟩ := bind_eq_ok_iff.mp h
  obtain ⟨important, -, h⟩ := bind_eq_ok_iff.mp h
  obtain ⟨dueOn, -, h⟩ := bind_eq_ok_iff.mp h
  obtain ⟨remindAt, -, h⟩ := bind_eq_ok_iff.mp h
  obtain ⟨remindTimezone, -, h⟩ := bind_eq_ok_iff.mp h
  obtain ⟨recurrence, -, h⟩ := bind_eq_ok_iff.mp h
  obtain ⟨rank, -, h⟩ := bind_eq_ok_iff.mp h
  obtain ⟨status, -, h⟩ := bind_eq_ok_iff.mp h
  obtain ⟨completedAt, -, h⟩ := bind_eq_ok_iff.mp h
  obtain ⟨saved, hsave, h⟩ := bind_eq_ok_iff.mp h
  cases h
  exact (logged_begin store).save hsave (loggable_taskPatch _ _ _ _ _ _ _ _ _ _ _ _)

theorem commitCompletion_logged {taskId completedAt : String} {nextTask : Option Task}
    {done : Task × Option Task}
    (h : commitCompletion texts supply store taskId completedAt nextTask = .ok (done, tx)) : Logged tx := by
  obtain ⟨_, -, h⟩ := bind_eq_ok_iff.mp h
  obtain ⟨instant, -, h⟩ := bind_eq_ok_iff.mp h
  obtain ⟨_, -, h⟩ := bind_eq_ok_iff.mp h
  obtain ⟨current, -, h⟩ := bind_eq_ok_iff.mp h
  obtain ⟨_, -, h⟩ := bind_eq_ok_iff.mp h
  obtain ⟨saved, hsave, h⟩ := bind_eq_ok_iff.mp h
  obtain ⟨created, hnext, h⟩ := bind_eq_ok_iff.mp h
  cases h
  have hsaved : Logged saved := (logged_begin store).save hsave (loggable_completion _ _)
  cases nextTask with
  | none =>
      cases hnext
      exact hsaved
  | some next => exact createTaskRow_logged hsaved hnext

theorem deleteTask_logged {id : String} (h : deleteTask supply store id = .ok tx) : Logged tx := by
  obtain ⟨_, -, h⟩ := bind_eq_ok_iff.mp h
  split at h
  · cases h
    exact logged_begin store
  · exact (logged_begin store).save h loggable_nil

theorem restoreTask_logged {id : String} (h : restoreTask supply store id = .ok tx) : Logged tx := by
  obtain ⟨_, -, h⟩ := bind_eq_ok_iff.mp h
  split at h
  · cases h
    exact logged_begin store
  · exact (logged_begin store).save h loggable_nil

theorem reorderTask_logged {id direction : String} (h : reorderTask supply store id direction = .ok tx) :
    Logged tx := by
  obtain ⟨_, -, h⟩ := bind_eq_ok_iff.mp h
  obtain ⟨_, -, h⟩ := bind_eq_ok_iff.mp h
  obtain ⟨current, -, h⟩ := bind_eq_ok_iff.mp h
  split at h
  · cases h
    exact logged_begin store
  · obtain ⟨first, hfirst, h⟩ := bind_eq_ok_iff.mp h
    obtain ⟨second, hsecond, h⟩ := bind_eq_ok_iff.mp h
    obtain ⟨logged, hlogged, h⟩ := bind_eq_ok_iff.mp h
    have hwritten := ((logged_begin store).write hfirst).write hsecond
    exact (hwritten.appendMutation hlogged (loggable_rank _)).appendMutation h (loggable_rank _)

theorem addToDay_logged {taskId date : String} (h : addToDay texts supply store taskId date = .ok tx) :
    Logged tx := by
  obtain ⟨_, -, h⟩ := bind_eq_ok_iff.mp h
  obtain ⟨_, -, h⟩ := bind_eq_ok_iff.mp h
  obtain ⟨_, -, h⟩ := bind_eq_ok_iff.mp h
  split at h
  · exact (logged_begin store).create h
  · split at h
    · exact (logged_begin store).save h loggable_nil
    · cases h
      exact logged_begin store

theorem removeFromDay_logged {taskId date : String}
    (h : removeFromDay texts supply store taskId date = .ok tx) : Logged tx := by
  obtain ⟨_, -, h⟩ := bind_eq_ok_iff.mp h
  obtain ⟨_, -, h⟩ := bind_eq_ok_iff.mp h
  split at h
  · cases h
    exact logged_begin store
  · exact (logged_begin store).save h loggable_nil

theorem createStep_logged {taskId title : String} {step : Step}
    (h : createStep supply store taskId title = .ok (step, tx)) : Logged tx := by
  obtain ⟨_, -, h⟩ := bind_eq_ok_iff.mp h
  obtain ⟨_, -, h⟩ := bind_eq_ok_iff.mp h
  obtain ⟨_, -, h⟩ := bind_eq_ok_iff.mp h
  obtain ⟨created, hcreate, h⟩ := bind_eq_ok_iff.mp h
  cases h
  exact (logged_begin store).create hcreate

theorem patchStep_logged {id : String} {patch : StepPatch} {step : Step}
    (h : patchStep supply store id patch = .ok (step, tx)) : Logged tx := by
  obtain ⟨_, -, h⟩ := bind_eq_ok_iff.mp h
  obtain ⟨_, -, h⟩ := bind_eq_ok_iff.mp h
  obtain ⟨current, -, h⟩ := bind_eq_ok_iff.mp h
  obtain ⟨title, -, h⟩ := bind_eq_ok_iff.mp h
  obtain ⟨isCompleted, -, h⟩ := bind_eq_ok_iff.mp h
  obtain ⟨rank, -, h⟩ := bind_eq_ok_iff.mp h
  obtain ⟨saved, hsave, h⟩ := bind_eq_ok_iff.mp h
  cases h
  exact (logged_begin store).save hsave (loggable_stepPatch _ _ _)

theorem deleteStep_logged {id : String} (h : deleteStep supply store id = .ok tx) : Logged tx := by
  obtain ⟨_, -, h⟩ := bind_eq_ok_iff.mp h
  split at h
  · cases h
    exact logged_begin store
  · exact (logged_begin store).save h loggable_nil

theorem importRow_logged (htx : Logged tx) (h : importRow supply tx row = .ok after) : Logged after := by
  apply htx.save h (loggable_data row ?_)
  split <;> decide

theorem importData_logged {bundle : ExportBundle} {mode : ImportMode}
    (h : importData texts supply store bundle mode = .ok tx) : Logged tx := by
  obtain ⟨_, -, h⟩ := bind_eq_ok_iff.mp h
  obtain ⟨_, -, h⟩ := bind_eq_ok_iff.mp h
  obtain ⟨_, -, h⟩ := bind_eq_ok_iff.mp h
  obtain ⟨_, -, h⟩ := bind_eq_ok_iff.mp h
  obtain ⟨lists, hlists, h⟩ := bind_eq_ok_iff.mp h
  obtain ⟨tasks, htasks, h⟩ := bind_eq_ok_iff.mp h
  obtain ⟨steps, hsteps, h⟩ := bind_eq_ok_iff.mp h
  have hrow : ∀ {rows : List Row}, ∀ row ∈ rows, ∀ tx after, Logged tx →
      importRow supply tx row = .ok after → Logged after :=
    fun _ _ _ _ htx hrow => importRow_logged htx hrow
  have hlists := logged_foldlM hrow (logged_begin _) hlists
  have htasks : Logged tasks := by
    apply logged_foldlM ?_ hlists htasks
    intro task _ tx after htx htask
    obtain ⟨tags, -, htask⟩ := bind_eq_ok_iff.mp htask
    exact importRow_logged htx htask
  exact logged_foldlM hrow (logged_foldlM hrow htasks hsteps) h

/-- Every operation of the native store logs what may be logged. -/
theorem perform_logged {op : LocalOp} (h : op.perform texts supply store = .ok tx) : Logged tx := by
  cases op with
  | createList input =>
      rw [LocalOp.perform] at h
      obtain ⟨⟨list, tx⟩, hcreate, rfl⟩ := map_eq_ok_iff.mp h
      exact createList_logged hcreate
  | patchList id patch =>
      rw [LocalOp.perform] at h
      obtain ⟨⟨list, tx⟩, hpatch, rfl⟩ := map_eq_ok_iff.mp h
      exact patchList_logged hpatch
  | deleteList id => exact deleteList_logged h
  | restoreList id => exact restoreList_logged h
  | createTask input =>
      rw [LocalOp.perform] at h
      obtain ⟨⟨task, tx⟩, hcreate, rfl⟩ := map_eq_ok_iff.mp h
      exact createTask_logged hcreate
  | patchTask id patch =>
      rw [LocalOp.perform] at h
      obtain ⟨⟨task, tx⟩, hpatch, rfl⟩ := map_eq_ok_iff.mp h
      exact patchTask_logged hpatch
  | commitCompletion taskId completedAt nextTask =>
      rw [LocalOp.perform] at h
      obtain ⟨⟨done, tx⟩, hcommit, rfl⟩ := map_eq_ok_iff.mp h
      exact commitCompletion_logged hcommit
  | deleteTask id => exact deleteTask_logged h
  | restoreTask id => exact restoreTask_logged h
  | reorderTask id direction => exact reorderTask_logged h
  | addToDay taskId date => exact addToDay_logged h
  | removeFromDay taskId date => exact removeFromDay_logged h
  | createStep taskId title =>
      rw [LocalOp.perform] at h
      obtain ⟨⟨step, tx⟩, hcreate, rfl⟩ := map_eq_ok_iff.mp h
      exact createStep_logged hcreate
  | patchStep id patch =>
      rw [LocalOp.perform] at h
      obtain ⟨⟨step, tx⟩, hpatch, rfl⟩ := map_eq_ok_iff.mp h
      exact patchStep_logged hpatch
  | deleteStep id => exact deleteStep_logged h
  | importData bundle mode => exact importData_logged h

/-! ### Joining an account -/

theorem fieldNames_copyFields {patch : Data} (names : List String) {done : Data}
    (hdone : (fieldNames done ++ names).Nodup) :
    (fieldNames (copyFields patch names done)).Sublist (fieldNames done ++ names) := by
  induction names generalizing done with
  | nil => rw [List.append_nil]; exact List.Sublist.refl _
  | cons name rest ih =>
      have hskip : (fieldNames done ++ rest).Sublist (fieldNames done ++ name :: rest) :=
        (List.Sublist.refl _).append (List.sublist_cons_self name rest)
      rw [copyFields]
      split
      · rename_i value _
        have hfresh : name ∉ fieldNames done := fun hmem =>
          List.disjoint_of_nodup_append hdone hmem List.mem_cons_self
        have hput : fieldNames (Json.putMember name value done) ++ rest = fieldNames done ++ name :: rest := by
          rw [putMember_of_fresh value hfresh, fieldNames, List.map_append, List.append_assoc]
          rfl
        have hrest := ih (hput.symm ▸ hdone)
        rwa [hput] at hrest
      · exact (ih (hdone.sublist hskip)).trans hskip

theorem loggable_fullPatch (entity : EntityType) (value : Data) (hkind : kind ≠ .delete) :
    Loggable entity kind (fullPatch entity value) := by
  have hnodup : (mutableFields entity).Nodup := by
    cases entity <;> decide
  exact loggable_fields (mutableFields entity) hkind (fieldNames_copyFields (mutableFields entity) hnodup)
    (fun _ hname => hname) hnodup

theorem loggable_preparedOps {snapshot : CloudSnapshot} {rows : List Row} {op : PreparedOp}
    (h : op ∈ preparedOps snapshot rows) : Loggable op.key.1 op.kind op.patch := by
  obtain ⟨row, -, hop⟩ := List.mem_filterMap.mp h
  cases hverdict : mergeVerdict snapshot row <;> rw [hverdict] at hop <;> cases hop
  · exact loggable_fullPatch row.entity row.data nofun
  · exact loggable_nil
  · exact loggable_fullPatch row.entity row.data nofun
  · exact loggable_fullPatch row.entity row.data nofun

theorem writeRow_logged (htx : Logged tx) (h : writeRow tx row = .ok after) : Logged after := by
  unfold writeRow at h
  split at h
  · split at h
    · cases h
      exact htx
    · exact htx.write h
  · split at h
    · cases h
      exact htx
    · exact htx.write h
  · exact htx.write h

theorem writeMaterialized_logged {merged : Tables} (htx : Logged tx)
    (h : writeMaterialized tx merged = .ok after) : Logged after := by
  have hstart : Logged (tx.withRows .empty) := htx
  exact logged_foldlM (fun row _ tx after htx hrow => writeRow_logged htx hrow) hstart h

/-- Every operation that joining an account uploads may be logged. -/
theorem syncInitializeCloud_logged {request : CloudInitializeRequest} {count : Nat}
    (h : syncInitializeCloud supply store request = .ok (count, tx)) : Logged tx := by
  obtain ⟨_, -, h⟩ := bind_eq_ok_iff.mp h
  obtain ⟨_, -, h⟩ := bind_eq_ok_iff.mp h
  obtain ⟨written, hwrite, h⟩ := bind_eq_ok_iff.mp h
  obtain ⟨logged, hlogged, h⟩ := bind_eq_ok_iff.mp h
  cases h
  have hwritten : Logged written := writeMaterialized_logged (logged_begin store.forgotten) hwrite
  have hjoined : Logged (written.joined request.snapshot) := hwritten
  show Logged logged
  refine logged_foldlM (fun op hop tx after htx happend => htx.appendMutation happend ?_) hjoined hlogged
  cases hmode : request.mode with
  | cloud =>
      rw [hmode] at hop
      exact absurd hop List.not_mem_nil
  | merge =>
      rw [hmode] at hop
      exact loggable_preparedOps hop

end

end ShishiTodo.Native
