import ShishiTodo.Shared.Session
import ShishiTodo.Shared.Versions

/-!
# The copy of a shared list

A copy changes in two ways. A pull replaces it by what the server read at one revision. A settled push raises it by one revision and changes the one task of its operation; so the step between those revisions on the server must have changed nothing else.
-/

namespace ShishiTodo

open Lib

/-! ### Copies -/

/-- The record is about its list, and its copy is the list at its revision. -/
structure CopyOf (history : List SharedDb) (listId : Uuid) (record : SharedListRecord) : Prop where
  id : record.id = listId
  copy : ∀ shadow, record.snapshot = some shadow → ∃ db ∈ history,
    db.revisionOf listId = some record.revision ∧ Holds shadow.tasks (db.liveTasks listId)

/-- All records of the store. -/
def CopiesOf (history : List SharedDb) (space : SharedSpace) : Prop :=
  ∀ listId record, space.lists.lookup listId = some record → CopyOf history listId record

theorem CopyOf.mono {history later : List SharedDb} (hsub : history ⊆ later) {listId : Uuid}
    {record : SharedListRecord} (h : CopyOf history listId record) :
    CopyOf later listId record where
  id := h.id
  copy := by
    intro shadow hshadow
    obtain ⟨db, hmem, hrev, hholds⟩ := h.copy shadow hshadow
    exact ⟨db, hsub hmem, hrev, hholds⟩

theorem CopyOf.congr {history : List SharedDb} {listId : Uuid} {record next : SharedListRecord}
    (h : CopyOf history listId record) (hid : next.id = record.id)
    (hsnapshot : next.snapshot = record.snapshot) (hrevision : next.revision = record.revision) :
    CopyOf history listId next where
  id := hid.trans h.id
  copy := by
    rw [hsnapshot, hrevision]
    exact h.copy

theorem copyOf_emptyRecord (history : List SharedDb) (summary : SharedListSummary) :
    CopyOf history summary.id (emptyRecord summary) where
  id := rfl
  copy := fun _ h => nomatch h

section Store

variable {history : List SharedDb} {space : SharedSpace}

theorem CopiesOf.of_lists_eq (h : CopiesOf history space) {next : SharedSpace}
    (hlists : next.lists = space.lists) : CopiesOf history next := by
  intro listId record hlookup
  rw [hlists] at hlookup
  exact h listId record hlookup

theorem CopiesOf.putList (h : CopiesOf history space) (listId : Uuid) {record : SharedListRecord}
    (hcopy : CopyOf history listId record) : CopiesOf history (space.putList record) := by
  intro other found hlookup
  simp only [SharedSpace.putList, Table.lookup_insert_eq_ite, hcopy.id] at hlookup
  split at hlookup
  · rename_i hid
    cases hlookup
    rw [hid]
    exact hcopy
  · exact h other found hlookup

/-! ### What leaves the lists alone -/

@[simp] theorem lists_rejectListed (space : SharedSpace) (ops : List SharedOpRecord)
    (rejected : List (Uuid × String)) : (space.rejectListed ops rejected).lists = space.lists := by
  unfold SharedSpace.rejectListed
  induction rejected generalizing space with
  | nil => rfl
  | cons entry rest ih =>
      rw [List.foldl_cons, ih]
      split <;> rfl

@[simp] theorem lists_foldl_deleteOp (dropped : List Uuid) (space : SharedSpace) :
    (dropped.foldl SharedSpace.deleteOp space).lists = space.lists := by
  induction dropped generalizing space with
  | nil => rfl
  | cons opId rest ih =>
      rw [List.foldl_cons, ih]
      rfl

@[simp] theorem lists_applyRebase (space : SharedSpace) (record : SharedListRecord) :
    (applyRebase space record).lists = space.lists := by
  unfold applyRebase
  split
  · rfl
  · simp [SharedSpace.replaceTasks]

@[simp] theorem lists_rejectPending (space : SharedSpace) (listId : Uuid) (code : String)
    (only : Option Uuid) : (space.rejectPending listId code only).lists = space.lists := by
  unfold SharedSpace.rejectPending
  generalize space.ops listId = ops
  induction ops generalizing space with
  | nil => rfl
  | cons op rest ih =>
      rw [List.foldl_cons, ih]
      split <;> rfl

@[simp] theorem lists_rejectOps (space : SharedSpace) (listId : Uuid) (code : String)
    (only : Option Uuid) : (space.rejectOps listId code only).lists = space.lists := by
  unfold SharedSpace.rejectOps
  split <;> simp

@[simp] theorem lists_enqueue (space : SharedSpace) (listId opId taskId : Uuid)
    (kind : SharedOpKind) (patch base : SharedTaskPatch) (now : Instant) :
    (space.enqueue listId opId taskId kind patch base now).lists = space.lists := by
  unfold SharedSpace.enqueue
  split
  · rfl
  · rw [lists_applyRebase]
    rfl

@[simp] theorem lists_createTask (space : SharedSpace) (listId opId taskId : Uuid)
    (input : NewSharedTask) (now : Instant) :
    (space.createTask listId opId taskId input now).lists = space.lists := by
  unfold SharedSpace.createTask
  dsimp only
  split <;> simp

@[simp] theorem lists_updateTask (space : SharedSpace) (listId opId taskId : Uuid)
    (patch : SharedTaskPatch) (now : Instant) :
    (space.updateTask listId opId taskId patch now).lists = space.lists := by
  unfold SharedSpace.updateTask
  split
  · split <;> simp
  · rfl

@[simp] theorem lists_deleteTask (space : SharedSpace) (listId opId taskId : Uuid) (now : Instant) :
    (space.deleteTask listId opId taskId now).lists = space.lists := by
  unfold SharedSpace.deleteTask
  split <;> simp

@[simp] theorem lists_discardOp (space : SharedSpace) (listId opId : Uuid) :
    (space.discardOp listId opId).lists = space.lists := by
  unfold SharedSpace.discardOp
  dsimp only
  split <;> simp [SharedSpace.deleteOp]

@[simp] theorem lists_retryOp (space : SharedSpace) (listId opId : Uuid) :
    (space.retryOp listId opId).lists = space.lists := by
  unfold SharedSpace.retryOp
  split
  · split
    · split
      · rw [lists_applyRebase]
        rfl
      · rfl
    · rfl
  · rfl

/-! ### What changes them -/

theorem CopiesOf.removeLocalCopy (h : CopiesOf history space) (listId : Uuid) :
    CopiesOf history (space.removeLocalCopy listId) := by
  unfold SharedSpace.removeLocalCopy
  split
  · exact h
  · intro other record hlookup
    simp only [SharedSpace.deleteList, Table.lookup_erase_eq_ite] at hlookup
    split at hlookup
    · cases hlookup
    · exact h other record hlookup

theorem CopiesOf.loseAccess (h : CopiesOf history space) (listId : Uuid) (access : ListAccess)
    (code : String) : CopiesOf history (space.loseAccess listId access code) := by
  unfold SharedSpace.loseAccess
  split
  · exact h
  · rename_i record hrecord
    refine CopiesOf.of_lists_eq ?_ (lists_applyRebase _ _)
    refine (h.of_lists_eq (lists_rejectPending ..)).putList listId ?_
    exact (h listId record hrecord).congr rfl rfl rfl

theorem CopiesOf.listed (h : CopiesOf history space) (summary : SharedListSummary) :
    CopyOf history summary.id (space.listed summary) := by
  unfold SharedSpace.listed
  split
  · rename_i existing hlookup
    exact (h summary.id existing hlookup).congr rfl rfl rfl
  · exact copyOf_emptyRecord history summary

theorem CopiesOf.joined (h : CopiesOf history space) (summary : SharedListSummary) :
    CopiesOf history (space.joined summary) :=
  h.putList summary.id (h.listed summary)

theorem CopiesOf.indexed (h : CopiesOf history space) (summaries : List SharedListSummary) :
    CopiesOf history (space.indexed summaries) := by
  unfold SharedSpace.indexed
  suffices hfold : ∀ next, CopiesOf history next → CopiesOf history (summaries.foldl _ next) from
    hfold space h
  induction summaries with
  | nil => exact fun next hnext => hnext
  | cons summary rest ih =>
      intro next hnext
      rw [List.foldl_cons]
      exact ih _ (hnext.putList summary.id (h.listed summary))

/-- A pull brings what the server read at one revision. -/
theorem CopiesOf.pulled (h : CopiesOf history space) {listId : Uuid} {snapshot : SharedSnapshot}
    (now : Instant) (hread : ∃ db ∈ history, db.revisionOf listId = some snapshot.revision ∧
      Holds snapshot.tasks (db.liveTasks listId)) :
    CopiesOf history (space.pulled listId snapshot now) := by
  unfold SharedSpace.pulled
  dsimp only
  split
  · exact h
  · refine CopiesOf.of_lists_eq (h.putList listId ⟨rfl, ?_⟩) (lists_applyRebase _ _)
    intro shadow hshadow
    cases hshadow
    exact hread

end Store

/-! ### Folding a task into the copy -/

theorem foldApplied_spec {tasks : List SharedTask} {taskId : Uuid} {applied : SharedTask}
    (hid : applied.id = taskId) (hnodup : (tasks.map SharedTask.id).Nodup) :
    ((foldApplied tasks taskId applied).map SharedTask.id).Nodup ∧
      ∀ task, task ∈ foldApplied tasks taskId applied ↔
        task = applied ∨ (task ∈ tasks ∧ task.id ≠ taskId) := by
  unfold foldApplied
  cases hindex : tasks.findIdx? fun task => task.id == taskId with
  | none =>
      rw [List.findIdx?_eq_none_iff] at hindex
      have hnew : ∀ task ∈ tasks, task.id ≠ taskId := by simpa using hindex
      constructor
      · rw [List.map_append, List.map_singleton, hid, List.nodup_append]
        refine ⟨hnodup, List.nodup_singleton _, ?_⟩
        intro id hmem other hother
        rw [List.mem_singleton] at hother
        obtain ⟨task, htask, rfl⟩ := List.mem_map.mp hmem
        rw [hother]
        exact hnew task htask
      · intro task
        rw [List.mem_append, List.mem_singleton]
        constructor
        · rintro (hmem | rfl)
          · exact .inr ⟨hmem, hnew task hmem⟩
          · exact .inl rfl
        · rintro (rfl | ⟨hmem, -⟩)
          · exact .inr rfl
          · exact .inl hmem
  | some index =>
      obtain ⟨hlt, hfound, -⟩ := List.findIdx?_eq_some_iff_getElem.mp hindex
      rw [beq_iff_eq] at hfound
      have hlt' : index < (tasks.map SharedTask.id).length := by rwa [List.length_map]
      have hsame : (tasks.set index applied).map SharedTask.id = tasks.map SharedTask.id := by
        rw [List.map_set, hid, ← hfound]
        have hget : (tasks.map SharedTask.id).get ⟨index, hlt'⟩ = tasks[index].id := by simp
        rw [← hget]
        exact List.set_getElem_self hlt'
      refine ⟨by rwa [hsame], ?_⟩
      intro task
      constructor
      · intro hmem
        obtain ⟨other, hother, rfl⟩ := List.mem_iff_getElem.mp hmem
        rw [List.length_set] at hother
        rw [List.getElem_set]
        split
        · exact .inl rfl
        · rename_i hne
          refine .inr ⟨List.getElem_mem _, fun hsameId => hne ?_⟩
          have hother' : other < (tasks.map SharedTask.id).length := by rwa [List.length_map]
          have hids : (tasks.map SharedTask.id)[index] = (tasks.map SharedTask.id)[other] := by
            rw [List.getElem_map, List.getElem_map, hfound, hsameId]
          exact hnodup.getElem_inj_iff.mp hids
      · rintro (rfl | ⟨hmem, hne⟩)
        · exact List.mem_set hlt _
        · obtain ⟨other, hother, rfl⟩ := List.mem_iff_getElem.mp hmem
          refine List.mem_iff_getElem.mpr ⟨other, by rwa [List.length_set], ?_⟩
          rw [List.getElem_set, if_neg]
          rintro rfl
          exact hne hfound

/-- The copy of the next revision, when only the folded task changed. -/
theorem Holds.fold {tasks : List SharedTask} {taskId : Uuid} {applied : SharedTask}
    {live next : Uuid → Option TaskContent} (h : Holds tasks live) (hid : applied.id = taskId)
    (hnext : next taskId = some applied.content)
    (hothers : ∀ other, other ≠ taskId → next other = live other) :
    Holds (foldApplied tasks taskId applied) next where
  nodup := (foldApplied_spec hid h.nodup).1
  same := by
    intro other content
    have hmem := (foldApplied_spec hid h.nodup).2
    by_cases hother : other = taskId
    · subst hother
      rw [hnext]
      constructor
      · intro hcontent
        cases hcontent
        exact ⟨applied, (hmem applied).mpr (.inl rfl), hid, rfl⟩
      · rintro ⟨task, htask, hsame, rfl⟩
        rcases (hmem task).mp htask with rfl | ⟨-, hne⟩
        · rfl
        · exact absurd hsame hne
    · rw [hothers other hother, h.same]
      constructor
      · rintro ⟨task, htask, rfl, rfl⟩
        exact ⟨task, (hmem task).mpr (.inr ⟨htask, hother⟩), rfl, rfl⟩
      · rintro ⟨task, htask, rfl, rfl⟩
        rcases (hmem task).mp htask with rfl | ⟨htask, -⟩
        · exact absurd hid hother
        · exact ⟨task, htask, rfl, rfl⟩

/-- What makes a task fit to be folded into the copy: it is the one that changed on the way to its revision. -/
structure Foldable (history : List SharedDb) (op : SharedOpRecord) (expected : Int)
    (task : SharedTask) : Prop where
  id : task.id = op.taskId
  revision : task.revision = expected + 1
  step : listVersions.OnlyItem history op.listId expected op.taskId
  shown : ∃ db ∈ history, db.revisionOf op.listId = some (expected + 1) ∧
    db.liveTasks op.listId op.taskId = some task.content

theorem Foldable.mono {history later : List SharedDb} (hsub : history ⊆ later) {op : SharedOpRecord}
    {expected : Int} {task : SharedTask} (h : Foldable history op expected task) :
    Foldable later op expected task where
  id := h.id
  revision := h.revision
  step := h.step.mono hsub
  shown := by
    obtain ⟨db, hmem, hshown⟩ := h.shown
    exact ⟨db, hsub hmem, hshown⟩

theorem CopiesOf.settle {history : List SharedDb} {db : SharedDb} {space : SharedSpace}
    (h : CopiesOf history space) (hist : listVersions.History history db) {op : SharedOpRecord}
    {expected : Int} {applied : Option SharedTask} (now : Instant)
    (hfold : ∀ task, applied = some task → Foldable history op expected task) :
    CopiesOf history (space.settle op.listId op expected applied now) := by
  unfold SharedSpace.settle
  dsimp only
  have hdropped : CopiesOf history (space.deleteOp op.opId) := h.of_lists_eq rfl
  split
  · exact hdropped
  · rename_i record hrecord
    split
    · rename_i task shadow hshadow hsame
      rw [decide_eq_true_eq] at hsame
      refine CopiesOf.of_lists_eq (hdropped.putList op.listId ?_) (lists_applyRebase _ _)
      refine ⟨(h op.listId record hrecord).id, ?_⟩
      intro folded hfolded
      cases hfolded
      obtain ⟨before, hbefore, hrevBefore, hholds⟩ := (h op.listId record hrecord).copy shadow hshadow
      rw [hsame] at hrevBefore
      have hfit := hfold task rfl
      obtain ⟨after, hafter, hrevAfter, hshown⟩ := hfit.shown
      refine ⟨after, hafter, by rw [hrevAfter, hfit.revision], ?_⟩
      refine hholds.fold hfit.id hshown ?_
      intro other hother
      exact hfit.step.item_eq hist hbefore hafter hrevBefore hrevAfter hother
    · exact hdropped.of_lists_eq (lists_applyRebase _ _)

theorem CopiesOf.pushFailed {history : List SharedDb} {db : SharedDb} {space : SharedSpace}
    (h : CopiesOf history space) (hist : listVersions.History history db) (op : SharedOpRecord)
    (expected : Int) (error : AppError) (now : Instant) :
    CopiesOf history (space.pushFailed op expected error now) := by
  unfold SharedSpace.pushFailed
  split
  · exact h.loseAccess _ _ _
  · split
    · exact h
    · split
      · exact h.of_lists_eq (lists_rejectOps ..)
      · split
        · exact h.settle hist now (fun task htask => nomatch htask)
        · exact h.of_lists_eq (lists_rejectOps ..)

/-! ### Operations -/

/-- Every operation of the outbox satisfies the predicate. -/
def OpsAll (known : SharedOpRecord → Prop) (space : SharedSpace) : Prop :=
  ∀ key op, space.outbox.lookup key = some op → known op

section Ops

variable {known : SharedOpRecord → Prop} {space : SharedSpace}

theorem OpsAll.of_outbox_eq (h : OpsAll known space) {next : SharedSpace}
    (houtbox : next.outbox = space.outbox) : OpsAll known next := by
  intro key op hlookup
  rw [houtbox] at hlookup
  exact h key op hlookup

theorem OpsAll.putList (h : OpsAll known space) (record : SharedListRecord) :
    OpsAll known (space.putList record) := h.of_outbox_eq rfl

theorem OpsAll.of_mem (h : OpsAll known space) {listId : Uuid} {op : SharedOpRecord}
    (hmem : op ∈ space.ops listId) : known op := by
  simp only [SharedSpace.ops, List.mem_insertionSort, List.mem_filter, List.mem_map] at hmem
  obtain ⟨⟨⟨key, found⟩, hentry, rfl⟩, -⟩ := hmem
  exact h key found (Table.mem_entries_iff.mp hentry)

theorem OpsAll.putOp (h : OpsAll known space) {op : SharedOpRecord} (hop : known op) :
    OpsAll known (space.putOp op) := by
  intro key found hlookup
  simp only [SharedSpace.putOp, Table.lookup_insert_eq_ite] at hlookup
  split at hlookup
  · cases hlookup
    exact hop
  · exact h key found hlookup

theorem OpsAll.deleteOp (h : OpsAll known space) (opId : Uuid) :
    OpsAll known (space.deleteOp opId) := by
  intro key found hlookup
  simp only [SharedSpace.deleteOp, Table.lookup_erase_eq_ite] at hlookup
  split at hlookup
  · cases hlookup
  · exact h key found hlookup

theorem OpsAll.foldl_deleteOp (h : OpsAll known space) (dropped : List Uuid) :
    OpsAll known (dropped.foldl SharedSpace.deleteOp space) := by
  induction dropped generalizing space with
  | nil => exact h
  | cons opId rest ih => exact ih (h.deleteOp opId)

theorem OpsAll.removeLocalCopy (h : OpsAll known space) (listId : Uuid) :
    OpsAll known (space.removeLocalCopy listId) := by
  unfold SharedSpace.removeLocalCopy
  split
  · exact h
  · intro key op hlookup
    exact h key op (Table.lookup_of_lookup_select hlookup)

variable (hrejected : ∀ op code, known op → known { op with status := .rejected, errorCode := some code })
include hrejected

theorem OpsAll.rejectListed (h : OpsAll known space) {ops : List SharedOpRecord}
    (hops : ∀ op ∈ ops, known op) (rejected : List (Uuid × String)) :
    OpsAll known (space.rejectListed ops rejected) := by
  unfold SharedSpace.rejectListed
  induction rejected generalizing space with
  | nil => exact h
  | cons entry rest ih =>
      rw [List.foldl_cons]
      refine ih ?_
      split
      · rename_i op hfound
        exact h.putOp (hrejected op entry.2 (hops op (List.mem_of_find?_eq_some hfound)))
      · exact h

theorem OpsAll.applyRebase (h : OpsAll known space) (record : SharedListRecord) :
    OpsAll known (applyRebase space record) := by
  unfold ShishiTodo.applyRebase
  split
  · exact h
  · refine OpsAll.of_outbox_eq (OpsAll.foldl_deleteOp ?_ _) rfl
    exact h.rejectListed hrejected (fun op hmem => h.of_mem hmem) _

theorem OpsAll.rejectPending (h : OpsAll known space) (listId : Uuid) (code : String)
    (only : Option Uuid) : OpsAll known (space.rejectPending listId code only) := by
  unfold SharedSpace.rejectPending
  have hops : ∀ op ∈ space.ops listId, known op := fun op hmem => h.of_mem hmem
  generalize space.ops listId = ops at hops
  induction ops generalizing space with
  | nil => exact h
  | cons op rest ih =>
      rw [List.foldl_cons]
      refine ih ?_ (fun other hmem => hops other (List.mem_cons_of_mem op hmem))
      split
      · exact h.putOp (hrejected op code (hops op List.mem_cons_self))
      · exact h

theorem OpsAll.rejectOps (h : OpsAll known space) (listId : Uuid) (code : String)
    (only : Option Uuid) : OpsAll known (space.rejectOps listId code only) := by
  unfold SharedSpace.rejectOps
  split
  · exact h
  · exact (h.rejectPending hrejected listId code only).applyRebase hrejected _

theorem OpsAll.loseAccess (h : OpsAll known space) (listId : Uuid) (access : ListAccess)
    (code : String) : OpsAll known (space.loseAccess listId access code) := by
  unfold SharedSpace.loseAccess
  split
  · exact h
  · refine OpsAll.applyRebase hrejected ?_ _
    exact (h.rejectPending hrejected listId code none).putList _

theorem OpsAll.pulled (h : OpsAll known space) (listId : Uuid) (snapshot : SharedSnapshot)
    (now : Instant) : OpsAll known (space.pulled listId snapshot now) := by
  unfold SharedSpace.pulled
  dsimp only
  split
  · exact h
  · exact (h.putList _).applyRebase hrejected _

theorem OpsAll.settle (h : OpsAll known space) (listId : Uuid) (op : SharedOpRecord)
    (expected : Int) (applied : Option SharedTask) (now : Instant) :
    OpsAll known (space.settle listId op expected applied now) := by
  unfold SharedSpace.settle
  dsimp only
  have hdropped := h.deleteOp op.opId
  split
  · exact hdropped
  · split
    · exact (hdropped.putList _).applyRebase hrejected _
    · exact hdropped.applyRebase hrejected _

theorem OpsAll.pushFailed (h : OpsAll known space) (op : SharedOpRecord) (expected : Int)
    (error : AppError) (now : Instant) : OpsAll known (space.pushFailed op expected error now) := by
  unfold SharedSpace.pushFailed
  split
  · exact h.loseAccess hrejected _ _ _
  · split
    · exact h
    · split
      · exact h.rejectOps hrejected _ _ _
      · split
        · exact h.settle hrejected _ _ _ _ _
        · exact h.rejectOps hrejected _ _ _

theorem OpsAll.enqueue (h : OpsAll known space) {listId opId taskId : Uuid} {kind : SharedOpKind}
    {patch base : SharedTaskPatch} {now : Instant}
    (hnew : ∀ op : SharedOpRecord, op.opId = opId → op.listId = listId → op.taskId = taskId →
      known op) :
    OpsAll known (space.enqueue listId opId taskId kind patch base now) := by
  unfold SharedSpace.enqueue
  split
  · exact h
  · refine OpsAll.applyRebase hrejected (OpsAll.putOp ?_ (hnew _ rfl rfl rfl)) _
    exact h.of_outbox_eq rfl

theorem OpsAll.discardOp (h : OpsAll known space) (listId opId : Uuid) :
    OpsAll known (space.discardOp listId opId) := by
  unfold SharedSpace.discardOp
  dsimp only
  split
  · exact (h.deleteOp opId).applyRebase hrejected _
  · exact h.deleteOp opId

end Ops

/-- The engine has made the operation, for its list and its task. -/
def Issued (issued : Table Uuid (Uuid × Uuid)) (op : SharedOpRecord) : Prop :=
  issued.lookup op.opId = some (op.listId, op.taskId)

section Issued

variable {issued : Table Uuid (Uuid × Uuid)} {space : SharedSpace}

theorem OpsAll.insert (h : OpsAll (Issued issued) space) {opId : Uuid} (value : Uuid × Uuid)
    (hnew : issued.lookup opId = none) : OpsAll (Issued (issued.insert opId value)) space := by
  intro key op hlookup
  have hop := h key op hlookup
  have hne : op.opId ≠ opId := by
    intro heq
    rw [Issued, heq, hnew] at hop
    cases hop
  rw [Issued, AList.lookup_insert_ne hne]
  exact hop

theorem OpsAll.answered (h : OpsAll (Issued issued) space) (call : EngineCall)
    (answer : ApiResult SharedResponse) (now : Instant) :
    OpsAll (Issued issued) (space.answered call answer now) := by
  have hrejected : ∀ (op : SharedOpRecord) code, Issued issued op →
      Issued issued { op with status := .rejected, errorCode := some code } := fun _ _ hop => hop
  unfold SharedSpace.answered
  split
  · exact h.settle hrejected _ _ _ _ _
  · exact h.pushFailed hrejected _ _ _ _
  · exact h.pulled hrejected _ _ _
  · split
    · exact h.loseAccess hrejected _ _ _
    · exact h
  · rename_i summaries
    unfold SharedSpace.indexed
    suffices hfold : ∀ next, OpsAll (Issued issued) next →
        OpsAll (Issued issued) (summaries.foldl _ next) from hfold space h
    induction summaries with
    | nil => exact fun next hnext => hnext
    | cons summary rest ih => exact fun next hnext => ih _ (hnext.putList _)
  · exact h.putList _
  · exact h.putList _
  · exact h

theorem OpsAll.retryOp (h : OpsAll (Issued issued) space) (listId opId : Uuid) :
    OpsAll (Issued issued) (space.retryOp listId opId) := by
  unfold SharedSpace.retryOp
  split
  · rename_i record op _ hfound
    have hop : Issued issued op := h.of_mem (List.mem_of_find?_eq_some hfound)
    split
    · split
      · have hseq : OpsAll (Issued issued) { space with outboxSeq := space.outboxSeq + 1 } :=
          h.of_outbox_eq rfl
        refine OpsAll.applyRebase (fun _ _ hop => hop) (hseq.putOp ?_) record
        exact hop
      · exact h
    · exact h
  · exact h

/-- A local edit keeps the rest and adds at most its own operation. -/
theorem OpsAll.edit {listId opId taskId : Uuid} (h : OpsAll (Issued issued) space)
    (hlookup : issued.lookup opId = some (listId, taskId)) (kind : SharedOpKind)
    (patch base : SharedTaskPatch) (now : Instant) :
    OpsAll (Issued issued) (space.enqueue listId opId taskId kind patch base now) := by
  refine h.enqueue (fun _ _ hop => hop) ?_
  rintro op rfl rfl rfl
  exact hlookup

theorem OpsAll.createTask {listId opId taskId : Uuid} (h : OpsAll (Issued issued) space)
    (hlookup : issued.lookup opId = some (listId, taskId)) (input : NewSharedTask) (now : Instant) :
    OpsAll (Issued issued) (space.createTask listId opId taskId input now) := by
  unfold SharedSpace.createTask
  dsimp only
  split
  · exact h
  · exact h.edit hlookup _ _ _ _

theorem OpsAll.updateTask {listId opId taskId : Uuid} (h : OpsAll (Issued issued) space)
    (hlookup : issued.lookup opId = some (listId, taskId)) (patch : SharedTaskPatch) (now : Instant) :
    OpsAll (Issued issued) (space.updateTask listId opId taskId patch now) := by
  unfold SharedSpace.updateTask
  split
  · split
    · exact h
    · exact h.edit hlookup _ _ _ _
  · exact h

theorem OpsAll.deleteTask {listId opId taskId : Uuid} (h : OpsAll (Issued issued) space)
    (hlookup : issued.lookup opId = some (listId, taskId)) (now : Instant) :
    OpsAll (Issued issued) (space.deleteTask listId opId taskId now) := by
  unfold SharedSpace.deleteTask
  split
  · exact h.edit hlookup _ _ _ _
  · exact h

end Issued

end ShishiTodo
