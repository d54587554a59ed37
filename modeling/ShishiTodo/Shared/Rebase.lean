import ShishiTodo.Lib.Refusals
import ShishiTodo.Shared.Session

/-!
# Rebasing the outbox

`rebaseSharedTasks` as a queue worked off over the copy: an operation takes effect, or it is rejected or dropped and leaves the tasks as they are. `applyRebase` marks the rejected ones and removes the dropped ones, and rebasing what is left comes to the same tasks.
-/

namespace ShishiTodo

open Lib

/-! ### One operation -/

/-- What becomes of an operation without effect. -/
inductive Refusal where
  | rejected (code : String)
  | dropped
  deriving DecidableEq, Repr

/-- The effect of an operation on the tasks. -/
def rebaseStep (listId : Uuid) (offset : Nat) (rows : List SharedTaskRecord) (op : SharedOpRecord) :
    Except Refusal (List SharedTaskRecord) :=
  if op.status ≠ .pending then .ok rows
  else match op.kind, rows.find? fun row => row.task.id == op.taskId with
    | .create, some current => .ok (setTask { current with pending := true } rows)
    | .create, none => .ok (setTask (createdRecord listId op offset) rows)
    | .delete, none => .error .dropped
    | .patch, none => .error (.rejected "SHARED_TASK_NOT_FOUND")
    | kind, some current =>
        if conflicts current.task op then .error (.rejected "SHARED_EDIT_CONFLICT")
        else if kind = .delete then .ok (rows.filter fun row => row.task.id != op.taskId)
        else .ok (setTask { current with task := current.task.overlay op.patch, pending := true } rows)

/-- The rejections among the refusals, as they are reported. -/
def rejections (refused : List (SharedOpRecord × Refusal)) : List (Uuid × String) :=
  refused.filterMap fun entry =>
    match entry.2 with
    | .rejected code => some (entry.1.opId, code)
    | .dropped => none

def drops (refused : List (SharedOpRecord × Refusal)) : List Uuid :=
  refused.filterMap fun entry =>
    match entry.2 with
    | .rejected _ => none
    | .dropped => some entry.1.opId

section

variable {listId : Uuid} {offset : Nat}

theorem rebaseOp_eq (result : RebaseResult) (op : SharedOpRecord) :
    rebaseOp listId offset result op =
      match rebaseStep listId offset result.tasks op with
      | .ok rows => { result with tasks := rows }
      | .error (.rejected code) => { result with rejected := result.rejected ++ [(op.opId, code)] }
      | .error .dropped => { result with dropped := result.dropped ++ [op.opId] } := by
  unfold rebaseOp rebaseStep
  by_cases hstatus : op.status ≠ .pending
  · rw [if_pos hstatus, if_pos hstatus]
  · rw [if_neg hstatus, if_neg hstatus]
    cases hfind : result.tasks.find? fun row => row.task.id == op.taskId with
    | none =>
        cases hkind : op.kind with
        | create => rfl
        | patch => rfl
        | delete => rfl
    | some current =>
        by_cases hconflicts : conflicts current.task op
        · cases hkind : op.kind with
          | create => rfl
          | patch => simp only [if_pos hconflicts]
          | delete => simp only [if_pos hconflicts]
        · cases hkind : op.kind with
          | create => rfl
          | patch => simp only [if_neg hconflicts, reduceCtorEq, if_false]
          | delete => simp only [if_neg hconflicts, if_true]

/-- The loop is a queue worked off. -/
theorem foldl_rebaseOp (ops : List SharedOpRecord) (result : RebaseResult) :
    ops.foldl (rebaseOp listId offset) result =
      { tasks := (workOff (rebaseStep listId offset) result.tasks ops).1
        rejected := result.rejected ++ rejections (workOff (rebaseStep listId offset) result.tasks ops).2
        dropped := result.dropped ++ drops (workOff (rebaseStep listId offset) result.tasks ops).2 } := by
  induction ops generalizing result with
  | nil => simp [workOff, rejections, drops]
  | cons op rest ih =>
      rw [List.foldl_cons, rebaseOp_eq]
      cases hstep : rebaseStep listId offset result.tasks op with
      | ok rows =>
          rw [workOff_ok hstep]
          exact ih _
      | error refusal =>
          rw [workOff_error hstep]
          cases refusal with
          | rejected code =>
              refine (ih _).trans ?_
              simp [rejections, drops]
          | dropped =>
              refine (ih _).trans ?_
              simp [rejections, drops]

end

/-- The rows of the copy, each in its place. -/
def shadowRows (shadow : List SharedTask) : List SharedTaskRecord :=
  shadow.zipIdx.foldl (fun working entry =>
    setTask { task := entry.1, position := entry.2, pending := false } working) []

/-- Working the operations off over the rows of the copy. -/
def workedOff (listId : Uuid) (shadow : List SharedTask) (ops : List SharedOpRecord) :
    List SharedTaskRecord × List (SharedOpRecord × Refusal) :=
  workOff (rebaseStep listId shadow.length) (shadowRows shadow) ops

theorem rebaseSharedTasks_of_sorted {listId : Uuid} {shadow : List SharedTask} {ops : List SharedOpRecord}
    (hsorted : ops.Pairwise fun left right => left.seq ≤ right.seq) :
    rebaseSharedTasks listId shadow ops =
      { tasks := (workedOff listId shadow ops).1.insertionSort fun left right => left.position ≤ right.position
        rejected := rejections (workedOff listId shadow ops).2
        dropped := drops (workedOff listId shadow ops).2 } := by
  have hops : ops.insertionSort (fun left right => left.seq ≤ right.seq) = ops := hsorted.insertionSort_eq
  simp only [rebaseSharedTasks, hops, foldl_rebaseOp, List.nil_append]
  rfl

/-! ### The outbox -/

/-- Each operation stands under its identifier, and no two have one number. -/
structure SharedSpace.Sequenced (space : SharedSpace) : Prop where
  keyed : ∀ key op, space.outbox.lookup key = some op → op.opId = key
  numbered : ∀ key op, space.outbox.lookup key = some op → op.seq ≤ space.outboxSeq
  apart : ∀ key other op found, space.outbox.lookup key = some op → space.outbox.lookup other = some found →
    op.seq = found.seq → key = other

section

variable {space : SharedSpace} {listId : Uuid}

theorem SharedSpace.Sequenced.mem_ops (h : space.Sequenced) {op : SharedOpRecord} :
    op ∈ space.ops listId ↔ space.outbox.lookup op.opId = some op ∧ op.listId = listId := by
  rw [SharedSpace.ops, List.mem_insertionSort, List.mem_filter, List.mem_map, beq_iff_eq]
  refine and_congr_left fun _ => ?_
  constructor
  · intro hmem
    obtain ⟨⟨key, found⟩, hentry, rfl⟩ := hmem
    have hlookup := Table.mem_entries_iff.mp hentry
    rw [h.keyed key found hlookup]
    exact hlookup
  · intro hlookup
    exact ⟨⟨op.opId, op⟩, Table.mem_entries_iff.mpr hlookup, rfl⟩

theorem ops_sorted (space : SharedSpace) (listId : Uuid) :
    (space.ops listId).Pairwise fun left right => left.seq ≤ right.seq :=
  List.pairwise_insertionSort _ _

theorem SharedSpace.Sequenced.nodup_ops (h : space.Sequenced) (listId : Uuid) : (space.ops listId).Nodup := by
  refine (List.perm_insertionSort _ _).nodup_iff.mpr (List.Nodup.filter _ ?_)
  refine List.Nodup.map_on ?_ space.outbox.nodupKeys.nodup
  rintro ⟨key, op⟩ hentry ⟨other, found⟩ hother (rfl : op = found)
  have hkey := h.keyed key op (Table.mem_entries_iff.mp hentry)
  have hotherKey := h.keyed other op (Table.mem_entries_iff.mp hother)
  rw [← hkey, ← hotherKey]

/-- The operations of a list are numbered upwards. -/
theorem SharedSpace.Sequenced.ops_increasing (h : space.Sequenced) (listId : Uuid) :
    (space.ops listId).Pairwise fun left right => left.seq < right.seq := by
  have hdistinct : (space.ops listId).Pairwise fun left right => left ≠ right := h.nodup_ops listId
  refine ((ops_sorted space listId).and hdistinct).imp_of_mem fun hleft hright hboth => ?_
  refine lt_of_le_of_ne hboth.1 fun hseq => hboth.2 ?_
  obtain ⟨hleft, -⟩ := h.mem_ops.mp hleft
  obtain ⟨hright, -⟩ := h.mem_ops.mp hright
  have hkeys := h.apart _ _ _ _ hleft hright hseq
  rw [hkeys, hright] at hleft
  exact (Option.some.inj hleft).symm

/-- A list that is numbered upwards and has these operations is what the outbox gives. -/
theorem SharedSpace.Sequenced.ops_eq (h : space.Sequenced) {ops : List SharedOpRecord}
    (hincreasing : ops.Pairwise fun left right => left.seq < right.seq)
    (hmem : ∀ op, op ∈ ops ↔ space.outbox.lookup op.opId = some op ∧ op.listId = listId) :
    space.ops listId = ops := by
  have hnodup : ops.Nodup := hincreasing.imp fun hlt heq => (heq ▸ hlt).false
  have hperm : (space.ops listId).Perm ops :=
    (List.perm_ext_iff_of_nodup (h.nodup_ops listId) hnodup).mpr fun op => h.mem_ops.trans (hmem op).symm
  exact hperm.eq_of_pairwise (fun _ _ _ _ hlt hgt => absurd (hlt.trans hgt) (lt_irrefl _))
    (h.ops_increasing listId) hincreasing

/-- The operation of the list that stands under a key. -/
theorem SharedSpace.Sequenced.find_ops (h : space.Sequenced) {op : SharedOpRecord}
    (hop : space.outbox.lookup op.opId = some op) (hlist : op.listId = listId) :
    (space.ops listId).find? (fun other => other.opId == op.opId) = some op := by
  have hmem := h.mem_ops.mpr ⟨hop, hlist⟩
  cases hfound : (space.ops listId).find? fun other => other.opId == op.opId with
  | none => simpa using List.find?_eq_none.mp hfound op hmem
  | some found =>
      have hid : found.opId = op.opId := by simpa using List.find?_some hfound
      obtain ⟨hlookup, -⟩ := h.mem_ops.mp (List.mem_of_find?_eq_some hfound)
      rw [hid, hop] at hlookup
      exact hlookup.symm

end

/-! ### What a rebase leaves -/

/-- The operation after the rebase: marked, gone, or as before. -/
def RebaseResult.mark (result : RebaseResult) (op : SharedOpRecord) : Option SharedOpRecord :=
  if op.opId ∈ result.dropped then none
  else match result.rejected.find? fun entry => entry.1 == op.opId with
    | some entry => some { op with status := .rejected, errorCode := some entry.2 }
    | none => some op

theorem lookup_rejectListed {ops : List SharedOpRecord} {rejected : List (Uuid × String)}
    (hnodup : (rejected.map Prod.fst).Nodup) (space : SharedSpace) (key : Uuid) :
    (space.rejectListed ops rejected).outbox.lookup key =
      match rejected.find? (fun entry => entry.1 == key), ops.find? (fun op => op.opId == key) with
      | some entry, some op => some { op with status := .rejected, errorCode := some entry.2 }
      | _, _ => space.outbox.lookup key := by
  unfold SharedSpace.rejectListed
  induction rejected generalizing space with
  | nil => rfl
  | cons entry rest ih =>
      rw [List.map_cons, List.nodup_cons] at hnodup
      rw [List.foldl_cons, ih hnodup.2, List.find?_cons]
      by_cases hkey : entry.1 = key
      · have hrest : rest.find? (fun other => other.1 == key) = none := by
          refine List.find?_eq_none.mpr fun other hother hsame => hnodup.1 ?_
          rw [hkey, ← beq_iff_eq.mp hsame]
          exact List.mem_map_of_mem hother
        rw [hrest, beq_iff_eq.mpr hkey, hkey]
        cases hop : ops.find? fun op => op.opId == key with
        | none => rfl
        | some op =>
            have hid : op.opId = key := by simpa using List.find?_some hop
            simp only [SharedSpace.putOp, Table.lookup_insert_eq_ite, hid, if_true]
      · have hskip : (entry.1 == key) = false := beq_eq_false_iff_ne.mpr hkey
        rw [hskip]
        cases hop : ops.find? fun op => op.opId == entry.1 with
        | none => rfl
        | some op =>
            have hid : op.opId = entry.1 := by simpa using List.find?_some hop
            simp only [SharedSpace.putOp, Table.lookup_insert_eq_ite, hid, if_neg (Ne.symm hkey)]

theorem lookup_foldl_deleteOp (dropped : List Uuid) (space : SharedSpace) (key : Uuid) :
    (dropped.foldl SharedSpace.deleteOp space).outbox.lookup key =
      if key ∈ dropped then none else space.outbox.lookup key := by
  induction dropped generalizing space with
  | nil => rfl
  | cons opId rest ih =>
      rw [List.foldl_cons, ih, SharedSpace.deleteOp, Table.lookup_erase_eq_ite]
      by_cases hkey : key = opId
      · simp [hkey]
      · simp [hkey]

theorem rejections_sublist (refused : List (SharedOpRecord × Refusal)) :
    ((rejections refused).map Prod.fst).Sublist (refused.map fun entry => entry.1.opId) := by
  induction refused with
  | nil => exact .slnil
  | cons entry rest ih =>
      obtain ⟨op, refusal⟩ := entry
      cases refusal with
      | rejected code => exact ih.cons_cons op.opId
      | dropped => exact ih.cons op.opId

theorem drops_sublist (refused : List (SharedOpRecord × Refusal)) :
    (drops refused).Sublist (refused.map fun entry => entry.1.opId) := by
  induction refused with
  | nil => exact .slnil
  | cons entry rest ih =>
      obtain ⟨op, refusal⟩ := entry
      cases refusal with
      | rejected code => exact ih.cons op.opId
      | dropped => exact ih.cons_cons op.opId

/-- What is rejected or dropped is in the one list or the other. -/
theorem mem_refused {refused : List (SharedOpRecord × Refusal)} {op : SharedOpRecord}
    (h : op ∈ refused.map Prod.fst) :
    op.opId ∈ (rejections refused).map Prod.fst ∨ op.opId ∈ drops refused := by
  obtain ⟨⟨found, refusal⟩, hentry, rfl⟩ := List.mem_map.mp h
  cases refusal with
  | rejected code => exact .inl (List.mem_map.mpr ⟨_, List.mem_filterMap.mpr ⟨_, hentry, rfl⟩, rfl⟩)
  | dropped => exact .inr (List.mem_filterMap.mpr ⟨_, hentry, rfl⟩)

section

variable {space : SharedSpace} {record : SharedListRecord} {shadow : SharedShadow}

/-- The rebase of a list in the store. -/
def SharedSpace.rebased (space : SharedSpace) (listId : Uuid) (tasks : List SharedTask) : RebaseResult :=
  rebaseSharedTasks listId tasks (space.ops listId)

theorem SharedSpace.rebased_eq (space : SharedSpace) (listId : Uuid) (tasks : List SharedTask) :
    space.rebased listId tasks =
      let worked := workedOff listId tasks (space.ops listId)
      { tasks := worked.1.insertionSort fun left right => left.position ≤ right.position
        rejected := rejections worked.2
        dropped := drops worked.2 } :=
  rebaseSharedTasks_of_sorted (ops_sorted space listId)

theorem SharedSpace.Sequenced.nodup_opIds (h : space.Sequenced) (listId : Uuid) :
    ((space.ops listId).map SharedOpRecord.opId).Nodup := by
  refine List.Nodup.map_on (fun op hop other hother hid => ?_) (h.nodup_ops listId)
  obtain ⟨hlookup, -⟩ := h.mem_ops.mp hop
  obtain ⟨hotherLookup, -⟩ := h.mem_ops.mp hother
  rw [hid, hotherLookup] at hlookup
  exact (Option.some.inj hlookup).symm

theorem refused_ids (space : SharedSpace) (listId : Uuid) (tasks : List SharedTask) :
    ((workedOff listId tasks (space.ops listId)).2.map fun entry => entry.1.opId).Sublist
      ((space.ops listId).map SharedOpRecord.opId) := by
  have hsub := (refused_sublist (rebaseStep listId tasks.length) (shadowRows tasks)
    (space.ops listId)).map SharedOpRecord.opId
  rwa [List.map_map] at hsub

/-- The outbox after `applyRebase`. -/
theorem SharedSpace.Sequenced.lookup_applyRebase (h : space.Sequenced) (hsnapshot : record.snapshot = some shadow)
    (key : Uuid) :
    (applyRebase space record).outbox.lookup key =
      (space.outbox.lookup key).bind fun op =>
        if op.listId = record.id then (space.rebased record.id shadow.tasks).mark op else some op := by
  have hids := refused_ids space record.id shadow.tasks
  have hrejected : ((space.rebased record.id shadow.tasks).rejected.map Prod.fst).Sublist
      ((space.ops record.id).map SharedOpRecord.opId) := by
    rw [SharedSpace.rebased_eq]
    exact (rejections_sublist _).trans hids
  have hdropped : (space.rebased record.id shadow.tasks).dropped.Sublist
      ((space.ops record.id).map SharedOpRecord.opId) := by
    rw [SharedSpace.rebased_eq]
    exact (drops_sublist _).trans hids
  have hafter : (applyRebase space record).outbox.lookup key =
      if key ∈ (space.rebased record.id shadow.tasks).dropped then none
      else (space.rejectListed (space.ops record.id)
        (space.rebased record.id shadow.tasks).rejected).outbox.lookup key := by
    rw [← lookup_foldl_deleteOp]
    simp only [applyRebase, hsnapshot]
    rfl
  rw [hafter, lookup_rejectListed (hrejected.nodup (h.nodup_opIds _))]
  generalize hresult : space.rebased record.id shadow.tasks = result at hrejected hdropped ⊢
  -- Only operations of the list are marked or dropped.
  have hof : ∀ opId ∈ (space.ops record.id).map SharedOpRecord.opId,
      ∃ op, space.outbox.lookup opId = some op ∧ op.listId = record.id := by
    intro opId hmem
    obtain ⟨op, hop, rfl⟩ := List.mem_map.mp hmem
    exact ⟨op, h.mem_ops.mp hop⟩
  cases hlookup : space.outbox.lookup key with
  | none =>
      have hunlisted : key ∉ (space.ops record.id).map SharedOpRecord.opId := by
        intro hmem
        obtain ⟨op, hop, -⟩ := hof key hmem
        rw [hlookup] at hop
        cases hop
      rw [if_neg fun hmem => hunlisted (hdropped.subset hmem)]
      have hnone : result.rejected.find? (fun entry => entry.1 == key) = none := by
        refine List.find?_eq_none.mpr fun entry hentry hsame => hunlisted (hrejected.subset ?_)
        rw [← beq_iff_eq.mp hsame]
        exact List.mem_map_of_mem hentry
      rw [hnone]
      rfl
  | some op =>
      have hkey := h.keyed key op hlookup
      subst hkey
      rw [Option.bind_some]
      split
      · rename_i hdrop
        obtain ⟨found, hfound, hlist⟩ := hof op.opId (hdropped.subset hdrop)
        rw [hlookup] at hfound
        cases hfound
        rw [if_pos hlist, RebaseResult.mark, if_pos hdrop]
      · rename_i hdrop
        by_cases hlist : op.listId = record.id
        · rw [if_pos hlist, RebaseResult.mark, if_neg hdrop, h.find_ops hlookup hlist]
          cases result.rejected.find? fun entry => entry.1 == op.opId with
          | none => rfl
          | some entry => rfl
        · rw [if_neg hlist]
          have hnone : result.rejected.find? (fun entry => entry.1 == op.opId) = none := by
            refine List.find?_eq_none.mpr fun entry hentry hsame => hlist ?_
            have hmem : op.opId ∈ (space.ops record.id).map SharedOpRecord.opId := by
              refine hrejected.subset ?_
              rw [← beq_iff_eq.mp hsame]
              exact List.mem_map_of_mem hentry
            obtain ⟨found, hfound, hof⟩ := hof op.opId hmem
            rw [hlookup] at hfound
            cases hfound
            exact hof
          rw [hnone]

theorem RebaseResult.mark_opId {result : RebaseResult} {op marked : SharedOpRecord}
    (h : result.mark op = some marked) :
    marked.opId = op.opId ∧ marked.seq = op.seq ∧ marked.listId = op.listId := by
  unfold RebaseResult.mark at h
  split at h
  · cases h
  · split at h
    · cases h
      exact ⟨rfl, rfl, rfl⟩
    · cases h
      exact ⟨rfl, rfl, rfl⟩

/-- Operations that stand where they stood, under their numbers. -/
theorem SharedSpace.Sequenced.of_lookup (h : space.Sequenced) {next : SharedSpace}
    (hseq : space.outboxSeq ≤ next.outboxSeq)
    (hsub : ∀ key op, next.outbox.lookup key = some op →
      ∃ old, space.outbox.lookup key = some old ∧ op.opId = old.opId ∧ op.seq = old.seq) :
    next.Sequenced where
  keyed := by
    intro key op hlookup
    obtain ⟨old, hold, hid, -⟩ := hsub key op hlookup
    rw [hid]
    exact h.keyed key old hold
  numbered := by
    intro key op hlookup
    obtain ⟨old, hold, -, hnumber⟩ := hsub key op hlookup
    rw [hnumber]
    exact (h.numbered key old hold).trans hseq
  apart := by
    intro key other op found hlookup hother hsame
    obtain ⟨old, hold, -, hnumber⟩ := hsub key op hlookup
    obtain ⟨otherOld, hotherOld, -, hotherNumber⟩ := hsub other found hother
    refine h.apart key other old otherOld hold hotherOld ?_
    rw [← hnumber, ← hotherNumber]
    exact hsame

theorem SharedSpace.Sequenced.applyRebase (h : space.Sequenced) (record : SharedListRecord) :
    (applyRebase space record).Sequenced := by
  cases hsnapshot : record.snapshot with
  | none =>
      rw [ShishiTodo.applyRebase, hsnapshot]
      exact h
  | some shadow =>
      refine h.of_lookup ?_ fun key op hlookup => ?_
      · have hfold : ∀ (dropped : List Uuid) (space : SharedSpace),
            (dropped.foldl SharedSpace.deleteOp space).outboxSeq = space.outboxSeq := by
          intro dropped
          induction dropped with
          | nil => exact fun _ => rfl
          | cons opId rest ih => exact fun space => ih (space.deleteOp opId)
        have hmarked : ∀ (ops : List SharedOpRecord) (rejected : List (Uuid × String)) (space : SharedSpace),
            (space.rejectListed ops rejected).outboxSeq = space.outboxSeq := by
          intro ops rejected
          induction rejected with
          | nil => exact fun _ => rfl
          | cons entry rest ih =>
              intro space
              refine (ih _).trans ?_
              beta_reduce
              split
              · rfl
              · rfl
        simp only [ShishiTodo.applyRebase, hsnapshot, SharedSpace.replaceTasks, hfold, hmarked, le_refl]
      · rw [h.lookup_applyRebase hsnapshot] at hlookup
        obtain ⟨old, hold, hop⟩ := Option.bind_eq_some_iff.mp hlookup
        refine ⟨old, hold, ?_⟩
        split at hop
        · exact ⟨(RebaseResult.mark_opId hop).1, (RebaseResult.mark_opId hop).2.1⟩
        · cases hop
          exact ⟨rfl, rfl⟩

/-- The operations that a rebase leaves. -/
theorem SharedSpace.Sequenced.ops_applyRebase (h : space.Sequenced) (hsnapshot : record.snapshot = some shadow) :
    (ShishiTodo.applyRebase space record).ops record.id =
      (space.ops record.id).filterMap (space.rebased record.id shadow.tasks).mark := by
  refine (h.applyRebase record).ops_eq ?_ fun op => ?_
  · refine List.Pairwise.filterMap _ ?_ (h.ops_increasing record.id)
    intro left right hlt first hfirst second hsecond
    rw [(RebaseResult.mark_opId hfirst).2.1, (RebaseResult.mark_opId hsecond).2.1]
    exact hlt
  · rw [List.mem_filterMap, h.lookup_applyRebase hsnapshot]
    constructor
    · intro hmem
      obtain ⟨old, hold, hmark⟩ := hmem
      obtain ⟨hlookup, hlist⟩ := h.mem_ops.mp hold
      obtain ⟨hid, -, hof⟩ := RebaseResult.mark_opId hmark
      rw [hid, hlookup, Option.bind_some, if_pos hlist, hmark, hof]
      exact ⟨rfl, hlist⟩
    · intro hafter
      obtain ⟨hlookup, hlist⟩ := hafter
      obtain ⟨old, hold, hop⟩ := Option.bind_eq_some_iff.mp hlookup
      have hkey := h.keyed _ _ hold
      split at hop
      · rename_i hof
        rw [← hkey] at hold
        exact ⟨old, h.mem_ops.mpr ⟨hold, hof⟩, hop⟩
      · rename_i hof
        cases hop
        exact absurd hlist hof

/-- An operation that nothing is said of stays, and one that is refused has no effect any more. -/
theorem mark_refused (h : space.Sequenced) (listId : Uuid) (tasks : List SharedTask) {op : SharedOpRecord}
    (hop : op ∈ space.ops listId) :
    (op ∉ (workedOff listId tasks (space.ops listId)).2.map Prod.fst →
      (space.rebased listId tasks).mark op = some op) ∧
    (op ∈ (workedOff listId tasks (space.ops listId)).2.map Prod.fst →
      ∀ other, (space.rebased listId tasks).mark op = some other → other.status = .rejected) := by
  rw [SharedSpace.rebased_eq]
  dsimp only
  have hin := refused_sublist (rebaseStep listId tasks.length) (shadowRows tasks) (space.ops listId)
  generalize hworked : (workedOff listId tasks (space.ops listId)).2 = refused
  rw [workedOff] at hworked
  rw [hworked] at hin
  constructor
  · intro hkept
    have hunlisted : op.opId ∉ refused.map fun entry => entry.1.opId := by
      intro hmem
      obtain ⟨entry, hentry, hid⟩ := List.mem_map.mp hmem
      have hentryOps := hin.subset (List.mem_map_of_mem hentry)
      have hsame := List.inj_on_of_nodup_map (h.nodup_opIds listId) hentryOps hop hid
      exact hkept (List.mem_map.mpr ⟨entry, hentry, hsame⟩)
    rw [RebaseResult.mark, if_neg fun hmem => hunlisted ((drops_sublist refused).subset hmem)]
    have hnone : (rejections refused).find? (fun entry => entry.1 == op.opId) = none := by
      refine List.find?_eq_none.mpr fun entry hentry hsame => hunlisted ((rejections_sublist refused).subset ?_)
      rw [← beq_iff_eq.mp hsame]
      exact List.mem_map_of_mem hentry
    simp only [hnone]
  · intro hrefused other hmark
    rw [RebaseResult.mark] at hmark
    split at hmark
    · cases hmark
    · rename_i hdrop
      obtain hrejected | hdropped := mem_refused hrefused
      · obtain ⟨entry, hentry, hid⟩ := List.mem_map.mp hrejected
        cases hfound : (rejections refused).find? fun entry => entry.1 == op.opId with
        | none => simpa [hid] using List.find?_eq_none.mp hfound entry hentry
        | some found =>
            simp only [hfound] at hmark
            cases hmark
            rfl
      · exact absurd hdropped hdrop

/-- Of what a rebase left, nothing is refused, and the rows are the same. -/
theorem SharedSpace.Sequenced.workedOff_again (h : space.Sequenced) (hsnapshot : record.snapshot = some shadow) :
    workedOff record.id shadow.tasks ((ShishiTodo.applyRebase space record).ops record.id) =
      ((workedOff record.id shadow.tasks (space.ops record.id)).1, []) := by
  rw [h.ops_applyRebase hsnapshot]
  refine workOff_remaining (h.nodup_ops record.id) (fun op hop => (mark_refused h _ _ hop).1) ?_
  intro op hop other hmark rows
  have hin : op ∈ space.ops record.id := (refused_sublist _ _ _).subset hop
  have hstatus := (mark_refused h record.id shadow.tasks hin).2 hop other hmark
  rw [rebaseStep, if_pos (by rw [hstatus]; exact nofun)]

/-- Rebasing what a rebase left comes to the same tasks, rejects nothing and drops nothing. -/
theorem SharedSpace.Sequenced.rebased_again (h : space.Sequenced) (hsnapshot : record.snapshot = some shadow) :
    (ShishiTodo.applyRebase space record).rebased record.id shadow.tasks =
      { tasks := (space.rebased record.id shadow.tasks).tasks
        rejected := []
        dropped := [] } := by
  rw [SharedSpace.rebased_eq, h.workedOff_again hsnapshot, SharedSpace.rebased_eq]
  rfl

end

/-! ### Every store has such an outbox -/

namespace SharedSpace.Sequenced

variable {space : SharedSpace}

theorem of_same (h : space.Sequenced) {next : SharedSpace} (houtbox : next.outbox = space.outbox)
    (hseq : next.outboxSeq = space.outboxSeq) : next.Sequenced := by
  refine h.of_lookup hseq.ge fun key op hlookup => ?_
  rw [houtbox] at hlookup
  exact ⟨op, hlookup, rfl, rfl⟩

theorem putList (h : space.Sequenced) (record : SharedListRecord) : (space.putList record).Sequenced :=
  h.of_same rfl rfl

theorem deleteOp (h : space.Sequenced) (opId : Uuid) : (space.deleteOp opId).Sequenced := by
  refine h.of_lookup (le_refl _) fun key op hlookup => ?_
  rw [SharedSpace.deleteOp, Table.lookup_erase_eq_ite] at hlookup
  split at hlookup
  · cases hlookup
  · exact ⟨op, hlookup, rfl, rfl⟩

theorem removeLocalCopy (h : space.Sequenced) (listId : Uuid) : (space.removeLocalCopy listId).Sequenced := by
  unfold SharedSpace.removeLocalCopy
  split
  · exact h
  · exact h.of_lookup (le_refl _) fun key op hlookup => ⟨op, Table.lookup_of_lookup_select hlookup, rfl, rfl⟩

/-- An operation under the next number. -/
theorem putNext (h : space.Sequenced) {op : SharedOpRecord} (hseq : op.seq = space.outboxSeq + 1) :
    ({ space with outboxSeq := space.outboxSeq + 1 }.putOp op).Sequenced := by
  have hlookup : ∀ key found,
      ({ space with outboxSeq := space.outboxSeq + 1 }.putOp op).outbox.lookup key = some found →
      (key = op.opId ∧ found = op) ∨ (key ≠ op.opId ∧ space.outbox.lookup key = some found) := by
    intro key found hfound
    rw [putOp, Table.lookup_insert_eq_ite] at hfound
    split at hfound
    · rename_i hkey
      exact .inl ⟨hkey, (Option.some.inj hfound).symm⟩
    · rename_i hkey
      exact .inr ⟨hkey, hfound⟩
  constructor
  · intro key found hfound
    obtain ⟨rfl, rfl⟩ | ⟨-, hold⟩ := hlookup key found hfound
    · rfl
    · exact h.keyed key found hold
  · intro key found hfound
    obtain ⟨-, rfl⟩ | ⟨-, hold⟩ := hlookup key found hfound
    · exact hseq.le
    · exact (h.numbered key found hold).trans (Nat.le_succ _)
  · intro key other found second hfound hsecond hsame
    obtain ⟨hkey, hop⟩ | ⟨-, hold⟩ := hlookup key found hfound
    · obtain ⟨hother, -⟩ | ⟨-, hotherOld⟩ := hlookup other second hsecond
      · rw [hkey, hother]
      · have hnumber := h.numbered other second hotherOld
        rw [hop] at hsame
        omega
    · obtain ⟨-, hop⟩ | ⟨-, hotherOld⟩ := hlookup other second hsecond
      · have hnumber := h.numbered key found hold
        rw [hop] at hsame
        omega
      · exact h.apart key other found second hold hotherOld hsame

theorem rejectPending (h : space.Sequenced) (listId : Uuid) (code : String) (only : Option Uuid) :
    (space.rejectPending listId code only).Sequenced := by
  unfold SharedSpace.rejectPending
  have hops : ∀ op ∈ space.ops listId, ∃ old, space.outbox.lookup op.opId = some old ∧ old.seq = op.seq :=
    fun op hop => ⟨op, (h.mem_ops.mp hop).1, rfl⟩
  generalize space.ops listId = ops at hops
  induction ops generalizing space with
  | nil => exact h
  | cons op rest ih =>
      rw [List.foldl_cons]
      obtain ⟨old, hold, hnumber⟩ := hops op List.mem_cons_self
      have hrest : ∀ other ∈ rest, ∃ old, space.outbox.lookup other.opId = some old ∧ old.seq = other.seq :=
        fun other hother => hops other (List.mem_cons_of_mem op hother)
      split
      · have hput : ∀ key, (space.putOp { op with status := .rejected, errorCode := some code }).outbox.lookup key =
            if key = op.opId then some { op with status := .rejected, errorCode := some code }
            else space.outbox.lookup key := fun key => Table.lookup_insert_eq_ite _ _ _ _
        refine ih ?_ fun other hother => ?_
        · refine h.of_lookup (le_refl _) fun key found hfound => ?_
          rw [hput] at hfound
          split at hfound
          · rename_i hkey
            cases hfound
            exact ⟨old, hkey ▸ hold, (h.keyed _ _ hold).symm, hnumber.symm⟩
          · exact ⟨found, hfound, rfl, rfl⟩
        · rw [hput]
          split
          · rename_i hsame
            obtain ⟨found, hfound, hfoundSeq⟩ := hrest other hother
            rw [hsame, hold] at hfound
            cases hfound
            exact ⟨_, rfl, hnumber.symm.trans hfoundSeq⟩
          · exact hrest other hother
      · exact ih h hrest

theorem rejectOps (h : space.Sequenced) (listId : Uuid) (code : String) (only : Option Uuid) :
    (space.rejectOps listId code only).Sequenced := by
  unfold SharedSpace.rejectOps
  split
  · exact h
  · exact (h.rejectPending listId code only).applyRebase _

theorem loseAccess (h : space.Sequenced) (listId : Uuid) (access : ListAccess) (code : String) :
    (space.loseAccess listId access code).Sequenced := by
  unfold SharedSpace.loseAccess
  split
  · exact h
  · exact ((h.rejectPending listId code none).putList _).applyRebase _

theorem pulled (h : space.Sequenced) (listId : Uuid) (snapshot : SharedSnapshot) (now : Instant) :
    (space.pulled listId snapshot now).Sequenced := by
  unfold SharedSpace.pulled
  dsimp only
  split
  · exact h
  · exact (h.putList _).applyRebase _

theorem settle (h : space.Sequenced) (listId : Uuid) (op : SharedOpRecord) (expected : Int)
    (applied : Option SharedTask) (now : Instant) : (space.settle listId op expected applied now).Sequenced := by
  unfold SharedSpace.settle
  dsimp only
  split
  · exact h.deleteOp op.opId
  · split
    · exact ((h.deleteOp op.opId).putList _).applyRebase _
    · exact (h.deleteOp op.opId).applyRebase _

theorem pushFailed (h : space.Sequenced) (op : SharedOpRecord) (expected : Int) (error : AppError) (now : Instant) :
    (space.pushFailed op expected error now).Sequenced := by
  unfold SharedSpace.pushFailed
  split
  · exact h.loseAccess _ _ _
  · split
    · exact h
    · split
      · exact h.rejectOps _ _ _
      · split
        · exact h.settle _ _ _ _ _
        · exact h.rejectOps _ _ _

theorem answered (h : space.Sequenced) (call : EngineCall) (answer : ApiResult SharedResponse) (now : Instant) :
    (space.answered call answer now).Sequenced := by
  unfold SharedSpace.answered
  split
  · exact h.settle _ _ _ _ _
  · exact h.pushFailed _ _ _ _
  · exact h.pulled _ _ _
  · split
    · exact h.loseAccess _ _ _
    · exact h
  · rename_i summaries
    unfold SharedSpace.indexed
    suffices hfold : ∀ next : SharedSpace, next.Sequenced → (summaries.foldl _ next).Sequenced from hfold space h
    induction summaries with
    | nil => exact fun next hnext => hnext
    | cons summary rest ih => exact fun next hnext => ih _ (hnext.putList _)
  · exact h.putList _
  · exact h.putList _
  · exact h

theorem enqueue (h : space.Sequenced) (listId opId taskId : Uuid) (kind : SharedOpKind)
    (patch base : SharedTaskPatch) (now : Instant) :
    (space.enqueue listId opId taskId kind patch base now).Sequenced := by
  unfold SharedSpace.enqueue
  split
  · exact h
  · exact (h.putNext rfl).applyRebase _

theorem retryOp (h : space.Sequenced) (listId opId : Uuid) : (space.retryOp listId opId).Sequenced := by
  unfold SharedSpace.retryOp
  split
  · split
    · split
      · exact (h.putNext rfl).applyRebase _
      · exact h
    · exact h
  · exact h

theorem discardOp (h : space.Sequenced) (listId opId : Uuid) : (space.discardOp listId opId).Sequenced := by
  unfold SharedSpace.discardOp
  dsimp only
  split
  · exact (h.deleteOp opId).applyRebase _
  · exact h.deleteOp opId

theorem createTask (h : space.Sequenced) (listId opId taskId : Uuid) (input : NewSharedTask) (now : Instant) :
    (space.createTask listId opId taskId input now).Sequenced := by
  unfold SharedSpace.createTask
  dsimp only
  split
  · exact h
  · exact h.enqueue _ _ _ _ _ _ _

theorem updateTask (h : space.Sequenced) (listId opId taskId : Uuid) (patch : SharedTaskPatch) (now : Instant) :
    (space.updateTask listId opId taskId patch now).Sequenced := by
  unfold SharedSpace.updateTask
  split
  · split
    · exact h
    · exact h.enqueue _ _ _ _ _ _ _
  · exact h

theorem deleteTask (h : space.Sequenced) (listId opId taskId : Uuid) (now : Instant) :
    (space.deleteTask listId opId taskId now).Sequenced := by
  unfold SharedSpace.deleteTask
  split
  · exact h.enqueue _ _ _ _ _ _ _
  · exact h

end SharedSpace.Sequenced

section

variable {account : Uuid} {state : MemberState}

theorem sequenced_edited (h : state.space.Sequenced) {listId opId taskId : Uuid} {space : SharedSpace}
    (hspace : space.Sequenced) : (state.edited listId opId taskId space).space.Sequenced := by
  unfold MemberState.edited
  split
  · exact hspace
  · exact h

theorem sequenced_step (h : state.space.Sequenced) (event : MemberEvent) :
    (state.step account event).space.Sequenced := by
  cases event with
  | register userId row =>
      simp only [MemberState.step]
      split
      · exact h
      · exact h
  | serve call request =>
      simp only [MemberState.step, MemberState.serve]
      split
      · exact h
      · exact h
  | createTask listId opId taskId input now => exact sequenced_edited h (h.createTask _ _ _ _ _)
  | updateTask listId opId taskId patch now => exact sequenced_edited h (h.updateTask _ _ _ _ _)
  | deleteTask listId opId taskId now => exact sequenced_edited h (h.deleteTask _ _ _ _)
  | discardOp listId opId => exact h.discardOp _ _
  | retryOp listId opId => exact h.retryOp _ _
  | removeLocalCopy listId => exact h.removeLocalCopy _
  | selectOp listId => exact h
  | startPush =>
      simp only [MemberState.step, MemberState.pushSelected]
      split
      · exact h
      · split
        · exact h
        · exact h
  | startPull listId => exact h
  | startIndex => exact h
  | startCreateList request => exact h
  | startAccept invitationId opId => exact h
  | deliver index now newId receiptId =>
      simp only [MemberState.step, MemberState.delivered]
      split
      · exact h
      · split
        · exact h
        · exact h
  | receive index now =>
      simp only [MemberState.step, MemberState.received]
      split
      · exact h
      · split
        · exact h.answered _ _ _
        · exact h
  | lose index =>
      simp only [MemberState.step, MemberState.lost]
      split
      · exact h
      · exact h

theorem sequenced_empty : SharedSpace.empty.Sequenced where
  keyed := fun _ _ hlookup => nomatch hlookup
  numbered := fun _ _ hlookup => nomatch hlookup
  apart := fun _ _ _ _ hlookup => nomatch hlookup

/-- The outbox of every store that an engine comes to. -/
theorem sequenced_run (account : Uuid) (events : List MemberEvent) :
    ((memberRuns account).run .init events).space.Sequenced :=
  (memberRuns account).invariant (fun state _ => state.space.Sequenced)
    (fun _ _ event h => sequenced_step h event) sequenced_empty events

end

/-- The outbox of a list is the order in which its operations were last issued, and rebasing what a rebase left changes nothing. -/
structure SharedSpace.Replayable (space : SharedSpace) (listId : Uuid) : Prop where
  complete : ∀ op, op ∈ space.ops listId ↔ space.outbox.lookup op.opId = some op ∧ op.listId = listId
  increasing : (space.ops listId).Pairwise fun left right => left.seq < right.seq
  /-- The next operation comes after all others. -/
  numbered : ∀ op ∈ space.ops listId, op.seq < space.outboxSeq + 1
  again : ∀ record shadow, record.id = listId → record.snapshot = some shadow →
    (applyRebase space record).rebased listId shadow.tasks =
      { tasks := (space.rebased listId shadow.tasks).tasks
        rejected := []
        dropped := [] }

/-- Whatever a member does, and whichever answers come, get lost or come late. -/
theorem outbox_replayable (account : Uuid) (events : List MemberEvent) (listId : Uuid) :
    ((memberRuns account).run .init events).space.Replayable listId := by
  have hspace := sequenced_run account events
  refine ⟨fun op => hspace.mem_ops, hspace.ops_increasing listId, fun op hop => ?_, ?_⟩
  · obtain ⟨hlookup, -⟩ := hspace.mem_ops.mp hop
    exact Nat.lt_succ_of_le (hspace.numbered op.opId op hlookup)
  · intro record shadow hid hsnapshot
    subst hid
    exact hspace.rebased_again hsnapshot

end ShishiTodo
