import ShishiTodo.Shared.Rebase
import ShishiTodo.Shared.Repeats

/-!
# Settling a delivered operation

The tasks shown before and after `settle`: the first pending operation goes, and what the server made of it is folded into the copy. The operations behind it meet the same tasks as before, except for a title that the server trims.
-/

namespace ShishiTodo

open Lib

/-! ### Tasks that match -/

/-- The same task, except for the revision and the timestamps. -/
def SharedTask.Matches (left right : SharedTask) : Prop :=
  ∃ revision createdAt updatedAt,
    left = { right with revision := revision, createdAt := createdAt, updatedAt := updatedAt }

theorem SharedTask.Matches.refl (task : SharedTask) : task.Matches task :=
  ⟨task.revision, task.createdAt, task.updatedAt, rfl⟩

theorem SharedTask.Matches.id {left right : SharedTask} (h : left.Matches right) : left.id = right.id := by
  obtain ⟨revision, createdAt, updatedAt, heq⟩ := h
  rw [heq]

/-- Rows whose tasks match one by one, whatever their marks, in the same places where that is asked for. -/
def RowsMatch (placed : Prop) (left right : List SharedTaskRecord) : Prop :=
  List.Forall₂ (fun left right => left.task.Matches right.task ∧ (placed → left.position = right.position)) left right

section

variable {placed : Prop} {left right : List SharedTaskRecord}

theorem RowsMatch.of_tasks
    (h : List.Forall₂ SharedTask.Matches (left.map SharedTaskRecord.task) (right.map SharedTaskRecord.task))
    (hplaces : placed → left.map SharedTaskRecord.position = right.map SharedTaskRecord.position) :
    RowsMatch placed left right := by
  rw [List.forall₂_map_left_iff, List.forall₂_map_right_iff] at h
  induction h with
  | nil => exact .nil
  | cons hfirst hrest ih =>
      refine .cons ⟨hfirst, fun hplaced => ?_⟩ (ih fun hplaced => ?_)
      · exact (List.cons.inj (hplaces hplaced)).1
      · exact (List.cons.inj (hplaces hplaced)).2

theorem RowsMatch.tasks (h : RowsMatch placed left right) :
    List.Forall₂ SharedTask.Matches (left.map SharedTaskRecord.task) (right.map SharedTaskRecord.task) := by
  rw [List.forall₂_map_left_iff, List.forall₂_map_right_iff]
  exact List.Forall₂.imp (fun _ _ hboth => hboth.1) h

theorem RowsMatch.find (h : RowsMatch placed left right) (taskId : Uuid) :
    (left.find? (fun row => row.task.id == taskId) = none ∧
      right.find? (fun row => row.task.id == taskId) = none) ∨
    ∃ first second, left.find? (fun row => row.task.id == taskId) = some first ∧
      right.find? (fun row => row.task.id == taskId) = some second ∧ first.task.Matches second.task ∧
        (placed → first.position = second.position) := by
  induction h with
  | nil => exact .inl ⟨rfl, rfl⟩
  | @cons first second restLeft restRight hfirst hrest ih =>
      have hid := hfirst.1.id
      rw [List.find?_cons, List.find?_cons, hid]
      by_cases hkey : second.task.id = taskId
      · rw [beq_iff_eq.mpr hkey]
        exact .inr ⟨first, second, rfl, rfl, hfirst⟩
      · rw [beq_eq_false_iff_ne.mpr hkey]
        exact ih

theorem RowsMatch.setTask (h : RowsMatch placed left right) {first second : SharedTaskRecord}
    (hrow : first.task.Matches second.task) (hplace : placed → first.position = second.position) :
    RowsMatch placed (setTask first left) (setTask second right) := by
  induction h with
  | nil => exact .cons ⟨hrow, hplace⟩ .nil
  | @cons old other restLeft restRight hold hrest ih =>
      rw [ShishiTodo.setTask, ShishiTodo.setTask, hold.1.id, hrow.id]
      split
      · exact .cons ⟨hrow, hplace⟩ hrest
      · exact .cons hold ih

theorem RowsMatch.filter (h : RowsMatch placed left right) (taskId : Uuid) :
    RowsMatch placed (left.filter fun row => row.task.id != taskId)
      (right.filter fun row => row.task.id != taskId) := by
  induction h with
  | nil => exact .nil
  | @cons old other restLeft restRight hold hrest ih =>
      rw [List.filter_cons, List.filter_cons, hold.1.id]
      split
      · exact .cons hold ih
      · exact ih

/-- Over rows that match, an operation has effects that match, or is refused for the same reason. -/
theorem RowsMatch.rebaseStep (h : RowsMatch placed left right) (listId : Uuid) {offset other : Nat}
    (hoffset : placed → offset = other) (op : SharedOpRecord) :
    Alike (RowsMatch placed) (rebaseStep listId offset left op) (rebaseStep listId other right op) := by
  unfold ShishiTodo.rebaseStep
  by_cases hstatus : op.status ≠ .pending
  · rw [if_pos hstatus, if_pos hstatus]
    exact h
  · rw [if_neg hstatus, if_neg hstatus]
    obtain ⟨hleft, hright⟩ | ⟨first, second, hleft, hright, hmatches, hplace⟩ := h.find op.taskId
    · rw [hleft, hright]
      cases hkind : op.kind with
      | create => exact h.setTask (.refl _) fun hplaced => congrArg (· + op.seq) (hoffset hplaced)
      | patch => exact rfl
      | delete => exact rfl
    · rw [hleft, hright]
      obtain ⟨revision, createdAt, updatedAt, heq⟩ := id hmatches
      have hconflicts : conflicts first.task op = conflicts second.task op := by
        rw [heq]
        rfl
      have hoverlay : (first.task.overlay op.patch).Matches (second.task.overlay op.patch) := by
        rw [heq]
        exact ⟨revision, createdAt, updatedAt, rfl⟩
      cases hkind : op.kind with
      | create => exact h.setTask hmatches hplace
      | patch =>
          simp only [hconflicts, reduceCtorEq, if_false]
          split
          · exact rfl
          · exact h.setTask hoverlay hplace
      | delete =>
          simp only [hconflicts, if_true]
          split
          · exact rfl
          · exact h.filter op.taskId

end

/-! ### Places -/

section

variable {listId : Uuid} {offset : Nat} {rows next : List SharedTaskRecord} {op : SharedOpRecord}

theorem setTask_of_absent {row : SharedTaskRecord} (h : rows.find? (fun old => old.task.id == row.task.id) = none) :
    setTask row rows = rows ++ [row] := by
  induction rows with
  | nil => rfl
  | cons old rest ih =>
      rw [List.find?_eq_none] at h
      have hold : ¬ old.task.id = row.task.id := by simpa using h old List.mem_cons_self
      rw [setTask, if_neg hold, ih, List.cons_append]
      exact List.find?_eq_none.mpr fun other hother => h other (List.mem_cons_of_mem old hother)

/-- A row that takes the place of the one with its identifier. -/
theorem position_setTask (row : SharedTaskRecord) {current : SharedTaskRecord} {taskId : Uuid}
    (h : rows.find? (fun old => old.task.id == taskId) = some current) (hid : row.task.id = taskId)
    (hposition : row.position = current.position) :
    (setTask row rows).map SharedTaskRecord.position = rows.map SharedTaskRecord.position := by
  subst hid
  induction rows with
  | nil => cases h
  | cons old rest ih =>
      rw [List.find?_cons] at h
      by_cases hold : old.task.id = row.task.id
      · rw [beq_iff_eq.mpr hold] at h
        cases h
        rw [setTask, if_pos hold, List.map_cons, List.map_cons, hposition]
      · rw [beq_eq_false_iff_ne.mpr hold] at h
        rw [setTask, if_neg hold, List.map_cons, List.map_cons, ih h]

/-- An operation leaves the places of the rows, or adds the last one. -/
theorem position_rebaseStep (h : rebaseStep listId offset rows op = .ok next) :
    (next.map SharedTaskRecord.position).Sublist (rows.map SharedTaskRecord.position) ∨
      next.map SharedTaskRecord.position = rows.map SharedTaskRecord.position ++ [offset + op.seq] := by
  unfold rebaseStep at h
  by_cases hstatus : op.status ≠ .pending
  · rw [if_pos hstatus] at h
    cases h
    exact .inl (.refl _)
  · rw [if_neg hstatus] at h
    cases hfind : rows.find? fun row => row.task.id == op.taskId with
    | none =>
        rw [hfind] at h
        cases hkind : op.kind with
        | create =>
            rw [hkind] at h
            cases h
            rw [setTask_of_absent hfind, List.map_append]
            exact .inr rfl
        | patch =>
            rw [hkind] at h
            cases h
        | delete =>
            rw [hkind] at h
            cases h
    | some current =>
        have hid : current.task.id = op.taskId := by simpa using List.find?_some hfind
        rw [hfind] at h
        cases hkind : op.kind with
        | create =>
            rw [hkind] at h
            cases h
            rw [position_setTask { current with pending := true } hfind hid rfl]
            exact .inl (.refl _)
        | patch =>
            rw [hkind] at h
            simp only [reduceCtorEq, if_false] at h
            split at h
            · cases h
            · cases h
              rw [position_setTask { current with task := current.task.overlay op.patch, pending := true } hfind hid rfl]
              exact .inl (.refl _)
        | delete =>
            rw [hkind] at h
            simp only [if_true] at h
            split at h
            · cases h
            · cases h
              exact .inl (List.filter_sublist.map _)

/-- Operations in the order of their numbers leave the rows in the order of their places. -/
theorem positions_workOff {ops : List SharedOpRecord} (hsorted : ops.Pairwise fun left right => left.seq ≤ right.seq)
    (hrows : (rows.map SharedTaskRecord.position).Pairwise (· ≤ ·))
    (hbound : ∀ position ∈ rows.map SharedTaskRecord.position, ∀ op ∈ ops, position ≤ offset + op.seq) :
    ((workOff (rebaseStep listId offset) rows ops).1.map SharedTaskRecord.position).Pairwise (· ≤ ·) := by
  induction ops generalizing rows with
  | nil => exact hrows
  | cons op rest ih =>
      obtain ⟨hfirst, hrest⟩ := List.pairwise_cons.mp hsorted
      cases hstep : rebaseStep listId offset rows op with
      | error refusal =>
          rw [workOff_error hstep]
          exact ih hrest hrows fun position hposition other hother =>
            hbound position hposition other (List.mem_cons_of_mem op hother)
      | ok next =>
          rw [workOff_ok hstep]
          obtain hsub | hadded := position_rebaseStep hstep
          · exact ih hrest (hrows.sublist hsub) fun position hposition other hother =>
              hbound position (hsub.subset hposition) other (List.mem_cons_of_mem op hother)
          · refine ih hrest ?_ ?_
            · rw [hadded, List.pairwise_append]
              refine ⟨hrows, List.pairwise_singleton _ _, fun position hposition last hlast => ?_⟩
              rw [List.mem_singleton.mp hlast]
              exact hbound position hposition op List.mem_cons_self
            · intro position hposition other hother
              rw [hadded] at hposition
              obtain hold | hlast := List.mem_append.mp hposition
              · exact hbound position hold other (List.mem_cons_of_mem op hother)
              · rw [List.mem_singleton.mp hlast]
                exact Nat.add_le_add_left (hfirst other hother) offset

/-- Where the tasks of the copy are different ones, its rows are numbered from zero. -/
theorem shadowRows_eq {shadow : List SharedTask} (hnodup : (shadow.map SharedTask.id).Nodup) :
    shadowRows shadow = shadow.zipIdx.map fun entry => { task := entry.1, position := entry.2, pending := false } := by
  have hgeneral : ∀ (entries : List (SharedTask × Nat)) (working : List SharedTaskRecord),
      (working.map (fun row => row.task.id) ++ entries.map fun entry => entry.1.id).Nodup →
      entries.foldl (fun working entry =>
        setTask { task := entry.1, position := entry.2, pending := false } working) working =
      working ++ entries.map fun entry => { task := entry.1, position := entry.2, pending := false } := by
    intro entries
    induction entries with
    | nil => exact fun working _ => (List.append_nil working).symm
    | cons entry rest ih =>
        intro working hids
        rw [List.foldl_cons, setTask_of_absent, ih, List.append_assoc]
        · rfl
        · rwa [List.map_append, List.append_assoc]
        · refine List.find?_eq_none.mpr fun row hrow hsame => ?_
          have hapart := (List.nodup_append.mp hids).2.2 row.task.id (List.mem_map_of_mem hrow) entry.1.id
            List.mem_cons_self
          exact hapart (beq_iff_eq.mp hsame)
  refine (hgeneral shadow.zipIdx [] ?_).trans (List.nil_append _)
  have hids : (shadow.zipIdx.map fun entry => entry.1.id) = shadow.map SharedTask.id := by
    refine (List.map_map (l := shadow.zipIdx)).symm.trans ?_
    rw [List.zipIdx_map_fst]
  rw [List.map_nil, List.nil_append, hids]
  exact hnodup

theorem task_shadowRows {shadow : List SharedTask} (hnodup : (shadow.map SharedTask.id).Nodup) :
    (shadowRows shadow).map SharedTaskRecord.task = shadow := by
  rw [shadowRows_eq hnodup, List.map_map]
  exact List.zipIdx_map_fst 0 shadow

/-- The rows are shown in the order in which they were worked off. -/
theorem tasks_rebaseSharedTasks (listId : Uuid) {shadow : List SharedTask} {ops : List SharedOpRecord}
    (hnodup : (shadow.map SharedTask.id).Nodup) (hsorted : ops.Pairwise fun left right => left.seq ≤ right.seq) :
    (rebaseSharedTasks listId shadow ops).tasks = (workedOff listId shadow ops).1 := by
  have hpositions : (shadowRows shadow).map SharedTaskRecord.position = List.range' 0 shadow.length := by
    rw [shadowRows_eq hnodup, List.map_map]
    exact List.zipIdx_map_snd 0 shadow
  rw [rebaseSharedTasks_of_sorted hsorted]
  refine List.Pairwise.insertionSort_eq (List.pairwise_map.mp (positions_workOff hsorted ?_ ?_))
  · rw [hpositions]
    exact List.pairwise_le_range'
  · intro position hposition op _
    rw [hpositions, List.mem_range'_1] at hposition
    omega

end

/-! ### What the server makes of an operation -/

/-- The copy with the result of an operation. A delete has no task for a result; the pull behind it brings the list without the task. -/
def foldResult (tasks : List SharedTask) (taskId : Uuid) : Option SharedTask → List SharedTask
  | some applied => foldApplied tasks taskId applied
  | none => tasks.filter fun task => task.id != taskId

theorem foldApplied_cons (task : SharedTask) (tasks : List SharedTask) (taskId : Uuid) (applied : SharedTask) :
    foldApplied (task :: tasks) taskId applied =
      if task.id = taskId then applied :: tasks else task :: foldApplied tasks taskId applied := by
  unfold foldApplied
  rw [List.findIdx?_cons]
  by_cases hid : task.id = taskId
  · rw [beq_iff_eq.mpr hid, if_pos hid]
    rfl
  · rw [beq_eq_false_iff_ne.mpr hid, if_neg hid]
    cases tasks.findIdx? fun other => other.id == taskId with
    | none => rfl
    | some index => rfl

theorem task_setTask (row : SharedTaskRecord) (rows : List SharedTaskRecord) :
    (setTask row rows).map SharedTaskRecord.task =
      foldApplied (rows.map SharedTaskRecord.task) row.task.id row.task := by
  induction rows with
  | nil => rfl
  | cons old rest ih =>
      rw [List.map_cons, foldApplied_cons, setTask]
      split
      · rfl
      · rw [List.map_cons, ih]

/-- The server takes the operation while its list is the copy. -/
structure ServerWrite (tasks : List SharedTask) (op : SharedOpRecord) (expected : Int) (response : SharedResponse)
    (after : SharedDb) : Prop where
  served : ∃ before call, Holds tasks (before.liveTasks op.listId) ∧
    before.revisionOf op.listId = some expected ∧
    handleShared call before (opRequest op expected) = .ok (response, after)
  raised : after.revisionOf op.listId = some (expected + 1)

/-- What the server made of the operation, as the first answer or a repeated one brings it. -/
inductive ServerResult (tasks : List SharedTask) (op : SharedOpRecord) (expected : Int) : Option SharedTask → Prop
  | answered (response : SharedResponse) (after : SharedDb) (applied : SharedTask)
      (hwrite : ServerWrite tasks op expected response after)
      (hanswer : knownResult op expected response = some applied) : ServerResult tasks op expected (some applied)
  | repeated (response answer : SharedResponse) (after later last : SharedDb) (again : SharedCall)
      (applied : SharedTask) (hwrite : ServerWrite tasks op expected response after)
      (hrevision : later.revisionOf op.listId = some (expected + 1))
      (htasks : later.liveTasks op.listId = after.liveTasks op.listId)
      (hserved : handleShared again later (opRequest op expected) = .ok (answer, last))
      (hanswer : knownResult op expected answer = some applied) : ServerResult tasks op expected (some applied)
  | deleted (response : SharedResponse) (after : SharedDb) (hkind : op.kind = .delete)
      (hwrite : ServerWrite tasks op expected response after) : ServerResult tasks op expected none

section

variable {tasks : List SharedTask} {op : SharedOpRecord} {expected : Int} {response : SharedResponse}
  {after : SharedDb}

theorem validateText_eq_ok {name value checked : String} {maxChars : Nat}
    (h : validateText name value maxChars = .ok checked) : checked = trim value := by
  simp only [validateText, bind_eq_ok_iff] at h
  obtain ⟨_, -, _, -, hdone⟩ := h
  cases hdone
  rfl

theorem validateNote_eq_ok {value checked : String} (h : validateNote value = .ok checked) : checked = value := by
  simp only [validateNote, bind_eq_ok_iff] at h
  obtain ⟨_, -, _, -, hdone⟩ := h
  cases hdone
  rfl

theorem validateDueOn_eq_ok {value checked : Option NaiveDate} (h : validateDueOn value = .ok checked) :
    checked = value := by
  simp only [validateDueOn, bind_eq_ok_iff] at h
  obtain ⟨_, -, hdone⟩ := h
  cases hdone
  rfl

theorem checkedOr_eq_ok {α β : Type} {check : α → ApiResult β} {value : Option α} {kept checked : β}
    {expectedOf : α → β} (hcheck : ∀ value checked, check value = .ok checked → checked = expectedOf value)
    (h : checkedOr check value kept = .ok checked) : checked = (value.map expectedOf).getD kept := by
  cases value with
  | none =>
      cases h
      rfl
  | some value => exact hcheck value checked h

theorem checkedStatus {value : Option TaskStatus} {kept checked : TaskStatus}
    (h : checkedOr parseTaskStatus (value.map TaskStatus.asStr) kept = .ok checked) : checked = value.getD kept := by
  cases value with
  | none =>
      cases h
      rfl
  | some status =>
      simp only [Option.map_some, checkedOr, parseTaskStatus, TaskStatus.parse_asStr, Except.ok.injEq] at h
      exact h.symm

/-- A write is no replay, which would leave the list at its revision. -/
theorem ServerWrite.ne_before (h : ServerWrite tasks op expected response after) {before : SharedDb}
    (hrevision : before.revisionOf op.listId = some expected) : after ≠ before := by
  intro hsame
  have hraised := h.raised
  rw [hsame, hrevision] at hraised
  have hnumbers := Option.some.inj hraised
  omega

/-- The task that answers a write is the one that the server has then. -/
theorem ServerWrite.answer (h : ServerWrite tasks op expected response after) {applied : SharedTask}
    (hanswer : knownResult op expected response = some applied) :
    applied.id = op.taskId ∧ after.liveTasks op.listId op.taskId = some applied.content := by
  obtain ⟨before, call, -, hrevision, hserved⟩ := h.served
  cases opRequest_outcome hserved with
  | replayed revision allowed receipt same answer => exact absurd same (h.ne_before hrevision)
  | written given hgiven current write raised answer =>
      obtain ⟨hid, -, hcontent⟩ := answer applied (knownResult_eq_some hanswer).1
      exact ⟨hid, hcontent⟩

/-- So is the task that answers it again, while the list stays at its revision. -/
theorem ServerResult.content {applied : SharedTask} (h : ServerResult tasks op expected (some applied)) :
    ∃ response after, ServerWrite tasks op expected response after ∧ op.kind ≠ .delete ∧
      applied.id = op.taskId ∧ after.liveTasks op.listId op.taskId = some applied.content := by
  cases h with
  | answered response after applied hwrite hanswer =>
      exact ⟨response, after, hwrite, (knownResult_eq_some hanswer).2.1, hwrite.answer hanswer⟩
  | repeated response answer after later last again applied hwrite hrevision htasks hserved hanswer =>
      obtain ⟨htask, hkind, -⟩ := knownResult_eq_some hanswer
      refine ⟨response, after, hwrite, hkind, ?_⟩
      rw [← htasks]
      cases opRequest_outcome hserved with
      | replayed revision allowed receipt same found =>
          obtain ⟨hid, -, hcontent⟩ := fetchTask_eq_ok (found applied htask)
          exact ⟨hid, hcontent⟩
      | written given hgiven current write raised found =>
          have hgivenRevision := (found applied htask).2.1
          have hknownRevision := (knownResult_eq_some hanswer).2.2
          have hnumbers := Option.some.inj (hrevision.symm.trans current)
          omega

/-- A task that is created is new to the copy. -/
theorem ServerWrite.created (h : ServerWrite tasks op expected response after) (hkind : op.kind = .create) :
    tasks.find? (fun task => task.id == op.taskId) = none ∧
      ∃ content, after.liveTasks op.listId op.taskId = some content ∧
        content = { (createdRecord op.listId op 0).task.content with
          title := trim (op.patch.title.getD "")
          createdAt := content.createdAt
          updatedAt := content.updatedAt } := by
  obtain ⟨before, call, hholds, hrevision, hserved⟩ := h.served
  have hcreate : createTask call op.listId (some expected) {
      id := some op.taskId
      title := op.patch.title.getD ""
      note := op.patch.note
      important := op.patch.important
      dueOn := op.patch.dueOn.getD none
      revision := none
      opId := some op.opId } before = .ok (response, after) := by
    rw [opRequest, hkind] at hserved
    exact hserved
  simp only [createTask, bind_eq_ok_iff] at hcreate
  obtain ⟨access, haccess, _, -, replay, -, hrest⟩ := hcreate
  cases replay with
  | some revision =>
      cases hrest
      exact absurd rfl (h.ne_before hrevision)
  | none =>
      simp only [bind_eq_ok_iff] at hrest
      obtain ⟨given, hgiven, _, hcheck, title, htitle, note, hnote, dueOn, hdueOn, db, hinsert, next, hcommit,
        hdone⟩ := hrest
      cases hdone
      obtain ⟨hfree, rfl⟩ := insertTask_eq_ok_iff.mp hinsert
      have hcurrent := lockAccess_eq_ok haccess
      obtain ⟨-, hlive, -⟩ := commitTask_eq_ok hcommit hcurrent rfl (fun old hold => by
        rw [Option.getD_some] at hold hfree
        rw [hfree] at hold
        cases hold)
      constructor
      · refine List.find?_eq_none.mpr fun task htask hid => ?_
        have hlive := (hholds.same op.taskId task.content).mpr ⟨task, htask, beq_iff_eq.mp hid, rfl⟩
        obtain ⟨row, hrow, -⟩ := Option.map_eq_some_iff.mp hlive
        have hlookup := (liveTask_eq_some_iff.mp hrow).1
        rw [Option.getD_some] at hfree
        rw [hfree] at hlookup
        cases hlookup
      · refine ⟨_, (congrFun (congrFun hlive op.listId) op.taskId).trans (liveTasks_updateTask rfl rfl), ?_⟩
        simp only [SharedTaskRow.content, SharedTask.content, createdRecord, validateText_eq_ok htitle,
          validateNote_eq_ok hnote, validateDueOn_eq_ok hdueOn]

/-- A task that is patched is the one of the copy with the patch. -/
theorem ServerWrite.patched (h : ServerWrite tasks op expected response after) (hkind : op.kind = .patch) :
    ∃ task, tasks.find? (fun task => task.id == op.taskId) = some task ∧
      ∃ content, after.liveTasks op.listId op.taskId = some content ∧
        content = { (task.overlay op.patch).content with
          title := (op.patch.title.map trim).getD task.title
          createdAt := content.createdAt
          updatedAt := content.updatedAt } := by
  obtain ⟨before, call, hholds, hrevision, hserved⟩ := h.served
  have hpatch : patchTask call op.listId op.taskId (some expected) {
      title := op.patch.title
      note := op.patch.note
      status := op.patch.status.map TaskStatus.asStr
      important := op.patch.important
      dueOn := op.patch.dueOn
      revision := none
      opId := some op.opId } before = .ok (response, after) := by
    rw [opRequest, hkind] at hserved
    exact hserved
  simp only [patchTask, bind_eq_ok_iff] at hpatch
  obtain ⟨_, -, access, haccess, _, -, replay, -, hrest⟩ := hpatch
  cases replay with
  | some revision =>
      obtain ⟨task, -, hdone⟩ := bind_eq_ok_iff.mp hrest
      cases hdone
      exact absurd rfl (h.ne_before hrevision)
  | none =>
      simp only [bind_eq_ok_iff] at hrest
      obtain ⟨given, hgiven, _, hcheck, row, hrow, patched, hpatched, next, hcommit, found, -, hdone⟩ := hrest
      cases hdone
      have hcurrent := lockAccess_eq_ok haccess
      obtain ⟨hlookup, hlist, hundeleted⟩ := selectTask_eq_ok hrow
      have hpatchedList := (patchedTask_listId hpatched).trans hlist
      obtain ⟨-, hlive, -⟩ := commitTask_eq_ok hcommit hcurrent hpatchedList (fun old hold => by
        rw [hlookup] at hold
        cases hold
        exact hlist)
      have hbefore : before.liveTasks op.listId op.taskId = some row.content :=
        Option.map_eq_some_iff.mpr ⟨row, liveTask_eq_some_iff.mpr ⟨hlookup, hlist, hundeleted⟩, rfl⟩
      obtain ⟨task, htask, hid, hcontent⟩ := (hholds.same op.taskId row.content).mp hbefore
      refine ⟨task, ?_, ?_⟩
      · cases hfound : tasks.find? fun task => task.id == op.taskId with
        | none => exact absurd (beq_iff_eq.mpr hid) (List.find?_eq_none.mp hfound task htask)
        | some found =>
            have hfoundId : found.id = op.taskId := by simpa using List.find?_some hfound
            have hmem := List.mem_of_find?_eq_some hfound
            exact congrArg some (List.inj_on_of_nodup_map hholds.nodup hmem htask (hfoundId.trans hid.symm))
      · simp only [patchedTask, bind_eq_ok_iff] at hpatched
        obtain ⟨title, htitle, note, hnote, status, hstatus, dueOn, hdueOn, hdone⟩ := hpatched
        cases hdone
        refine ⟨_, (congrFun (congrFun hlive op.listId) op.taskId).trans
          (liveTasks_updateTask hpatchedList hundeleted), ?_⟩
        have htitle := checkedOr_eq_ok (fun _ _ => validateText_eq_ok) htitle
        have hnote := checkedOr_eq_ok (fun _ _ => validateNote_eq_ok) hnote
        have hstatus := checkedStatus hstatus
        have hdueOn := validateDueOn_eq_ok hdueOn
        have hfields : task.content = row.content := hcontent
        simp only [SharedTaskRow.content, SharedTask.content, TaskContent.mk.injEq] at hfields
        obtain ⟨hlistId, htitleOf, hnoteOf, hstatusOf, himportant, hdueOnOf, hrank, -, -⟩ := hfields
        simp only [SharedTaskRow.content, SharedTask.content, SharedTask.overlay, htitle, hnote, hstatus, hdueOn, hlistId,
          htitleOf, hnoteOf, hstatusOf, himportant, hdueOnOf, hrank, Option.map_id']

end

/-! ### Before and after -/

/-- The server stores the title of the operation as it is. -/
def SharedOpRecord.TitleKept (op : SharedOpRecord) : Prop :=
  op.kind ≠ .delete → ∀ title, op.patch.title = some title → trim title = title

section

variable {tasks : List SharedTask} {op : SharedOpRecord} {expected : Int} {result : Option SharedTask}
  {offset : Nat} {rows : List SharedTaskRecord}

/-- A task with the contents of another one, its title apart. -/
theorem matches_iff_title {applied task : SharedTask} {title : String} {createdAt updatedAt : Instant}
    (hid : applied.id = task.id)
    (hcontent : applied.content =
      { task.content with title := title, createdAt := createdAt, updatedAt := updatedAt }) :
    applied.Matches task ↔ title = task.title := by
  simp only [SharedTask.content, TaskContent.mk.injEq] at hcontent
  obtain ⟨hlistId, htitle, hnote, hstatus, himportant, hdueOn, hrank, -, -⟩ := hcontent
  constructor
  · intro hmatches
    obtain ⟨revision, created, updated, heq⟩ := hmatches
    rw [← htitle, heq]
  · intro hsame
    refine ⟨applied.revision, applied.createdAt, applied.updatedAt, ?_⟩
    rw [SharedTask.mk.injEq]
    exact ⟨hid, hlistId, htitle.trans hsame, hnote, hstatus, himportant, hdueOn, hrank, rfl, rfl, rfl⟩

theorem foldApplied_matches_iff {first second : SharedTask} {taskId : Uuid} :
    List.Forall₂ SharedTask.Matches (foldApplied tasks taskId first) (foldApplied tasks taskId second) ↔
      first.Matches second := by
  induction tasks with
  | nil => exact List.forall₂_cons.trans (and_iff_left .nil)
  | cons task rest ih =>
      rw [foldApplied_cons, foldApplied_cons]
      split
      · exact List.forall₂_cons.trans (and_iff_left (List.forall₂_same.mpr fun other _ => .refl other))
      · exact List.forall₂_cons.trans ((and_iff_right (.refl task)).trans ih)

theorem find_shadowRows (hnodup : (tasks.map SharedTask.id).Nodup) (taskId : Uuid) :
    tasks.find? (fun task => task.id == taskId) =
      ((shadowRows tasks).find? fun row => row.task.id == taskId).map SharedTaskRecord.task := by
  conv_lhs => rw [← task_shadowRows hnodup]
  exact List.find?_map ..

/-- The copy with the result is the copy with the operation exactly when the server keeps the title. -/
theorem fold_matches_iff (hresult : ServerResult tasks op expected result) (hnodup : (tasks.map SharedTask.id).Nodup)
    (hpending : op.status = .pending)
    (hstep : rebaseStep op.listId offset (shadowRows tasks) op = .ok rows) :
    List.Forall₂ SharedTask.Matches (foldResult tasks op.taskId result) (rows.map SharedTaskRecord.task) ↔
      op.TitleKept := by
  unfold rebaseStep at hstep
  rw [if_neg (not_not.mpr hpending)] at hstep
  cases result with
  | none =>
      cases hresult with
      | deleted response after hkind hwrite =>
          refine iff_of_true ?_ fun hother => absurd hkind hother
          rw [hkind] at hstep
          cases hfind : (shadowRows tasks).find? fun row => row.task.id == op.taskId with
          | none =>
              rw [hfind] at hstep
              cases hstep
          | some current =>
              rw [hfind] at hstep
              simp only [if_true] at hstep
              split at hstep
              · cases hstep
              · cases hstep
                have hrows : ((shadowRows tasks).filter fun row => row.task.id != op.taskId).map
                    SharedTaskRecord.task = foldResult tasks op.taskId none := by
                  conv_rhs => rw [foldResult, ← task_shadowRows hnodup]
                  rw [List.filter_map]
                  rfl
                rw [hrows]
                exact List.forall₂_same.mpr fun task _ => .refl task
  | some applied =>
      obtain ⟨response, after, hwrite, hdelete, hid, hlive⟩ := hresult.content
      cases hkind : op.kind with
      | delete => exact absurd hkind hdelete
      | create =>
          obtain ⟨hnew, content, hcontent, hcreated⟩ := hwrite.created hkind
          rw [find_shadowRows hnodup, Option.map_eq_none_iff] at hnew
          rw [hkind, hnew] at hstep
          cases hstep
          rw [task_setTask, task_shadowRows hnodup]
          refine foldApplied_matches_iff.trans ?_
          rw [hlive, Option.some.injEq] at hcontent
          rw [← hcontent] at hcreated
          refine (matches_iff_title hid hcreated).trans ?_
          show trim (op.patch.title.getD "") = op.patch.title.getD "" ↔ op.TitleKept
          constructor
          · intro hsame _ title htitle
            rw [htitle] at hsame
            exact hsame
          · intro hkept
            cases htitle : op.patch.title with
            | none => rfl
            | some title => exact hkept hdelete title htitle
      | patch =>
          obtain ⟨task, hfound, content, hcontent, hpatched⟩ := hwrite.patched hkind
          rw [find_shadowRows hnodup, Option.map_eq_some_iff] at hfound
          obtain ⟨current, hcurrent, rfl⟩ := hfound
          rw [hkind, hcurrent] at hstep
          simp only [reduceCtorEq, if_false] at hstep
          split at hstep
          · cases hstep
          · cases hstep
            have hcurrentId : current.task.id = op.taskId := by simpa using List.find?_some hcurrent
            have hoverlayId : (current.task.overlay op.patch).id = op.taskId := hcurrentId
            rw [task_setTask, task_shadowRows hnodup, hoverlayId]
            refine foldApplied_matches_iff.trans ?_
            rw [hlive, Option.some.injEq] at hcontent
            rw [← hcontent] at hpatched
            refine (matches_iff_title (hid.trans hoverlayId.symm) hpatched).trans ?_
            constructor
            · intro hsame _ title htitle
              simp only [htitle, SharedTask.overlay, Option.map_some, Option.getD_some] at hsame
              exact hsame
            · intro hkept
              cases htitle : op.patch.title with
              | none => simp only [SharedTask.overlay, htitle, Option.map_none]
              | some title =>
                  simp only [SharedTask.overlay, htitle, Option.map_some, Option.getD_some]
                  exact hkept hdelete title htitle

end

section

variable {space : SharedSpace} {record : SharedListRecord} {shadow : SharedShadow} {op : SharedOpRecord}

/-- The operations without one of them. -/
theorem SharedSpace.Sequenced.ops_deleteOp (h : space.Sequenced) (listId opId : Uuid) :
    (space.deleteOp opId).ops listId = (space.ops listId).filter fun op => op.opId != opId := by
  refine (h.deleteOp opId).ops_eq ((h.ops_increasing listId).filter _) fun op => ?_
  rw [List.mem_filter, h.mem_ops, bne_iff_ne, SharedSpace.deleteOp, Table.lookup_erase_eq_ite]
  by_cases hid : op.opId = opId
  · simp [hid]
  · simp [hid]

/-- An operation that is not pending has no effect. -/
theorem rebaseStep_idle {listId : Uuid} {offset : Nat} (rows : List SharedTaskRecord)
    (hstatus : op.status ≠ .pending) : rebaseStep listId offset rows op = .ok rows := by
  rw [rebaseStep, if_pos hstatus]

/-- The first pending operation of a rebased outbox, what stands around it, and its effect on the copy. -/
theorem SharedSpace.Sequenced.nextPending (h : space.Sequenced) (hsnapshot : record.snapshot = some shadow)
    (hnext : (ShishiTodo.applyRebase space record).nextPending record.id = some op) :
    op.listId = record.id ∧ op.status = .pending ∧
      ∃ before rest rows, (∀ other ∈ before, other.status ≠ .pending) ∧
        (ShishiTodo.applyRebase space record).ops record.id = before ++ op :: rest ∧
        ((ShishiTodo.applyRebase space record).deleteOp op.opId).ops record.id = before ++ rest ∧
        rebaseStep record.id shadow.tasks.length (shadowRows shadow.tasks) op = .ok rows := by
  have hafter := h.applyRebase record
  obtain ⟨hstatus, before, rest, hops, hbefore⟩ := List.find?_eq_some_iff_append.mp hnext
  rw [beq_iff_eq] at hstatus
  have hbefore : ∀ other ∈ before, other.status ≠ .pending := by
    intro other hother hpending
    have hnot := hbefore other hother
    rw [hpending] at hnot
    cases hnot
  have hmem : op ∈ (ShishiTodo.applyRebase space record).ops record.id := by
    rw [hops]
    exact List.mem_append_right before List.mem_cons_self
  have hids := hafter.nodup_opIds record.id
  rw [hops, List.map_append, List.map_cons] at hids
  refine ⟨(hafter.mem_ops.mp hmem).2, hstatus, before, rest, ?_⟩
  have hrest : ((ShishiTodo.applyRebase space record).deleteOp op.opId).ops record.id = before ++ rest := by
    have hkept : ∀ other ∈ before ++ rest, (other.opId != op.opId) = true := by
      intro other hother
      rw [bne_iff_ne]
      intro hsame
      obtain ⟨-, hnodup, hapart⟩ := List.nodup_append.mp hids
      obtain hother | hother := List.mem_append.mp hother
      · exact hapart other.opId (List.mem_map_of_mem hother) op.opId List.mem_cons_self hsame
      · refine (List.nodup_cons.mp hnodup).1 ?_
        rw [← hsame]
        exact List.mem_map_of_mem hother
    have hleft := List.filter_eq_self.mpr fun other hother => hkept other (List.mem_append_left rest hother)
    have hright := List.filter_eq_self.mpr fun other hother => hkept other (List.mem_append_right before hother)
    rw [hafter.ops_deleteOp, hops, List.filter_append, List.filter_cons_of_neg (by simp), hleft, hright]
  -- Nothing is refused any more, so the first pending operation is not.
  have hrefused : (workedOff record.id shadow.tasks ((ShishiTodo.applyRebase space record).ops record.id)).2 = [] := by
    rw [h.workedOff_again hsnapshot]
  have hidle : workOff (rebaseStep record.id shadow.tasks.length) (shadowRows shadow.tasks) before =
      (shadowRows shadow.tasks, []) :=
    workOff_idle fun other hother => rebaseStep_idle _ (hbefore other hother)
  rw [hops, workedOff, workOff_append (congrArg Prod.snd hidle), hidle] at hrefused
  cases hstep : rebaseStep record.id shadow.tasks.length (shadowRows shadow.tasks) op with
  | ok rows => exact ⟨rows, hbefore, hops, hrest, rfl⟩
  | error refusal =>
      rw [workOff_error hstep] at hrefused
      cases hrefused

/-- The tasks after operations without effect. -/
theorem tasks_rebased {before rest : List SharedOpRecord} {listId : Uuid} {tasks : List SharedTask}
    (hnodup : (tasks.map SharedTask.id).Nodup) (hbefore : ∀ other ∈ before, other.status ≠ .pending)
    (hops : space.ops listId = before ++ rest) :
    (space.rebased listId tasks).tasks = (workOff (rebaseStep listId tasks.length) (shadowRows tasks) rest).1 := by
  have hidle : workOff (rebaseStep listId tasks.length) (shadowRows tasks) before = (shadowRows tasks, []) :=
    workOff_idle fun other hother => rebaseStep_idle _ (hbefore other hother)
  have hrows := tasks_rebaseSharedTasks listId hnodup (ops_sorted space listId)
  rw [SharedSpace.rebased, hrows, hops, workedOff, workOff_append (congrArg Prod.snd hidle), hidle]

theorem ids_foldApplied {tasks : List SharedTask} {applied : SharedTask}
    (hmem : applied.id ∈ tasks.map SharedTask.id) :
    (foldApplied tasks applied.id applied).map SharedTask.id = tasks.map SharedTask.id := by
  induction tasks with
  | nil => cases hmem
  | cons task rest ih =>
      rw [foldApplied_cons]
      split
      · rename_i hid
        rw [List.map_cons, List.map_cons, hid]
      · rename_i hid
        rw [List.map_cons, List.map_cons, ih]
        exact (List.mem_cons.mp hmem).resolve_left fun hsame => hid hsame.symm

theorem ServerResult.nodup {tasks : List SharedTask} {op : SharedOpRecord} {expected : Int}
    {result : Option SharedTask} (h : ServerResult tasks op expected result) :
    (tasks.map SharedTask.id).Nodup ∧ ((foldResult tasks op.taskId result).map SharedTask.id).Nodup := by
  have hwrite : ∃ response after, ServerWrite tasks op expected response after := by
    cases h with
    | answered response after applied hwrite hanswer => exact ⟨response, after, hwrite⟩
    | repeated response answer after later last again applied hwrite hrevision htasks hserved hanswer =>
        exact ⟨response, after, hwrite⟩
    | deleted response after hkind hwrite => exact ⟨response, after, hwrite⟩
  obtain ⟨response, after, hwrite⟩ := hwrite
  obtain ⟨before, call, hholds, -⟩ := hwrite.served
  refine ⟨hholds.nodup, ?_⟩
  cases result with
  | none => exact hholds.nodup.sublist (List.filter_sublist.map _)
  | some applied =>
      obtain ⟨_, _, -, -, hid, -⟩ := h.content
      exact (foldApplied_spec hid hholds.nodup).1

theorem position_shadowRows {tasks : List SharedTask} (hnodup : (tasks.map SharedTask.id).Nodup) :
    (shadowRows tasks).map SharedTaskRecord.position = List.range' 0 tasks.length := by
  rw [shadowRows_eq hnodup, List.map_map]
  exact List.zipIdx_map_snd 0 tasks

/-- A patch leaves the rows of the copy in their places, whether folded or applied. -/
theorem places_of_patch {tasks : List SharedTask} {op : SharedOpRecord} {expected : Int} {result : Option SharedTask}
    {listId : Uuid} {offset : Nat} {rows : List SharedTaskRecord} (hresult : ServerResult tasks op expected result)
    (hpending : op.status = .pending) (hstep : rebaseStep listId offset (shadowRows tasks) op = .ok rows)
    (hkind : op.kind = .patch) :
    (foldResult tasks op.taskId result).length = tasks.length ∧
      (shadowRows (foldResult tasks op.taskId result)).map SharedTaskRecord.position =
        rows.map SharedTaskRecord.position := by
  obtain ⟨hnodup, hfolded⟩ := hresult.nodup
  rw [rebaseStep, if_neg (not_not.mpr hpending), hkind] at hstep
  cases hfind : (shadowRows tasks).find? fun row => row.task.id == op.taskId with
  | none =>
      rw [hfind] at hstep
      cases hstep
  | some current =>
      have hcurrentId : current.task.id = op.taskId := by simpa using List.find?_some hfind
      have hlength : (foldResult tasks op.taskId result).length = tasks.length := by
        cases result with
        | none =>
            cases hresult with
            | deleted response after hdelete hwrite =>
                rw [hkind] at hdelete
                cases hdelete
        | some applied =>
            obtain ⟨_, _, -, -, hid, -⟩ := hresult.content
            have hmem : applied.id ∈ tasks.map SharedTask.id := by
              have hrow : current.task ∈ (shadowRows tasks).map SharedTaskRecord.task :=
                List.mem_map_of_mem (List.mem_of_find?_eq_some hfind)
              rw [task_shadowRows hnodup] at hrow
              rw [hid, ← hcurrentId]
              exact List.mem_map_of_mem hrow
            have hids := congrArg List.length (ids_foldApplied hmem)
            rw [List.length_map, List.length_map] at hids
            rw [foldResult, ← hid]
            exact hids
      rw [hfind] at hstep
      simp only [reduceCtorEq, if_false] at hstep
      split at hstep
      · cases hstep
      · cases hstep
        rw [position_setTask { current with task := current.task.overlay op.patch, pending := true } hfind hcurrentId rfl,
          position_shadowRows hnodup, position_shadowRows hfolded, hlength]
        exact ⟨rfl, rfl⟩

end

/-- Once the operation is gone and its result is in the copy, the list shows the tasks that it showed before, in their order, but for revisions, timestamps and marks; after a patch they also keep their places. It holds whatever else is in the outbox. -/
def Incremental (listId : Uuid) (tasks : List SharedTask) (op : SharedOpRecord) (result : Option SharedTask) : Prop :=
  ∀ space record shadow, SharedSpace.Sequenced space → record.id = listId → record.snapshot = some shadow →
    shadow.tasks = tasks → (applyRebase space record).nextPending listId = some op →
    RowsMatch (op.kind = .patch)
      (((applyRebase space record).deleteOp op.opId).rebased listId (foldResult tasks op.taskId result)).tasks
      ((applyRebase space record).rebased listId tasks).tasks

section

variable {space : SharedSpace} {record : SharedListRecord} {shadow : SharedShadow} {op : SharedOpRecord}
  {expected : Int} {result : Option SharedTask}

theorem SharedOpRecord.TitleKept.incremental (hkept : op.TitleKept) {tasks : List SharedTask}
    (hresult : ServerResult tasks op expected result) : Incremental op.listId tasks op result := by
  rintro space record shadow hsequenced hrecord hsnapshot rfl hnext
  rw [← hrecord] at hnext ⊢
  obtain ⟨hnodup, hfolded⟩ := hresult.nodup
  obtain ⟨hlist, hpending, before, rest, rows, hbefore, hops, hrest, hstep⟩ :=
    hsequenced.nextPending hsnapshot hnext
  have hrows := tasks_rebased hnodup hbefore hops
  have hfoldedRows := tasks_rebased hfolded hbefore hrest
  rw [workOff_ok hstep] at hrows
  rw [hrows, hfoldedRows]
  have hplaces : op.kind = .patch → _ := places_of_patch hresult hpending hstep
  have hmatch : RowsMatch (op.kind = .patch) (shadowRows (foldResult shadow.tasks op.taskId result)) rows := by
    refine .of_tasks ?_ fun hkind => (hplaces hkind).2
    rw [task_shadowRows hfolded]
    rw [← hlist] at hstep
    exact (fold_matches_iff hresult hnodup hpending hstep).mpr hkept
  exact (workOff_related (fun left right op hrelated =>
    hrelated.rebaseStep record.id (fun hkind => (hplaces hkind).1) op) hmatch rest).1

/-- The outbox with one operation. -/
def SharedSpace.withOnly (op : SharedOpRecord) : SharedSpace :=
  { SharedSpace.empty with outbox := (∅ : Table Uuid SharedOpRecord).insert op.opId op, outboxSeq := op.seq }

theorem sequenced_withOnly (op : SharedOpRecord) : (SharedSpace.withOnly op).Sequenced := by
  have hlookup : ∀ key found, (SharedSpace.withOnly op).outbox.lookup key = some found →
      key = op.opId ∧ found = op := by
    intro key found hfound
    rw [SharedSpace.withOnly, Table.lookup_insert_eq_ite] at hfound
    split at hfound
    · rename_i hkey
      exact ⟨hkey, (Option.some.inj hfound).symm⟩
    · cases hfound
  constructor
  · intro key found hfound
    obtain ⟨rfl, rfl⟩ := hlookup key found hfound
    rfl
  · intro key found hfound
    obtain ⟨-, rfl⟩ := hlookup key found hfound
    exact le_refl _
  · intro key other found second hfound hsecond _
    rw [(hlookup key found hfound).1, (hlookup other second hsecond).1]

theorem ops_withOnly (op : SharedOpRecord) : (SharedSpace.withOnly op).ops op.listId = [op] := by
  refine (sequenced_withOnly op).ops_eq (List.pairwise_singleton _ _) fun found => ?_
  rw [List.mem_singleton, SharedSpace.withOnly, Table.lookup_insert_eq_ite]
  constructor
  · rintro rfl
    exact ⟨if_pos rfl, rfl⟩
  · intro hfound
    obtain ⟨hlookup, -⟩ := hfound
    split at hlookup
    · exact (Option.some.inj hlookup).symm
    · cases hlookup

/-- Alone in the outbox, an operation with an effect on the copy shows whether its title is kept. -/
theorem Incremental.titleKept (hincremental : Incremental op.listId shadow.tasks op result)
    (hresult : ServerResult shadow.tasks op expected result) (hlist : op.listId = record.id)
    (hsnapshot : record.snapshot = some shadow) (hpending : op.status = .pending) {rows : List SharedTaskRecord}
    (hstep : rebaseStep record.id shadow.tasks.length (shadowRows shadow.tasks) op = .ok rows) : op.TitleKept := by
  have hsequenced := sequenced_withOnly op
  have hworked : workedOff record.id shadow.tasks ((SharedSpace.withOnly op).ops record.id) = (rows, []) := by
    rw [← hlist, ops_withOnly, hlist, workedOff, workOff_ok hstep]
    rfl
  have hafter : (applyRebase (.withOnly op) record).ops record.id = [op] := by
    have hmark := (mark_refused hsequenced record.id shadow.tasks
      (by rw [← hlist, ops_withOnly]; exact List.mem_singleton_self op)).1 (by rw [hworked]; exact List.not_mem_nil)
    rw [hsequenced.ops_applyRebase hsnapshot, ← hlist, ops_withOnly, hlist, List.filterMap_cons_some hmark]
    rfl
  obtain ⟨hnodup, hfolded⟩ := hresult.nodup
  have hnext : (applyRebase (.withOnly op) record).nextPending op.listId = some op := by
    rw [SharedSpace.nextPending, hlist, hafter, List.find?_cons, hpending]
    rfl
  have hmatch := hincremental _ record shadow hsequenced hlist.symm hsnapshot rfl hnext
  have hgone : ((applyRebase (.withOnly op) record).deleteOp op.opId).ops op.listId = [] ++ [] := by
    rw [(hsequenced.applyRebase record).ops_deleteOp, hlist, hafter, List.filter_cons_of_neg (by simp)]
    rfl
  have hthere : (applyRebase (.withOnly op) record).ops op.listId = [] ++ [op] := by
    rw [hlist, hafter]
    rfl
  have hnone : ∀ other ∈ ([] : List SharedOpRecord), other.status ≠ .pending := fun _ h => absurd h List.not_mem_nil
  rw [tasks_rebased hfolded hnone hgone, tasks_rebased hnodup hnone hthere] at hmatch
  rw [← hlist] at hstep
  rw [workOff_ok hstep] at hmatch
  have htasks := hmatch.tasks
  simp only [workOff] at htasks
  rw [task_shadowRows hfolded] at htasks
  exact (fold_matches_iff hresult hnodup hpending hstep).mp htasks

end

/-- Rebasing again what a rebase left changes nothing and refuses nothing. When the first pending operation goes and what the server made of it is folded into the copy, the list shows the same tasks, whatever is in the outbox, exactly when the server stores the title of the operation as it is. -/
theorem rebase_incremental_iff (space : SharedSpace) (record : SharedListRecord) (shadow : SharedShadow)
    (op : SharedOpRecord) (expected : Int) (result : Option SharedTask) (hsequenced : space.Sequenced)
    (hsnapshot : record.snapshot = some shadow) :
    rebaseSharedTasks record.id shadow.tasks ((applyRebase space record).ops record.id) =
        { tasks := (rebaseSharedTasks record.id shadow.tasks (space.ops record.id)).tasks
          rejected := []
          dropped := [] } ∧
      ((applyRebase space record).nextPending record.id = some op →
        ServerResult shadow.tasks op expected result →
        (Incremental record.id shadow.tasks op result ↔
          (op.kind ≠ .delete → ∀ title, op.patch.title = some title → trim title = title))) := by
  refine ⟨hsequenced.rebased_again hsnapshot, fun hnext hresult => ?_⟩
  obtain ⟨hlist, hpending, before, rest, rows, -, -, -, hstep⟩ := hsequenced.nextPending hsnapshot hnext
  rw [← hlist]
  constructor
  · intro hincremental
    exact hincremental.titleKept hresult hlist hsnapshot hpending hstep
  · intro hkept
    exact SharedOpRecord.TitleKept.incremental hkept hresult

/-- A task under way to the list of groceries. -/
def addingTask (title : String) : SharedOpRecord :=
  let patch : SharedTaskPatch := ⟨some title, some "", none, some false, some none⟩
  ⟨⟨101⟩, sharedGroceries, 1, .create, sharedMilk, patch, .empty, .pending, none, minute 2⟩

/-- The list of groceries as it was pulled, empty. -/
def pulledGroceries : SharedListRecord :=
  let summary : SharedListSummary := ⟨sharedGroceries, anna, "Groceries", none, none, "a0", 1, .owner, minute 1, minute 1⟩
  { emptyRecord summary with snapshot := some ⟨[], [], []⟩, revision := 1 }

def milkCall : SharedCall := ⟨anna, minute 3, ⟨21⟩, ⟨201⟩⟩

theorem holds_newGroceries : Holds [] (newGroceries.liveTasks sharedGroceries) := by
  have htasks : snapshotTasks newGroceries sharedGroceries 1 = [] := by decide
  rw [← htasks]
  exact snapshotTasks_holds newGroceries sharedGroceries 1

/-- A task that the server makes of the operation. -/
theorem serverResult_adding (title : String)
    (h : ((handleShared milkCall newGroceries (opRequest (addingTask title) 1)).toOption.any fun served =>
      (knownResult (addingTask title) 1 served.1).isSome && served.2.revisionOf sharedGroceries == some 2) = true) :
    ∃ applied, ServerResult [] (addingTask title) 1 (some applied) := by
  cases hserved : handleShared milkCall newGroceries (opRequest (addingTask title) 1) with
  | error error =>
      rw [hserved] at h
      cases h
  | ok served =>
      obtain ⟨response, after⟩ := served
      rw [hserved] at h
      simp only [Except.toOption, Option.any_some, Bool.and_eq_true, beq_iff_eq] at h
      obtain ⟨applied, hanswer⟩ := Option.isSome_iff_exists.mp h.1
      have hrevision : newGroceries.revisionOf sharedGroceries = some 1 := by decide
      exact ⟨applied, .answered response after applied
        ⟨⟨newGroceries, milkCall, holds_newGroceries, hrevision, hserved⟩, h.2⟩ hanswer⟩

/-- Milk is created and settled. -/
theorem rebase_incremental_milk : ∃ applied, ServerResult [] (addingTask "Milk") 1 (some applied) ∧
    Incremental sharedGroceries [] (addingTask "Milk") (some applied) := by
  have hnext : (applyRebase (.withOnly (addingTask "Milk")) pulledGroceries).nextPending sharedGroceries =
      some (addingTask "Milk") := by decide
  obtain ⟨applied, hresult⟩ := serverResult_adding "Milk" (by decide)
  have hiff := (rebase_incremental_iff (.withOnly (addingTask "Milk")) pulledGroceries ⟨[], [], []⟩
    (addingTask "Milk") 1 (some applied) (sequenced_withOnly _) rfl).2 hnext hresult
  refine ⟨applied, hresult, hiff.mpr fun _ title htitle => ?_⟩
  cases htitle
  decide

/-- A title that ends with a line break which only the server trims. -/
theorem trimmed_title_differs : cleanSingleLine "Milk\u0085" maxTitleLength = "Milk\u0085" ∧
    ¬ ∀ (space : SharedSpace) (record : SharedListRecord) (shadow : SharedShadow) (op : SharedOpRecord)
        (expected : Int) (result : Option SharedTask), space.Sequenced → record.snapshot = some shadow →
      (applyRebase space record).nextPending record.id = some op → ServerResult shadow.tasks op expected result →
      RowsMatch False
        (rebaseSharedTasks record.id (foldResult shadow.tasks op.taskId result)
          (((applyRebase space record).deleteOp op.opId).ops record.id)).tasks
        (rebaseSharedTasks record.id shadow.tasks ((applyRebase space record).ops record.id)).tasks := by
  refine ⟨by decide, fun hclaim => ?_⟩
  have hnext : (applyRebase (.withOnly (addingTask "Milk\u0085")) pulledGroceries).nextPending sharedGroceries =
      some (addingTask "Milk\u0085") := by decide
  obtain ⟨applied, hresult⟩ := serverResult_adding "Milk\u0085" (by decide)
  have hincremental : Incremental sharedGroceries [] (addingTask "Milk\u0085") (some applied) := by
    intro space record shadow hsequenced hrecord hsnapshot htasks hpending
    rw [← hrecord] at hpending ⊢
    rw [← htasks] at hresult ⊢
    have hmatch := hclaim space record shadow _ 1 _ hsequenced hsnapshot hpending hresult
    exact List.Forall₂.imp (fun _ _ hboth => ⟨hboth.1, fun hpatch => (nomatch hpatch)⟩) hmatch
  have hsnapshot : pulledGroceries.snapshot = some ⟨[], [], []⟩ := rfl
  obtain ⟨-, -, before, rest, rows, -, -, -, hstep⟩ := (sequenced_withOnly _).nextPending hsnapshot hnext
  have hkept := @Incremental.titleKept pulledGroceries ⟨[], [], []⟩ (addingTask "Milk\u0085") 1 (some applied)
    hincremental hresult rfl hsnapshot rfl rows hstep
  exact absurd (hkept nofun _ rfl) (by decide)

end ShishiTodo
