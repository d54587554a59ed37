import ShishiTodo.Shared.Server
import ShishiTodo.Lib.Versions

/-!
# Revisions of a shared list

What a request does to the lists: nothing, or one write to one list, which raises its revision by one, changes at most one task and leaves a receipt under the operation.
-/

namespace ShishiTodo

open Lib

/-! ### Contents -/

/-- The fields of a task. Its timestamps are those of a column, and the revision that an answer carries is that of the list. -/
structure TaskContent where
  listId : Uuid
  title : String
  note : String
  status : TaskStatus
  important : Bool
  dueOn : Option NaiveDate
  rank : String
  createdAt : Instant
  updatedAt : Instant
  deriving DecidableEq, Repr

def SharedTaskRow.content (row : SharedTaskRow) : TaskContent where
  listId := row.listId
  title := row.title
  note := row.note
  status := row.status
  important := row.important
  dueOn := row.dueOn
  rank := row.rank
  createdAt := row.createdAt.toColumn
  updatedAt := row.updatedAt.toColumn

def SharedTask.content (task : SharedTask) : TaskContent where
  listId := task.listId
  title := task.title
  note := task.note
  status := task.status
  important := task.important
  dueOn := task.dueOn
  rank := task.rank
  createdAt := task.createdAt.toColumn
  updatedAt := task.updatedAt.toColumn

@[simp] theorem content_taskOf (taskId : Uuid) (row : SharedTaskRow) (revision : Int) :
    (taskOf taskId row revision).content = row.content := rfl

namespace SharedDb

def revisionOf (db : SharedDb) (listId : Uuid) : Option Int :=
  (db.lists.lookup listId).map SharedListRow.revision

/-- The live tasks of a list. -/
def liveTasks (db : SharedDb) (listId taskId : Uuid) : Option TaskContent :=
  (db.liveTask listId taskId).map SharedTaskRow.content

end SharedDb

/-- The lists as versioned objects, with their live tasks as items. -/
def listVersions : VersionView SharedDb Uuid Uuid TaskContent where
  revision := SharedDb.revisionOf
  item := SharedDb.liveTasks

/-! ### Writes -/

/-- A write of a request to a list. -/
structure ListWrite (call : SharedCall) (listId : Uuid) (opId touched : Option Uuid)
    (before after : SharedDb) : Prop where
  write : listVersions.Write before after listId touched
  unused : before.receipts.lookup (listId, opId.getD call.receiptId) = none
  receipts : after.receipts = before.receipts.insert (listId, opId.getD call.receiptId)
    ⟨call.actor, (before.revisionOf listId).getD 0 + 1⟩

/-- What a write does before it raises the revision. -/
structure Prepared (listId : Uuid) (touched : Option Uuid) (before after : SharedDb) : Prop where
  revision : ∀ other, after.revisionOf other = before.revisionOf other
  receipts : after.receipts = before.receipts
  item : ∀ other taskId, other ≠ listId ∨ touched ≠ some taskId →
    after.liveTasks other taskId = before.liveTasks other taskId

/-- Only the lists, the tasks and the receipts count. -/
theorem Prepared.of_eq {listId : Uuid} {touched : Option Uuid} {before after : SharedDb}
    (hlists : after.lists = before.lists) (htasks : after.tasks = before.tasks)
    (hreceipts : after.receipts = before.receipts) : Prepared listId touched before after where
  revision := by
    intro other
    simp only [SharedDb.revisionOf, hlists]
  receipts := hreceipts
  item := by
    intro other taskId _
    simp only [SharedDb.liveTasks, SharedDb.liveTask, htasks]

theorem liveTask_eq_some_iff {db : SharedDb} {listId taskId : Uuid} {row : SharedTaskRow} :
    db.liveTask listId taskId = some row ↔
      db.tasks.lookup taskId = some row ∧ row.listId = listId ∧ row.deletedAt = none := by
  simp [SharedDb.liveTask, Option.filter_eq_some_iff]

/-- A row of the list, written where no other list has a live task. -/
theorem Prepared.updateTask {listId taskId : Uuid} {db : SharedDb} {row : SharedTaskRow}
    (hrow : row.listId = listId)
    (hfree : ∀ old, db.tasks.lookup taskId = some old → old.listId = listId) :
    Prepared listId (some taskId) db (db.updateTask taskId row) where
  revision := fun _ => rfl
  receipts := rfl
  item := by
    intro other index hother
    simp only [SharedDb.liveTasks, SharedDb.liveTask, SharedDb.updateTask,
      Table.lookup_insert_eq_ite]
    by_cases hindex : index = taskId
    · subst hindex
      have hne : other ≠ listId := by simpa using hother
      rw [if_pos rfl]
      have hnew : (some row).filter (fun row : SharedTaskRow =>
          row.listId == other && row.deletedAt.isNone) = none := by
        simp [Option.filter_eq_none_iff, hrow, hne.symm]
      have hold : (db.tasks.lookup index).filter (fun row : SharedTaskRow =>
          row.listId == other && row.deletedAt.isNone) = none := by
        rw [Option.filter_eq_none_iff]
        intro old hlookup
        simp [hfree old hlookup, hne.symm]
      rw [hnew, hold]
    · rw [if_neg hindex]

theorem liveTasks_updateTask {db : SharedDb} {listId taskId : Uuid} {row : SharedTaskRow}
    (hlist : row.listId = listId) (hlive : row.deletedAt = none) :
    (db.updateTask taskId row).liveTasks listId taskId = some row.content := by
  have hrow : (db.updateTask taskId row).liveTask listId taskId = some row :=
    liveTask_eq_some_iff.mpr ⟨by rw [SharedDb.updateTask, AList.lookup_insert], hlist, hlive⟩
  rw [SharedDb.liveTasks, hrow]
  rfl

theorem insertReceipt_eq_ok_iff {db next : SharedDb} {call : SharedCall} {listId : Uuid}
    {opId : Option Uuid} {revision : Int} :
    insertReceipt db call listId opId revision = .ok next ↔
      db.receipts.lookup (listId, opId.getD call.receiptId) = none ∧
        next = { db with receipts :=
          db.receipts.insert (listId, opId.getD call.receiptId) ⟨call.actor, revision⟩ } := by
  simp only [insertReceipt]
  cases db.receipts.lookup (listId, opId.getD call.receiptId) with
  | none => simp [eq_comm]
  | some receipt => simp

@[simp] theorem receipts_bumpRevision (db : SharedDb) (listId : Uuid) (current : Int)
    (now : Instant) : (db.bumpRevision listId current now).receipts = db.receipts := by
  unfold SharedDb.bumpRevision
  cases db.lists.lookup listId <;> rfl

@[simp] theorem tasks_bumpRevision (db : SharedDb) (listId : Uuid) (current : Int)
    (now : Instant) : (db.bumpRevision listId current now).tasks = db.tasks := by
  unfold SharedDb.bumpRevision
  cases db.lists.lookup listId <;> rfl

theorem revisionOf_bumpRevision {db : SharedDb} {listId : Uuid} {current : Int} (now : Instant)
    (hcurrent : db.revisionOf listId = some current) (other : Uuid) :
    (db.bumpRevision listId current now).revisionOf other =
      if other = listId then some (current + 1) else db.revisionOf other := by
  unfold SharedDb.bumpRevision
  cases hlist : db.lists.lookup listId with
  | none => simp [SharedDb.revisionOf, hlist] at hcurrent
  | some list =>
      simp only [SharedDb.revisionOf, Table.lookup_insert_eq_ite]
      by_cases hother : other = listId <;> simp [hother]

/-- The end of a write, after what it prepared. -/
theorem commitWrite_eq_ok {before db next : SharedDb} {call : SharedCall} {listId : Uuid}
    {opId touched : Option Uuid} {current : Int}
    (hcurrent : before.revisionOf listId = some current)
    (hprep : Prepared listId touched before db)
    (h : commitWrite db call listId opId current = .ok next) :
    ListWrite call listId opId touched before next ∧
      next.liveTasks = db.liveTasks ∧ next.revisionOf listId = some (current + 1) := by
  rw [commitWrite, insertReceipt_eq_ok_iff, receipts_bumpRevision, hprep.receipts] at h
  obtain ⟨hunused, rfl⟩ := h
  have hrevision := revisionOf_bumpRevision call.now ((hprep.revision listId).trans hcurrent)
  have hitem : ∀ listId' taskId, (db.bumpRevision listId current call.now).liveTasks listId' taskId =
      db.liveTasks listId' taskId := by
    intro listId' taskId
    simp only [SharedDb.liveTasks, SharedDb.liveTask, tasks_bumpRevision]
  refine ⟨⟨⟨?_, ?_, ?_⟩, hunused, ?_⟩, ?_, ?_⟩
  · show (db.bumpRevision listId current call.now).revisionOf listId =
      some ((before.revisionOf listId).getD 0 + 1)
    rw [hrevision, if_pos rfl, hcurrent]
    rfl
  · intro other hother
    show (db.bumpRevision listId current call.now).revisionOf other = before.revisionOf other
    rw [hrevision, if_neg hother, hprep.revision]
  · intro other taskId hother
    show (db.bumpRevision listId current call.now).liveTasks other taskId =
      before.liveTasks other taskId
    rw [hitem, hprep.item other taskId hother]
  · rw [hcurrent]
    rfl
  · funext listId' taskId
    exact hitem listId' taskId
  · show (db.bumpRevision listId current call.now).revisionOf listId = some (current + 1)
    rw [hrevision, if_pos rfl]

/-- The end of a write to one task of the list. -/
theorem commitTask_eq_ok {before next : SharedDb} {call : SharedCall} {listId taskId : Uuid}
    {opId : Option Uuid} {current : Int} {row : SharedTaskRow}
    (h : commitWrite (before.updateTask taskId row) call listId opId current = .ok next)
    (hcurrent : before.revisionOf listId = some current) (hrow : row.listId = listId)
    (hfree : ∀ old, before.tasks.lookup taskId = some old → old.listId = listId) :
    ListWrite call listId opId (some taskId) before next ∧
      next.liveTasks = (before.updateTask taskId row).liveTasks ∧
      next.revisionOf listId = some (current + 1) :=
  commitWrite_eq_ok hcurrent (Prepared.updateTask hrow hfree) h

/-! ### Checks -/

theorem lockAccess_eq_ok {db : SharedDb} {listId userId : Uuid} {access : SharedAccess}
    (h : lockAccess db listId userId = .ok access) :
    db.revisionOf listId = some access.revision := by
  unfold lockAccess at h
  split at h
  · rename_i list member hlist _
    simp only [SharedDb.liveList, Option.filter_eq_some_iff] at hlist
    simp only [Except.ok.injEq] at h
    rw [SharedDb.revisionOf, hlist.1, ← h]
    rfl
  · split at h <;> cases h

theorem replayReceipt_eq_some {db : SharedDb} {listId actorId : Uuid} {opId : Option Uuid}
    {revision : Int} (h : replayReceipt db listId opId actorId = .ok (some revision)) :
    ∃ used, opId = some used ∧ db.receipts.lookup (listId, used) = some ⟨actorId, revision⟩ := by
  unfold replayReceipt at h
  split at h
  · cases h
  · rename_i receipt hreceipt
    obtain ⟨used, rfl, hlookup⟩ := Option.bind_eq_some_iff.mp hreceipt
    split at h
    · rename_i hactor
      simp only [Except.ok.injEq, Option.some.injEq] at h
      exact ⟨used, rfl, by rw [hlookup, ← hactor, ← h]⟩
    · cases h

theorem fetchTask_eq_ok {db : SharedDb} {listId taskId : Uuid} {task : SharedTask}
    (h : fetchTask db listId taskId = .ok task) :
    task.id = taskId ∧ db.revisionOf listId = some task.revision ∧
      db.liveTasks listId taskId = some task.content := by
  unfold fetchTask at h
  split at h
  · rename_i row list hrow hlist
    simp only [Except.ok.injEq] at h
    subst h
    refine ⟨rfl, ?_, ?_⟩
    · rw [SharedDb.revisionOf, hlist]
      rfl
    · rw [SharedDb.liveTasks, hrow]
      rfl
  · cases h

/-! ### Requests -/

/-- The list that a write is about, which for an invitation its row names; a new list has none yet. -/
def SharedDb.target (db : SharedDb) : SharedRequest → Option Uuid
  | .listLists | .getList _ | .createList _ => none
  | .createTask listId _ _ => some listId
  | .patchTask listId _ _ _ => some listId
  | .deleteTask listId _ _ _ => some listId
  | .addMember listId _ _ => some listId
  | .acceptInvitation invitationId _ =>
      (db.invitations.lookup invitationId).map InvitationRow.listId
  | .declineInvitation invitationId _ =>
      (db.invitations.lookup invitationId).map InvitationRow.listId
  | .patchMember listId _ _ _ => some listId
  | .removeMember listId _ _ _ => some listId
  | .deleteList listId _ _ => some listId

/-- The revision that a request expects, in its header or its body. -/
def SharedRequest.expected : SharedRequest → Option Int
  | .listLists | .getList _ | .createList _ => none
  | .createTask _ ifMatch request => (expectedRevision ifMatch request.revision).toOption
  | .patchTask _ _ ifMatch request => (expectedRevision ifMatch request.revision).toOption
  | .deleteTask _ _ ifMatch request => (expectedRevision ifMatch request.revision).toOption
  | .addMember _ ifMatch request => (expectedRevision ifMatch request.revision).toOption
  | .acceptInvitation _ _ | .declineInvitation _ _ => none
  | .patchMember _ _ ifMatch request => (expectedRevision ifMatch request.revision).toOption
  | .removeMember _ _ ifMatch request => (expectedRevision ifMatch request.revision).toOption
  | .deleteList _ ifMatch request => (expectedRevision ifMatch request.revision).toOption

/-- The caller has given the invitation this answer before. -/
def SharedDb.answered (db : SharedDb) (call : SharedCall) : SharedRequest → Bool
  | .acceptInvitation invitationId _ => (db.invitations.lookup invitationId).any fun row =>
      row.status == .accepted && row.respondedBy == some call.actor
  | .declineInvitation invitationId _ => (db.invitations.lookup invitationId).any fun row =>
      row.status == .declined && row.respondedBy == some call.actor
  | _ => false

/-- The write was done before: its operation has a receipt of the list, or the invitation its answer. -/
def SharedDb.replays (db : SharedDb) (call : SharedCall) (request : SharedRequest) : Bool :=
  ((db.target request).any fun listId => request.opId.any fun opId =>
    (db.receipts.lookup (listId, opId)).isSome) || db.answered call request

/-- What a request that succeeds does to the lists. -/
inductive RequestOutcome (call : SharedCall) (request : SharedRequest) (before after : SharedDb) :
    Prop where
  | read (target : before.target request = none) (same : after = before)
  | replayed (again : before.replays call request = true) (same : after = before)
  | created (target : before.target request = none) (new : before.revisionOf call.newId = none)
      (write : ListWrite call call.newId request.opId none before after)
  | written (listId : Uuid) (touched : Option Uuid) (current : Int)
      (target : before.target request = some listId)
      (first : before.replays call request = false)
      (revision : before.revisionOf listId = some current)
      (expected : ∀ expected, request.expected = some expected → expected = current)
      (write : ListWrite call listId request.opId touched before after)

section Outcome

variable {call : SharedCall} {request : SharedRequest} {before after : SharedDb} {listId : Uuid}

/-- Answered from the receipt. -/
theorem RequestOutcome.of_receipt {revision : Int} (htarget : before.target request = some listId)
    (hreceipt : replayReceipt before listId request.opId call.actor = .ok (some revision))
    (hsame : after = before) : RequestOutcome call request before after := by
  obtain ⟨opId, hopId, hlookup⟩ := replayReceipt_eq_some hreceipt
  refine .replayed ?_ hsame
  simp [SharedDb.replays, htarget, hopId, hlookup]

/-- A write leaves a receipt that was not there. -/
theorem RequestOutcome.of_write {touched : Option Uuid} {current : Int}
    (htarget : before.target request = some listId)
    (hanswered : before.answered call request = false)
    (hrevision : before.revisionOf listId = some current)
    (hexpected : ∀ expected, request.expected = some expected → expected = current)
    (hwrite : ListWrite call listId request.opId touched before after) :
    RequestOutcome call request before after := by
  refine .written listId touched current htarget ?_ hrevision hexpected hwrite
  have hunused := hwrite.unused
  cases hopId : request.opId with
  | none => simp [SharedDb.replays, hopId, hanswered]
  | some opId =>
      rw [hopId, Option.getD_some] at hunused
      simp [SharedDb.replays, htarget, hopId, hunused, hanswered]

/-- The revision that passed the check is the one expected. -/
theorem expected_eq_current {ifMatch body : Option Int} {current expected : Int} {done : Unit}
    (hexpected : expectedRevision ifMatch body = .ok expected)
    (hcheck : checkRevision current expected = .ok done) :
    ∀ revision, (expectedRevision ifMatch body).toOption = some revision → revision = current := by
  intro revision hrevision
  rw [hexpected] at hrevision
  have hsame : current = expected := by simpa [checkRevision] using hcheck
  cases hrevision
  exact hsame.symm

end Outcome

def SharedDb.mayEdit (db : SharedDb) (listId userId : Uuid) : Prop :=
  ∃ access, lockAccess db listId userId = .ok access ∧ access.role.canEdit = true

theorem SharedDb.mayEdit_of_ok {db : SharedDb} {listId userId : Uuid} {access : SharedAccess}
    {done : Unit} (haccess : lockAccess db listId userId = .ok access)
    (hrole : requireEditor access.role = .ok done) : db.mayEdit listId userId := by
  refine ⟨access, haccess, ?_⟩
  simpa [requireEditor] using hrole

/-- How a write to a task came out: answered from the receipt, or done under the current revision. -/
inductive TaskOutcome (call : SharedCall) (listId taskId : Uuid) (opId : Option Uuid)
    (ifMatch body : Option Int) (before : SharedDb) (response : SharedResponse)
    (after : SharedDb) : Prop where
  | replayed (revision : Int) (allowed : before.mayEdit listId call.actor)
      (receipt : replayReceipt before listId opId call.actor = .ok (some revision))
      (same : after = before)
      (answer : ∀ task, response = .task task → fetchTask before listId taskId = .ok task)
  | written (expected : Int) (given : expectedRevision ifMatch body = .ok expected)
      (current : before.revisionOf listId = some expected)
      (write : ListWrite call listId opId (some taskId) before after)
      (raised : after.revisionOf listId = some (expected + 1))
      (answer : ∀ task, response = .task task → task.id = taskId ∧
        task.revision = expected + 1 ∧ after.liveTasks listId taskId = some task.content)

theorem insertTask_eq_ok_iff {db next : SharedDb} {taskId : Uuid} {row : SharedTaskRow} :
    insertTask db taskId row = .ok next ↔
      db.tasks.lookup taskId = none ∧ next = db.updateTask taskId row := by
  simp only [insertTask, SharedDb.updateTask]
  cases db.tasks.lookup taskId with
  | none => simp [eq_comm]
  | some old => simp

theorem selectTask_eq_ok {db : SharedDb} {listId taskId : Uuid} {row : SharedTaskRow}
    (h : selectTask db listId taskId = .ok row) :
    db.tasks.lookup taskId = some row ∧ row.listId = listId ∧ row.deletedAt = none := by
  unfold selectTask at h
  split at h
  · rename_i found hfound
    cases h
    exact liveTask_eq_some_iff.mp hfound
  · cases h

section Tasks

variable {call : SharedCall} {listId taskId : Uuid} {ifMatch : Option Int} {before after : SharedDb}
  {response : SharedResponse}

theorem createTask_outcome {request : CreateTaskRequest}
    (h : createTask call listId ifMatch request before = .ok (response, after)) :
    TaskOutcome call listId (request.id.getD call.newId) request.opId ifMatch request.revision
      before response after := by
  simp only [createTask, bind_eq_ok_iff] at h
  obtain ⟨access, haccess, _, hrole, replay, hreplay, h⟩ := h
  cases replay with
  | some revision =>
      simp only [pure, Except.pure, Except.ok.injEq, Prod.mk.injEq] at h
      obtain ⟨rfl, rfl⟩ := h
      refine .replayed revision (SharedDb.mayEdit_of_ok haccess hrole) hreplay rfl ?_
      intro task htask
      unfold replayedCreate at htask
      cases hid : request.id with
      | none => simp [hid] at htask
      | some id =>
          simp only [hid, Option.bind_some] at htask
          split at htask
          · rename_i found hfound
            cases htask
            cases hfetch : fetchTask before listId id with
            | error error => simp [hfetch, Except.toOption] at hfound
            | ok value =>
                simp only [hfetch, Except.toOption, Option.some.injEq] at hfound
                rw [Option.getD_some, hfetch, hfound]
          · cases htask
  | none =>
      simp only [bind_eq_ok_iff] at h
      obtain ⟨expected, hexpected, _, hrevision, title, -, note, -, dueOn, -, db, hinsert, next,
        hcommit, h⟩ := h
      simp only [pure, Except.pure, Except.ok.injEq, Prod.mk.injEq] at h
      obtain ⟨rfl, rfl⟩ := h
      have hcurrent := lockAccess_eq_ok haccess
      have hsame : access.revision = expected := by simpa [checkRevision] using hrevision
      rw [hsame] at hcurrent hcommit
      obtain ⟨hfree, rfl⟩ := insertTask_eq_ok_iff.mp hinsert
      obtain ⟨hwrite, hlive, hraised⟩ := commitTask_eq_ok hcommit hcurrent rfl (fun old hold => by
        rw [hfree] at hold
        cases hold)
      refine .written expected hexpected hcurrent hwrite hraised ?_
      intro task htask
      cases htask
      refine ⟨rfl, congrArg (· + 1) hsame, ?_⟩
      rw [hlive]
      refine (liveTasks_updateTask rfl rfl).trans ?_
      simp [SharedTaskRow.content, SharedTask.content, taskOf, Instant.toColumn_toColumn]

theorem patchedTask_listId {request : PatchTaskRequest} {row patched : SharedTaskRow}
    {now : Instant} (h : patchedTask request row now = .ok patched) :
    patched.listId = row.listId := by
  simp only [patchedTask, bind_eq_ok_iff] at h
  obtain ⟨title, -, note, -, status, -, dueOn, -, h⟩ := h
  simp only [pure, Except.pure, Except.ok.injEq] at h
  rw [← h]

theorem patchTask_outcome {request : PatchTaskRequest}
    (h : patchTask call listId taskId ifMatch request before = .ok (response, after)) :
    TaskOutcome call listId taskId request.opId ifMatch request.revision before response after := by
  simp only [patchTask, bind_eq_ok_iff] at h
  obtain ⟨_, -, access, haccess, _, hrole, replay, hreplay, h⟩ := h
  cases replay with
  | some revision =>
      simp only [bind_eq_ok_iff] at h
      obtain ⟨task, htask, h⟩ := h
      simp only [pure, Except.pure, Except.ok.injEq, Prod.mk.injEq] at h
      obtain ⟨rfl, rfl⟩ := h
      refine .replayed revision (SharedDb.mayEdit_of_ok haccess hrole) hreplay rfl ?_
      intro found hfound
      cases hfound
      exact htask
  | none =>
      simp only [bind_eq_ok_iff] at h
      obtain ⟨expected, hexpected, _, hrevision, row, hrow, patched, hpatched, next, hcommit, task,
        htask, h⟩ := h
      simp only [pure, Except.pure, Except.ok.injEq, Prod.mk.injEq] at h
      obtain ⟨rfl, rfl⟩ := h
      have hcurrent := lockAccess_eq_ok haccess
      have hsame : access.revision = expected := by simpa [checkRevision] using hrevision
      rw [hsame] at hcurrent hcommit
      obtain ⟨hlookup, hlist, -⟩ := selectTask_eq_ok hrow
      obtain ⟨hwrite, -, hraised⟩ := commitTask_eq_ok hcommit hcurrent
        ((patchedTask_listId hpatched).trans hlist) (fun old hold => by
          rw [hlookup] at hold
          cases hold
          exact hlist)
      refine .written expected hexpected hcurrent hwrite hraised ?_
      intro found hfound
      cases hfound
      obtain ⟨hid, hrev, hcontent⟩ := fetchTask_eq_ok htask
      rw [hraised, Option.some.injEq] at hrev
      exact ⟨hid, hrev.symm, hcontent⟩

theorem deleteTask_outcome {request : RevisionRequest}
    (h : deleteTask call listId taskId ifMatch request before = .ok (response, after)) :
    TaskOutcome call listId taskId request.opId ifMatch request.revision before response after := by
  simp only [deleteTask, bind_eq_ok_iff] at h
  obtain ⟨access, haccess, _, hrole, replay, hreplay, h⟩ := h
  cases replay with
  | some revision =>
      simp only [pure, Except.pure, Except.ok.injEq, Prod.mk.injEq] at h
      obtain ⟨rfl, rfl⟩ := h
      exact .replayed revision (SharedDb.mayEdit_of_ok haccess hrole) hreplay rfl (fun task htask => nomatch htask)
  | none =>
      simp only [bind_eq_ok_iff] at h
      obtain ⟨expected, hexpected, _, hrevision, row, hrow, next, hcommit, h⟩ := h
      simp only [pure, Except.pure, Except.ok.injEq, Prod.mk.injEq] at h
      obtain ⟨rfl, rfl⟩ := h
      have hcurrent := lockAccess_eq_ok haccess
      have hsame : access.revision = expected := by simpa [checkRevision] using hrevision
      rw [hsame] at hcurrent hcommit
      obtain ⟨hlookup, hlist, -⟩ := selectTask_eq_ok hrow
      obtain ⟨hwrite, -, hraised⟩ := commitTask_eq_ok hcommit hcurrent hlist (fun old hold => by
        rw [hlookup] at hold
        cases hold
        exact hlist)
      exact .written expected hexpected hcurrent hwrite hraised (fun task htask => nomatch htask)

end Tasks

section Requests

variable {call : SharedCall} {before after : SharedDb} {response : SharedResponse}

theorem TaskOutcome.outcome {request : SharedRequest} {listId taskId : Uuid}
    {ifMatch body : Option Int}
    (h : TaskOutcome call listId taskId request.opId ifMatch body before response after)
    (htarget : before.target request = some listId)
    (hexpected : request.expected = (expectedRevision ifMatch body).toOption)
    (hanswered : before.answered call request = false) :
    RequestOutcome call request before after := by
  cases h with
  | replayed revision allowed receipt same answer => exact .of_receipt htarget receipt same
  | written expected given current write raised answer =>
      refine .of_write htarget hanswered current ?_ write
      intro revision hrevision
      rw [hexpected, given] at hrevision
      cases hrevision
      rfl

theorem createList_outcome {request : CreateListRequest}
    (h : createList call request before = .ok (response, after)) :
    RequestOutcome call (.createList request) before after := by
  simp only [createList, bind_eq_ok_iff, refuseIf_eq_ok_iff] at h
  obtain ⟨name, -, color, -, icon, -, _, hnew, next, hreceipt, h⟩ := h
  simp only [pure, Except.pure, Except.ok.injEq, Prod.mk.injEq] at h
  obtain ⟨-, rfl⟩ := h
  obtain ⟨hunused, rfl⟩ := insertReceipt_eq_ok_iff.mp hreceipt
  have hnone : before.revisionOf call.newId = none := by
    simpa [SharedDb.revisionOf] using hnew
  refine .created rfl hnone ⟨⟨?_, ?_, fun _ _ _ => rfl⟩, hunused, ?_⟩
  · show Option.map _ (AList.lookup call.newId (before.lists.insert call.newId _)) =
      some ((before.revisionOf call.newId).getD 0 + 1)
    rw [AList.lookup_insert, hnone]
    rfl
  · intro other hother
    show Option.map _ (AList.lookup other (before.lists.insert call.newId _)) =
      before.revisionOf other
    rw [AList.lookup_insert_ne hother]
    rfl
  · rw [hnone]
    rfl

theorem addMember_outcome {listId : Uuid} {ifMatch : Option Int} {request : AddMemberRequest}
    (h : addMember call listId ifMatch request before = .ok (response, after)) :
    RequestOutcome call (.addMember listId ifMatch request) before after := by
  simp only [addMember, bind_eq_ok_iff] at h
  obtain ⟨role, -, h⟩ := h
  split at h
  · cases h
  · rename_i email _
    simp only [bind_eq_ok_iff] at h
    obtain ⟨access, haccess, _, -, replay, hreplay, h⟩ := h
    cases replay with
    | some revision =>
        cases h
        exact .of_receipt rfl hreplay rfl
    | none =>
        simp only [bind_eq_ok_iff] at h
        obtain ⟨expected, hexpected, _, hcheck, _, -, _, -, next, hcommit, invitation, -, h⟩ := h
        simp only [pure, Except.pure, Except.ok.injEq, Prod.mk.injEq] at h
        obtain ⟨-, rfl⟩ := h
        have hprep : Prepared listId none before (before.invite call listId email role).2 := by
          unfold SharedDb.invite
          split <;> exact .of_eq rfl rfl rfl
        have hcurrent := lockAccess_eq_ok haccess
        exact .of_write rfl rfl hcurrent (expected_eq_current hexpected hcheck)
          (commitWrite_eq_ok hcurrent hprep hcommit).1

theorem lockInvitation_eq_ok {db : SharedDb} {invitationId userId : Uuid}
    {found : InvitationRow × Int} (h : lockInvitation db invitationId userId = .ok found) :
    db.invitations.lookup invitationId = some found.1 ∧
      db.revisionOf found.1.listId = some found.2 := by
  unfold lockInvitation at h
  split at h
  · rename_i row account hrow _
    split at h
    · cases h
    · split at h
      · rename_i list hlist
        cases h
        simp only [SharedDb.liveList, Option.filter_eq_some_iff] at hlist
        refine ⟨hrow, ?_⟩
        rw [SharedDb.revisionOf, hlist.1]
        rfl
      · cases h
  · cases h

theorem Prepared.respond {listId : Uuid} {touched : Option Uuid} {db : SharedDb} (call : SharedCall)
    (invitationId : Uuid) (status : InvitationStatus) :
    Prepared listId touched db (db.respond call invitationId status) := by
  unfold SharedDb.respond
  split <;> exact .of_eq rfl rfl rfl

theorem Prepared.join {listId : Uuid} {touched : Option Uuid} (db : SharedDb) (call : SharedCall)
    (other : Uuid) (role : SharedRole) :
    Prepared listId touched db (db.join call other role) := by
  unfold SharedDb.join
  split
  · exact .of_eq rfl rfl rfl
  · dsimp only
    split <;> exact .of_eq rfl rfl rfl

theorem Prepared.updateMember {listId : Uuid} {touched : Option Uuid} (db : SharedDb)
    (userId : Uuid) (member : SharedMemberRow) :
    Prepared listId touched db (db.updateMember listId userId member) := .of_eq rfl rfl rfl

theorem Prepared.trans {listId : Uuid} {touched : Option Uuid} {first second third : SharedDb}
    (hfirst : Prepared listId touched first second) (hsecond : Prepared listId touched second third) :
    Prepared listId touched first third where
  revision := fun other => (hsecond.revision other).trans (hfirst.revision other)
  receipts := hsecond.receipts.trans hfirst.receipts
  item := fun other taskId h => (hsecond.item other taskId h).trans (hfirst.item other taskId h)

/-- An answer to an invitation was given before, or is the first one. -/
theorem answer_outcome {request : SharedRequest} {invitationId : Uuid}
    {found : InvitationRow × Int} {replay : Option Int} {again : Bool}
    (hfound : lockInvitation before invitationId call.actor = .ok found)
    (hreplay : replayReceipt before found.1.listId request.opId call.actor = .ok replay)
    (htarget : before.target request = some found.1.listId)
    (hexpected : request.expected = none) (hanswered : before.answered call request = again)
    (hafter : ((replay.isSome || again) = true ∧ after = before) ∨ ((replay.isSome || again) = false ∧
      ListWrite call found.1.listId request.opId none before after)) :
    RequestOutcome call request before after := by
  rcases hafter with ⟨hagain, hsame⟩ | ⟨hfirst, hwrite⟩
  · cases replay with
    | some revision => exact .of_receipt htarget hreplay hsame
    | none =>
        refine .replayed ?_ hsame
        rw [Option.isSome_none, Bool.false_or] at hagain
        rw [SharedDb.replays, hanswered, hagain, Bool.or_true]
  · have hnot : again = false := (Bool.or_eq_false_iff.mp hfirst).2
    refine .of_write htarget (hanswered.trans hnot) (lockInvitation_eq_ok hfound).2 ?_ hwrite
    intro revision hrevision
    rw [hexpected] at hrevision
    cases hrevision

theorem acceptInvitation_outcome {invitationId : Uuid} {opId : Option Uuid}
    (h : acceptInvitation call invitationId opId before = .ok (response, after)) :
    RequestOutcome call (.acceptInvitation invitationId opId) before after := by
  simp only [acceptInvitation, bind_eq_ok_iff] at h
  obtain ⟨found, hfound, replay, hreplay, h⟩ := h
  obtain ⟨hrow, hrevision⟩ := lockInvitation_eq_ok hfound
  refine answer_outcome hfound hreplay (by simp [SharedDb.target, hrow]) rfl
    (by rw [SharedDb.answered, hrow, Option.any_some]) ?_
  split at h
  · rename_i hagain
    refine .inl ⟨hagain, ?_⟩
    split at h <;> cases h
    rfl
  · rename_i hfirst
    simp only [bind_eq_ok_iff] at h
    obtain ⟨_, -, next, hcommit, list, -, h⟩ := h
    simp only [pure, Except.pure, Except.ok.injEq, Prod.mk.injEq] at h
    obtain ⟨-, rfl⟩ := h
    have hjoin : Prepared found.1.listId none before
        (before.join call found.1.listId found.1.role) := Prepared.join before call _ _
    exact .inr ⟨Bool.eq_false_iff.mpr hfirst, (commitWrite_eq_ok hrevision
      (hjoin.trans (Prepared.respond call invitationId .accepted)) hcommit).1⟩

theorem declineInvitation_outcome {invitationId : Uuid} {opId : Option Uuid}
    (h : declineInvitation call invitationId opId before = .ok (response, after)) :
    RequestOutcome call (.declineInvitation invitationId opId) before after := by
  simp only [declineInvitation, bind_eq_ok_iff] at h
  obtain ⟨found, hfound, replay, hreplay, h⟩ := h
  obtain ⟨hrow, hrevision⟩ := lockInvitation_eq_ok hfound
  refine answer_outcome hfound hreplay (by simp [SharedDb.target, hrow]) rfl
    (by rw [SharedDb.answered, hrow, Option.any_some]) ?_
  split at h
  · rename_i hagain
    cases h
    exact .inl ⟨hagain, rfl⟩
  · rename_i hfirst
    simp only [bind_eq_ok_iff] at h
    obtain ⟨_, -, next, hcommit, h⟩ := h
    simp only [pure, Except.pure, Except.ok.injEq, Prod.mk.injEq] at h
    obtain ⟨-, rfl⟩ := h
    exact .inr ⟨Bool.eq_false_iff.mpr hfirst, (commitWrite_eq_ok hrevision
      (Prepared.respond call invitationId .declined) hcommit).1⟩

theorem patchMember_outcome {listId userId : Uuid} {ifMatch : Option Int}
    {request : PatchMemberRequest}
    (h : patchMember call listId userId ifMatch request before = .ok (response, after)) :
    RequestOutcome call (.patchMember listId userId ifMatch request) before after := by
  simp only [patchMember, bind_eq_ok_iff] at h
  obtain ⟨role, -, _, -, access, haccess, _, -, replay, hreplay, h⟩ := h
  cases replay with
  | some revision =>
      simp only [bind_eq_ok_iff] at h
      obtain ⟨member, -, h⟩ := h
      cases h
      exact .of_receipt rfl hreplay rfl
  | none =>
      simp only [bind_eq_ok_iff] at h
      obtain ⟨expected, hexpected, _, hcheck, member, -, next, hcommit, answer, -, h⟩ := h
      simp only [pure, Except.pure, Except.ok.injEq, Prod.mk.injEq] at h
      obtain ⟨-, rfl⟩ := h
      have hcurrent := lockAccess_eq_ok haccess
      have hwrite : ListWrite call listId request.opId none before next :=
        (commitWrite_eq_ok hcurrent (Prepared.updateMember before userId _) hcommit).1
      exact .of_write rfl rfl hcurrent (expected_eq_current hexpected hcheck) hwrite

theorem removeMember_outcome {listId userId : Uuid} {ifMatch : Option Int}
    {request : RevisionRequest}
    (h : removeMember call listId userId ifMatch request before = .ok (response, after)) :
    RequestOutcome call (.removeMember listId userId ifMatch request) before after := by
  simp only [removeMember, bind_eq_ok_iff] at h
  obtain ⟨_, -, access, haccess, _, -, replay, hreplay, h⟩ := h
  cases replay with
  | some revision =>
      cases h
      exact .of_receipt rfl hreplay rfl
  | none =>
      simp only [bind_eq_ok_iff] at h
      obtain ⟨expected, hexpected, _, hcheck, member, -, next, hcommit, h⟩ := h
      simp only [pure, Except.pure, Except.ok.injEq, Prod.mk.injEq] at h
      obtain ⟨-, rfl⟩ := h
      have hcurrent := lockAccess_eq_ok haccess
      have hwrite : ListWrite call listId request.opId none before next :=
        (commitWrite_eq_ok hcurrent (Prepared.updateMember before userId _) hcommit).1
      exact .of_write rfl rfl hcurrent (expected_eq_current hexpected hcheck) hwrite

/-- A deleted list keeps its revision and its tasks. -/
theorem Prepared.markDeleted {listId : Uuid} {touched : Option Uuid} {db : SharedDb}
    (now : Instant) : Prepared listId touched db (db.markDeleted listId now) := by
  unfold SharedDb.markDeleted
  split
  · exact .of_eq rfl rfl rfl
  · rename_i list hlist
    refine ⟨?_, rfl, fun _ _ _ => rfl⟩
    intro other
    simp only [SharedDb.revisionOf, Table.lookup_insert_eq_ite]
    by_cases hother : other = listId
    · subst hother
      rw [if_pos rfl, hlist]
      rfl
    · rw [if_neg hother]

theorem deleteList_outcome {listId : Uuid} {ifMatch : Option Int} {request : RevisionRequest}
    (h : deleteList call listId ifMatch request before = .ok (response, after)) :
    RequestOutcome call (.deleteList listId ifMatch request) before after := by
  simp only [deleteList, bind_eq_ok_iff] at h
  obtain ⟨access, haccess, _, -, replay, hreplay, h⟩ := h
  cases replay with
  | some revision =>
      cases h
      exact .of_receipt rfl hreplay rfl
  | none =>
      simp only [bind_eq_ok_iff] at h
      obtain ⟨expected, hexpected, _, hcheck, next, hcommit, h⟩ := h
      simp only [pure, Except.pure, Except.ok.injEq, Prod.mk.injEq] at h
      obtain ⟨-, rfl⟩ := h
      have hcurrent := lockAccess_eq_ok haccess
      have hwrite : ListWrite call listId request.opId none before next :=
        (commitWrite_eq_ok hcurrent (Prepared.markDeleted call.now) hcommit).1
      exact .of_write rfl rfl hcurrent (expected_eq_current hexpected hcheck) hwrite

theorem getList_eq_ok {listId : Uuid}
    (h : getList call listId before = .ok (response, after)) :
    after = before ∧ ∃ snapshot, response = .snapshot snapshot ∧
      before.revisionOf listId = some snapshot.revision ∧
      snapshot.tasks = snapshotTasks before listId snapshot.revision := by
  simp only [getList, bind_eq_ok_iff] at h
  obtain ⟨access, haccess, list, hlist, h⟩ := h
  simp only [pure, Except.pure, Except.ok.injEq, Prod.mk.injEq] at h
  obtain ⟨rfl, rfl⟩ := h
  refine ⟨rfl, _, rfl, ?_, rfl⟩
  unfold fetchListSummary at hlist
  split at hlist
  · rename_i row member hrow _
    cases hlist
    simp only [SharedDb.liveList, Option.filter_eq_some_iff] at hrow
    rw [SharedDb.revisionOf, hrow.1]
    rfl
  · cases hlist

theorem handleShared_outcome {request : SharedRequest}
    (h : handleShared call before request = .ok (response, after)) :
    RequestOutcome call request before after := by
  cases request with
  | listLists =>
      cases h
      exact .read rfl rfl
  | getList listId => exact .read rfl (getList_eq_ok h).1
  | createList request => exact createList_outcome h
  | createTask listId ifMatch request => exact (createTask_outcome h).outcome rfl rfl rfl
  | patchTask listId taskId ifMatch request => exact (patchTask_outcome h).outcome rfl rfl rfl
  | deleteTask listId taskId ifMatch request => exact (deleteTask_outcome h).outcome rfl rfl rfl
  | addMember listId ifMatch request => exact addMember_outcome h
  | acceptInvitation invitationId opId => exact acceptInvitation_outcome h
  | declineInvitation invitationId opId => exact declineInvitation_outcome h
  | patchMember listId userId ifMatch request => exact patchMember_outcome h
  | removeMember listId userId ifMatch request => exact removeMember_outcome h
  | deleteList listId ifMatch request => exact deleteList_outcome h

/-- Nothing, or one write under the operation. -/
def ListEffect (call : SharedCall) (opId : Option Uuid) (before after : SharedDb) : Prop :=
  after = before ∨ ∃ listId touched, ListWrite call listId opId touched before after

theorem handleShared_effect {request : SharedRequest}
    (h : handleShared call before request = .ok (response, after)) :
    ListEffect call request.opId before after := by
  cases handleShared_outcome h with
  | read target same => exact .inl same
  | replayed again same => exact .inl same
  | created target new write => exact .inr ⟨call.newId, none, write⟩
  | written listId touched current target first revision expected write =>
      exact .inr ⟨listId, touched, write⟩

end Requests

/-! ### Snapshots -/

/-- The copy is the list: its tasks, each once. -/
structure Holds (tasks : List SharedTask) (live : Uuid → Option TaskContent) : Prop where
  nodup : (tasks.map SharedTask.id).Nodup
  same : ∀ taskId content, live taskId = some content ↔
    ∃ task ∈ tasks, task.id = taskId ∧ task.content = content

theorem snapshotTasks_holds (db : SharedDb) (listId : Uuid) (revision : Int) :
    Holds (snapshotTasks db listId revision) (db.liveTasks listId) where
  nodup := by
    have hperm := List.perm_insertionSort taskOrder ((db.tasks.entries.filter fun entry =>
      entry.2.listId == listId && entry.2.deletedAt.isNone).map fun entry =>
        taskOf entry.1 entry.2 revision)
    refine (hperm.map SharedTask.id).nodup_iff.mpr ?_
    have hkeys : (db.tasks.entries.filter fun entry =>
        entry.2.listId == listId && entry.2.deletedAt.isNone).NodupKeys :=
      db.tasks.nodupKeys.sublist List.filter_sublist
    rw [List.map_map]
    exact hkeys
  same := by
    intro taskId content
    simp only [snapshotTasks, List.mem_insertionSort, List.mem_map, List.mem_filter]
    constructor
    · intro h
      obtain ⟨row, hrow, rfl⟩ := Option.map_eq_some_iff.mp h
      obtain ⟨hlookup, hlist, hlive⟩ := liveTask_eq_some_iff.mp hrow
      refine ⟨_, ⟨⟨taskId, row⟩, ⟨Table.mem_entries_iff.mpr hlookup, ?_⟩, rfl⟩, rfl, rfl⟩
      simp [hlist, hlive]
    · rintro ⟨task, ⟨⟨id, row⟩, ⟨hmem, htest⟩, rfl⟩, rfl, rfl⟩
      simp only [Bool.and_eq_true, beq_iff_eq, Option.isNone_iff_eq_none] at htest
      have hrow : db.liveTask listId id = some row :=
        liveTask_eq_some_iff.mpr ⟨Table.mem_entries_iff.mp hmem, htest⟩
      show (db.liveTask listId id).map SharedTaskRow.content = some row.content
      rw [hrow]
      rfl

end ShishiTodo
