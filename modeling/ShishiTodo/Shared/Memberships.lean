import ShishiTodo.Shared.Revisions

/-!
# Who may change a membership

What a request does to the memberships, the invitations and the life of a list. An owner invites, changes roles, removes members and deletes the list; everybody answers the invitations to their own address; and nothing else moves.
-/

namespace ShishiTodo

open Lib

namespace SharedDb

/-- The user is an active owner of the list, and the list is not deleted. -/
def OwnedBy (db : SharedDb) (listId userId : Uuid) : Prop :=
  (db.liveList listId).isSome ∧
    ∃ member, db.activeMember listId userId = some member ∧ member.role = .owner

/-- An account that is not deleted has the address of the invitation. -/
def Addressed (db : SharedDb) (row : InvitationRow) (userId : Uuid) : Prop :=
  ∃ account, db.users.lookup userId = some account ∧ account.deletedAt = none ∧
    row.email = account.email

/-- The lists that are alive, in either database. -/
def SameLives (before after : SharedDb) : Prop :=
  ∀ listId, (after.liveList listId).isSome = (before.liveList listId).isSome

end SharedDb

open SharedDb

/-- What a request that succeeds does to memberships, invitations and lists. -/
inductive AccessEffect (call : SharedCall) (request : SharedRequest) (before after : SharedDb) :
    Prop where
  | kept (members : after.members = before.members)
      (invitations : after.invitations = before.invitations) (lives : SameLives before after)
  | founded (founding : ∃ body, request = .createList body)
      (new : before.lists.lookup call.newId = none)
      (members : after.members = before.members.insert (call.newId, call.actor)
        ⟨.owner, call.now.toColumn, none⟩)
      (invitations : after.invitations = before.invitations)
      (lives : ∀ listId, (after.liveList listId).isSome =
        (decide (listId = call.newId) || (before.liveList listId).isSome))
  | invited (listId : Uuid) (email : String) (role : SharedRole)
      (owner : before.OwnedBy listId call.actor) (guest : role ≠ .owner)
      (new : before.pendingInvitation listId email = none →
        before.invitations.lookup call.newId = none)
      (members : after.members = before.members)
      (invitations : after.invitations = (before.invite call listId email role).2.invitations)
      (lives : SameLives before after)
  | accepted (invitationId : Uuid) (row : InvitationRow)
      (accepting : ∃ opId, request = .acceptInvitation invitationId opId)
      (found : before.invitations.lookup invitationId = some row) (pending : row.status = .pending)
      (addressed : before.Addressed row call.actor)
      (members : after.members = (before.join call row.listId row.role).members)
      (invitations : after.invitations = (before.respond call invitationId .accepted).invitations)
      (lives : SameLives before after)
  | declined (invitationId : Uuid) (members : after.members = before.members)
      (invitations : after.invitations = (before.respond call invitationId .declined).invitations)
      (lives : SameLives before after)
  | changed (listId userId : Uuid) (member next : SharedMemberRow)
      (managing : ∀ invitationId opId, request ≠ .acceptInvitation invitationId opId)
      (owner : before.OwnedBy listId call.actor)
      (found : before.activeMember listId userId = some member)
      (own : userId = call.actor → next.role = .owner ∧ next.deletedAt = none)
      (members : after.members = before.members.insert (listId, userId) next)
      (invitations : after.invitations = before.invitations) (lives : SameLives before after)
  | closed (listId : Uuid) (owner : before.OwnedBy listId call.actor)
      (members : after.members = before.members)
      (invitations : after.invitations = before.invitations)
      (lives : ∀ other, (after.liveList other).isSome =
        (decide (other ≠ listId) && (before.liveList other).isSome))

/-! ### The end of a write -/

theorem activeMember_eq_some_iff {db : SharedDb} {listId userId : Uuid} {row : SharedMemberRow} :
    db.activeMember listId userId = some row ↔
      db.members.lookup (listId, userId) = some row ∧ row.deletedAt = none := by
  simp [SharedDb.activeMember, Option.filter_eq_some_iff]

theorem SharedDb.SameLives.of_lists_eq {before after : SharedDb} (h : after.lists = before.lists) :
    SameLives before after := by
  intro listId
  rw [SharedDb.liveList, SharedDb.liveList, h]

theorem liveList_insert (db : SharedDb) (listId other : Uuid) (row : SharedListRow) :
    (SharedDb.liveList { db with lists := db.lists.insert listId row } other).isSome =
      if other = listId then row.deletedAt.isNone else (db.liveList other).isSome := by
  rw [SharedDb.liveList, Table.lookup_insert_eq_ite]
  by_cases hother : other = listId
  · rw [if_pos hother, if_pos hother]
    cases hdeleted : row.deletedAt <;> simp [Option.filter, hdeleted]
  · rw [if_neg hother, if_neg hother]
    rfl

theorem sameLives_bumpRevision (db : SharedDb) (listId : Uuid) (current : Int) (now : Instant) :
    SameLives db (db.bumpRevision listId current now) := by
  intro other
  unfold SharedDb.bumpRevision
  cases hlist : db.lists.lookup listId with
  | none => rfl
  | some list =>
      rw [liveList_insert]
      by_cases hother : other = listId
      · subst hother
        rw [if_pos rfl, SharedDb.liveList, hlist]
        cases hdeleted : list.deletedAt <;> simp [Option.filter, hdeleted]
      · rw [if_neg hother]

/-- Revision and receipt leave memberships, invitations and the lives of lists alone. -/
theorem access_of_commitWrite {db next : SharedDb} {call : SharedCall} {listId : Uuid}
    {opId : Option Uuid} {current : Int} (h : commitWrite db call listId opId current = .ok next) :
    next.members = db.members ∧ next.invitations = db.invitations ∧ next.users = db.users ∧
      SameLives db next := by
  rw [commitWrite, insertReceipt_eq_ok_iff] at h
  obtain ⟨-, rfl⟩ := h
  refine ⟨?_, ?_, ?_, sameLives_bumpRevision db listId current call.now⟩ <;>
    · show _ = _
      unfold SharedDb.bumpRevision
      cases db.lists.lookup listId <;> rfl

theorem ownedBy_of_lockAccess {db : SharedDb} {listId userId : Uuid} {access : SharedAccess}
    {done : Unit} (haccess : lockAccess db listId userId = .ok access)
    (hrole : requireOwner access.role = .ok done) : db.OwnedBy listId userId := by
  unfold lockAccess at haccess
  split at haccess
  · rename_i list member hlist hmember
    cases Except.ok.inj haccess
    refine ⟨by rw [hlist]; rfl, member, hmember, ?_⟩
    rw [requireOwner, refuseIf_eq_ok_iff] at hrole
    cases hvalue : member.role <;> simp_all [SharedRole.isOwner]
  · split at haccess <;> cases haccess

/-! ### Requests -/

section

variable {call : SharedCall} {response : SharedResponse} {before after : SharedDb}

theorem createList_access {request : CreateListRequest}
    (h : createList call request before = .ok (response, after)) :
    AccessEffect call (.createList request) before after := by
  simp only [createList, bind_eq_ok_iff, refuseIf_eq_ok_iff] at h
  obtain ⟨name, -, color, -, icon, -, _, hnew, next, hreceipt, h⟩ := h
  cases Except.ok.inj h
  obtain ⟨-, rfl⟩ := insertReceipt_eq_ok_iff.mp hreceipt
  refine .founded ⟨request, rfl⟩ (by simpa using hnew) rfl rfl fun listId => ?_
  refine (liveList_insert before call.newId listId _).trans ?_
  by_cases hlist : listId = call.newId <;> simp [hlist]

theorem createTask_access {listId : Uuid} {ifMatch : Option Int} {request : CreateTaskRequest}
    (h : createTask call listId ifMatch request before = .ok (response, after)) :
    AccessEffect call (.createTask listId ifMatch request) before after := by
  simp only [createTask, bind_eq_ok_iff] at h
  obtain ⟨access, -, _, -, replay, -, h⟩ := h
  cases replay with
  | some revision =>
      cases Except.ok.inj h
      exact .kept rfl rfl fun _ => rfl
  | none =>
      simp only [bind_eq_ok_iff] at h
      obtain ⟨expected, -, _, -, title, -, note, -, dueOn, -, db, hinsert, next, hcommit, h⟩ := h
      cases Except.ok.inj h
      obtain ⟨-, rfl⟩ := insertTask_eq_ok_iff.mp hinsert
      obtain ⟨hmembers, hinvitations, -, hlives⟩ := access_of_commitWrite hcommit
      exact .kept hmembers hinvitations hlives

theorem patchTask_access {listId taskId : Uuid} {ifMatch : Option Int} {request : PatchTaskRequest}
    (h : patchTask call listId taskId ifMatch request before = .ok (response, after)) :
    AccessEffect call (.patchTask listId taskId ifMatch request) before after := by
  simp only [patchTask, bind_eq_ok_iff] at h
  obtain ⟨_, -, access, -, _, -, replay, -, h⟩ := h
  cases replay with
  | some revision =>
      simp only [bind_eq_ok_iff] at h
      obtain ⟨task, -, h⟩ := h
      cases Except.ok.inj h
      exact .kept rfl rfl fun _ => rfl
  | none =>
      simp only [bind_eq_ok_iff] at h
      obtain ⟨expected, -, _, -, row, -, patched, -, next, hcommit, task, -, h⟩ := h
      cases Except.ok.inj h
      obtain ⟨hmembers, hinvitations, -, hlives⟩ := access_of_commitWrite hcommit
      exact .kept hmembers hinvitations hlives

theorem deleteTask_access {listId taskId : Uuid} {ifMatch : Option Int} {request : RevisionRequest}
    (h : deleteTask call listId taskId ifMatch request before = .ok (response, after)) :
    AccessEffect call (.deleteTask listId taskId ifMatch request) before after := by
  simp only [deleteTask, bind_eq_ok_iff] at h
  obtain ⟨access, -, _, -, replay, -, h⟩ := h
  cases replay with
  | some revision =>
      cases Except.ok.inj h
      exact .kept rfl rfl fun _ => rfl
  | none =>
      simp only [bind_eq_ok_iff] at h
      obtain ⟨expected, -, _, -, row, -, next, hcommit, h⟩ := h
      cases Except.ok.inj h
      obtain ⟨hmembers, hinvitations, -, hlives⟩ := access_of_commitWrite hcommit
      exact .kept hmembers hinvitations hlives

theorem guest_of_parseInviteRole {value : String} {role : SharedRole}
    (h : parseInviteRole value = .ok role) : role ≠ .owner := by
  simp only [parseInviteRole, bind_eq_ok_iff, refuseIf_eq_ok_iff] at h
  obtain ⟨parsed, -, _, hrole, h⟩ := h
  cases Except.ok.inj h
  rintro rfl
  exact hrole rfl

theorem addMember_access {listId : Uuid} {ifMatch : Option Int} {request : AddMemberRequest}
    (h : addMember call listId ifMatch request before = .ok (response, after)) :
    AccessEffect call (.addMember listId ifMatch request) before after := by
  simp only [addMember, bind_eq_ok_iff] at h
  obtain ⟨role, hguest, h⟩ := h
  split at h
  · cases h
  · rename_i email _
    simp only [bind_eq_ok_iff] at h
    obtain ⟨access, haccess, _, howner, replay, -, h⟩ := h
    cases replay with
    | some revision =>
        cases Except.ok.inj h
        exact .kept rfl rfl fun _ => rfl
    | none =>
        simp only [bind_eq_ok_iff] at h
        obtain ⟨expected, -, _, -, _, -, _, hnew, next, hcommit, invitation, -, h⟩ := h
        cases Except.ok.inj h
        obtain ⟨hmembers, hinvitations, -, hlives⟩ := access_of_commitWrite hcommit
        have hsame : (before.invite call listId email role).2.members = before.members ∧
            (before.invite call listId email role).2.lists = before.lists := by
          unfold SharedDb.invite
          split <;> exact ⟨rfl, rfl⟩
        refine .invited listId email role (ownedBy_of_lockAccess haccess howner)
          (guest_of_parseInviteRole hguest) ?_ (hmembers.trans hsame.1) hinvitations fun other => ?_
        · intro hnone
          simpa [refuseIf_eq_ok_iff, hnone] using hnew
        · exact (hlives other).trans (SameLives.of_lists_eq hsame.2 other)

theorem addressed_of_lockInvitation {invitationId userId : Uuid} {found : InvitationRow × Int}
    (h : lockInvitation before invitationId userId = .ok found) :
    before.Addressed found.1 userId := by
  unfold lockInvitation at h
  split at h
  · rename_i row account _ haccount
    split at h
    · cases h
    · rename_i hemail
      split at h
      · cases h
        obtain ⟨haccount, hdeleted⟩ := Option.filter_eq_some_iff.mp haccount
        exact ⟨account, haccount, by simpa using hdeleted, by simpa using hemail⟩
      · cases h
  · cases h

theorem lists_join (db : SharedDb) (call : SharedCall) (listId : Uuid) (role : SharedRole) :
    (db.join call listId role).lists = db.lists ∧
      (db.join call listId role).invitations = db.invitations := by
  unfold SharedDb.join
  split
  · exact ⟨rfl, rfl⟩
  · dsimp only
    split <;> exact ⟨rfl, rfl⟩

theorem members_respond (db : SharedDb) (call : SharedCall) (invitationId : Uuid)
    (status : InvitationStatus) : (db.respond call invitationId status).members = db.members ∧
      (db.respond call invitationId status).lists = db.lists := by
  unfold SharedDb.respond
  split <;> exact ⟨rfl, rfl⟩

/-- Only the invitations count for a response. -/
theorem respond_congr {db other : SharedDb} (h : db.invitations = other.invitations)
    (call : SharedCall) (invitationId : Uuid) (status : InvitationStatus) :
    (db.respond call invitationId status).invitations =
      (other.respond call invitationId status).invitations := by
  unfold SharedDb.respond
  rw [h]
  split
  · exact h
  · rfl

theorem acceptInvitation_access {invitationId : Uuid} {opId : Option Uuid}
    (h : acceptInvitation call invitationId opId before = .ok (response, after)) :
    AccessEffect call (.acceptInvitation invitationId opId) before after := by
  simp only [acceptInvitation, bind_eq_ok_iff] at h
  obtain ⟨found, hfound, replay, -, h⟩ := h
  split at h
  · split at h <;> cases h
    exact .kept rfl rfl fun _ => rfl
  · simp only [bind_eq_ok_iff, refuseIf_eq_ok_iff] at h
    obtain ⟨_, hpending, next, hcommit, list, -, h⟩ := h
    cases Except.ok.inj h
    obtain ⟨hmembers, hinvitations, -, hlives⟩ := access_of_commitWrite hcommit
    obtain ⟨hjoinLists, hjoinInvitations⟩ := lists_join before call found.1.listId found.1.role
    obtain ⟨hrespondMembers, hrespondLists⟩ := members_respond
      (before.join call found.1.listId found.1.role) call invitationId .accepted
    refine .accepted invitationId found.1 ⟨opId, rfl⟩ (lockInvitation_eq_ok hfound).1
      (by simpa using hpending) (addressed_of_lockInvitation hfound) (hmembers.trans hrespondMembers)
      (hinvitations.trans (respond_congr hjoinInvitations call invitationId .accepted))
      fun other => ?_
    exact (hlives other).trans (SameLives.of_lists_eq (hrespondLists.trans hjoinLists) other)

theorem declineInvitation_access {invitationId : Uuid} {opId : Option Uuid}
    (h : declineInvitation call invitationId opId before = .ok (response, after)) :
    AccessEffect call (.declineInvitation invitationId opId) before after := by
  simp only [declineInvitation, bind_eq_ok_iff] at h
  obtain ⟨found, -, replay, -, h⟩ := h
  split at h
  · cases h
    exact .kept rfl rfl fun _ => rfl
  · simp only [bind_eq_ok_iff] at h
    obtain ⟨_, -, next, hcommit, h⟩ := h
    cases Except.ok.inj h
    obtain ⟨hmembers, hinvitations, -, hlives⟩ := access_of_commitWrite hcommit
    obtain ⟨hrespondMembers, hrespondLists⟩ := members_respond before call invitationId .declined
    refine .declined invitationId (hmembers.trans hrespondMembers) hinvitations fun other => ?_
    exact (hlives other).trans (SameLives.of_lists_eq hrespondLists other)

theorem selectMember_eq_ok {listId userId : Uuid} {member : SharedMemberRow}
    (h : selectMember before listId userId = .ok member) :
    before.activeMember listId userId = some member := by
  unfold selectMember at h
  split at h
  · rename_i found hfound
    cases Except.ok.inj h
    exact hfound
  · cases h

theorem patchMember_access {listId userId : Uuid} {ifMatch : Option Int}
    {request : PatchMemberRequest}
    (h : patchMember call listId userId ifMatch request before = .ok (response, after)) :
    AccessEffect call (.patchMember listId userId ifMatch request) before after := by
  simp only [patchMember, bind_eq_ok_iff] at h
  obtain ⟨role, -, _, hself, access, haccess, _, howner, replay, -, h⟩ := h
  cases replay with
  | some revision =>
      simp only [bind_eq_ok_iff] at h
      obtain ⟨member, -, h⟩ := h
      cases Except.ok.inj h
      exact .kept rfl rfl fun _ => rfl
  | none =>
      simp only [bind_eq_ok_iff] at h
      obtain ⟨expected, -, _, -, member, hmember, next, hcommit, answer, -, h⟩ := h
      cases Except.ok.inj h
      have hfound := selectMember_eq_ok hmember
      obtain ⟨hmembers, hinvitations, -, hlives⟩ := access_of_commitWrite hcommit
      refine .changed listId userId member { member with role := role }
        (fun _ _ heq => by cases heq) (ownedBy_of_lockAccess haccess howner) hfound ?_ hmembers hinvitations hlives
      rintro rfl
      refine ⟨?_, (activeMember_eq_some_iff.mp hfound).2⟩
      rw [refuseIf_eq_ok_iff] at hself
      cases role <;> simp_all [SharedRole.isOwner]

theorem removeMember_access {listId userId : Uuid} {ifMatch : Option Int}
    {request : RevisionRequest}
    (h : removeMember call listId userId ifMatch request before = .ok (response, after)) :
    AccessEffect call (.removeMember listId userId ifMatch request) before after := by
  simp only [removeMember, bind_eq_ok_iff] at h
  obtain ⟨_, hself, access, haccess, _, howner, replay, -, h⟩ := h
  cases replay with
  | some revision =>
      cases Except.ok.inj h
      exact .kept rfl rfl fun _ => rfl
  | none =>
      simp only [bind_eq_ok_iff] at h
      obtain ⟨expected, -, _, -, member, hmember, next, hcommit, h⟩ := h
      cases Except.ok.inj h
      obtain ⟨hmembers, hinvitations, -, hlives⟩ := access_of_commitWrite hcommit
      refine .changed listId userId member { member with deletedAt := some call.now.toColumn }
        (fun _ _ heq => by cases heq) (ownedBy_of_lockAccess haccess howner)
        (selectMember_eq_ok hmember) ?_ hmembers hinvitations hlives
      rintro rfl
      simp [refuseIf_eq_ok_iff] at hself

theorem deleteList_access {listId : Uuid} {ifMatch : Option Int} {request : RevisionRequest}
    (h : deleteList call listId ifMatch request before = .ok (response, after)) :
    AccessEffect call (.deleteList listId ifMatch request) before after := by
  simp only [deleteList, bind_eq_ok_iff] at h
  obtain ⟨access, haccess, _, howner, replay, -, h⟩ := h
  cases replay with
  | some revision =>
      cases Except.ok.inj h
      exact .kept rfl rfl fun _ => rfl
  | none =>
      simp only [bind_eq_ok_iff] at h
      obtain ⟨expected, -, _, -, next, hcommit, h⟩ := h
      cases Except.ok.inj h
      obtain ⟨hmembers, hinvitations, -, hlives⟩ := access_of_commitWrite hcommit
      have hmarked : (before.markDeleted listId call.now).members = before.members ∧
          (before.markDeleted listId call.now).invitations = before.invitations := by
        unfold SharedDb.markDeleted
        split <;> exact ⟨rfl, rfl⟩
      have howned := ownedBy_of_lockAccess haccess howner
      refine .closed listId howned (hmembers.trans hmarked.1) (hinvitations.trans hmarked.2)
        fun other => (hlives other).trans ?_
      unfold SharedDb.markDeleted
      cases hlist : before.lists.lookup listId with
      | none =>
          have hlive := howned.1
          rw [SharedDb.liveList, hlist] at hlive
          cases hlive
      | some list =>
          rw [liveList_insert]
          by_cases hother : other = listId <;> simp [hother]

theorem handleShared_access {request : SharedRequest}
    (h : handleShared call before request = .ok (response, after)) :
    AccessEffect call request before after := by
  cases request with
  | listLists =>
      cases h
      exact .kept rfl rfl fun _ => rfl
  | getList listId =>
      rw [(getList_eq_ok h).1]
      exact .kept rfl rfl fun _ => rfl
  | createList request => exact createList_access h
  | createTask listId ifMatch request => exact createTask_access h
  | patchTask listId taskId ifMatch request => exact patchTask_access h
  | deleteTask listId taskId ifMatch request => exact deleteTask_access h
  | addMember listId ifMatch request => exact addMember_access h
  | acceptInvitation invitationId opId => exact acceptInvitation_access h
  | declineInvitation invitationId opId => exact declineInvitation_access h
  | patchMember listId userId ifMatch request => exact patchMember_access h
  | removeMember listId userId ifMatch request => exact removeMember_access h
  | deleteList listId ifMatch request => exact deleteList_access h

end

end ShishiTodo
