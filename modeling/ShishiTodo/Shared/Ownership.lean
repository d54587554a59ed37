import ShishiTodo.Shared.Memberships

/-!
# Every live list has an owner

Owners may promote, demote and remove one another, but nobody demotes or removes himself, so the owner who acts is always left. Invitations never carry the owner's role.
-/

namespace ShishiTodo

open Lib SharedDb

/-- A live list has an active owner, and nobody is invited as one. -/
structure Owned (db : SharedDb) : Prop where
  owner : ∀ listId, (db.liveList listId).isSome → ∃ userId, db.OwnedBy listId userId
  guests : ∀ invitationId row, db.invitations.lookup invitationId = some row → row.role ≠ .owner

section

variable {call : SharedCall} {request : SharedRequest} {before after : SharedDb}

theorem SharedDb.OwnedBy.of_members_eq {listId userId : Uuid} (h : before.OwnedBy listId userId)
    (hmembers : after.members = before.members) (hlive : (after.liveList listId).isSome) :
    after.OwnedBy listId userId := by
  obtain ⟨-, member, hmember, hrole⟩ := h
  refine ⟨hlive, member, ?_, hrole⟩
  rw [SharedDb.activeMember, hmembers]
  exact hmember

/-- The owner of a list stays one when somebody else's membership is written. -/
theorem SharedDb.OwnedBy.insert {listId userId : Uuid} {key : Uuid × Uuid} {row : SharedMemberRow}
    (h : before.OwnedBy listId userId) (hne : (listId, userId) ≠ key)
    (hmembers : after.members = before.members.insert key row)
    (hlive : (after.liveList listId).isSome) : after.OwnedBy listId userId := by
  obtain ⟨-, member, hmember, hrole⟩ := h
  refine ⟨hlive, member, ?_, hrole⟩
  rw [SharedDb.activeMember, hmembers, AList.lookup_insert_ne hne]
  exact hmember

/-- Joining leaves the active memberships as they are. -/
theorem activeMember_join {listId userId : Uuid} {member : SharedMemberRow}
    (h : before.activeMember listId userId = some member) (call : SharedCall) (other : Uuid)
    (role : SharedRole) : (before.join call other role).members.lookup (listId, userId) =
      before.members.lookup (listId, userId) := by
  obtain ⟨hlookup, hlive⟩ := activeMember_eq_some_iff.mp h
  unfold SharedDb.join
  split
  · rename_i hnone
    by_cases hkey : (listId, userId) = (other, call.actor)
    · rw [← hkey, hlookup] at hnone
      cases hnone
    · rw [AList.lookup_insert_ne hkey]
  · dsimp only
    split
    · rfl
    · rename_i hinactive
      by_cases hkey : (listId, userId) = (other, call.actor)
      · cases hkey
        rw [h] at hinactive
        exact absurd rfl hinactive
      · rw [AList.lookup_insert_ne hkey]

theorem guests_invite (hguests : ∀ invitationId row,
      before.invitations.lookup invitationId = some row → row.role ≠ .owner)
    {role : SharedRole} (hrole : role ≠ .owner) (listId : Uuid) (email : String) :
    ∀ invitationId row, (before.invite call listId email role).2.invitations.lookup invitationId =
      some row → row.role ≠ .owner := by
  intro invitationId row hlookup
  unfold SharedDb.invite at hlookup
  split at hlookup <;>
    · simp only [Table.lookup_insert_eq_ite] at hlookup
      split at hlookup
      · cases Option.some.inj hlookup
        exact hrole
      · exact hguests invitationId row hlookup

theorem guests_respond (hguests : ∀ invitationId row,
      before.invitations.lookup invitationId = some row → row.role ≠ .owner)
    (answered : Uuid) (status : InvitationStatus) :
    ∀ invitationId row, (before.respond call answered status).invitations.lookup invitationId =
      some row → row.role ≠ .owner := by
  intro invitationId row hlookup
  unfold SharedDb.respond at hlookup
  split at hlookup
  · exact hguests invitationId row hlookup
  · rename_i found hfound
    simp only [Table.lookup_insert_eq_ite] at hlookup
    split at hlookup
    · cases Option.some.inj hlookup
      exact hguests answered found (Option.filter_eq_some_iff.mp hfound).1
    · exact hguests invitationId row hlookup

/-- A request keeps every list owned. -/
theorem Owned.access (h : Owned before) (heffect : AccessEffect call request before after) :
    Owned after := by
  cases heffect with
  | kept members invitations lives =>
      refine ⟨fun listId hlive => ?_, by rw [invitations]; exact h.guests⟩
      obtain ⟨userId, howned⟩ := h.owner listId (lives listId ▸ hlive)
      exact ⟨userId, howned.of_members_eq members hlive⟩
  | founded founding new members invitations lives =>
      refine ⟨fun listId hlive => ?_, by rw [invitations]; exact h.guests⟩
      by_cases hlist : listId = call.newId
      · subst hlist
        refine ⟨call.actor, hlive, ⟨.owner, call.now.toColumn, none⟩, ?_, rfl⟩
        rw [SharedDb.activeMember, members, AList.lookup_insert]
        rfl
      · have hbefore : (before.liveList listId).isSome := by
          rw [lives] at hlive
          simpa [hlist] using hlive
        obtain ⟨userId, howned⟩ := h.owner listId hbefore
        exact ⟨userId, howned.insert (fun heq => hlist (congrArg Prod.fst heq)) members hlive⟩
  | invited listId email role owner guest new members invitations lives =>
      refine ⟨fun other hlive => ?_, ?_⟩
      · obtain ⟨userId, howned⟩ := h.owner other (lives other ▸ hlive)
        exact ⟨userId, howned.of_members_eq members hlive⟩
      · rw [invitations]
        exact guests_invite h.guests guest listId email
  | accepted invitationId row accepting found pending addressed members invitations lives =>
      refine ⟨fun other hlive => ?_, ?_⟩
      · obtain ⟨userId, -, member, hmember, hrole⟩ := h.owner other (lives other ▸ hlive)
        refine ⟨userId, hlive, member, ?_, hrole⟩
        rw [SharedDb.activeMember, members, activeMember_join hmember]
        exact hmember
      · rw [invitations]
        exact guests_respond h.guests invitationId .accepted
  | declined invitationId members invitations lives =>
      refine ⟨fun other hlive => ?_, ?_⟩
      · obtain ⟨userId, howned⟩ := h.owner other (lives other ▸ hlive)
        exact ⟨userId, howned.of_members_eq members hlive⟩
      · rw [invitations]
        exact guests_respond h.guests invitationId .declined
  | changed listId userId member next managing owner found own members invitations lives =>
      refine ⟨fun other hlive => ?_, by rw [invitations]; exact h.guests⟩
      by_cases hother : other = listId
      · -- The owner who acts is left, whoever's membership it was.
        subst hother
        by_cases hself : userId = call.actor
        · obtain ⟨hrole, hactive⟩ := own hself
          refine ⟨userId, hlive, next, ?_, hrole⟩
          rw [SharedDb.activeMember, members, AList.lookup_insert, Option.filter_some, if_pos]
          rw [hactive]
          rfl
        · exact ⟨call.actor, owner.insert (fun heq => hself (congrArg Prod.snd heq).symm) members hlive⟩
      · obtain ⟨ownerId, howned⟩ := h.owner other (lives other ▸ hlive)
        exact ⟨ownerId, howned.insert (fun heq => hother (congrArg Prod.fst heq)) members hlive⟩
  | closed listId owner members invitations lives =>
      refine ⟨fun other hlive => ?_, by rw [invitations]; exact h.guests⟩
      have hbefore : (before.liveList other).isSome := by
        rw [lives] at hlive
        exact (Bool.and_eq_true_iff.mp hlive).2
      obtain ⟨userId, howned⟩ := h.owner other hbefore
      exact ⟨userId, howned.of_members_eq members hlive⟩

theorem Owned.serve (h : Owned before) (call : SharedCall) (request : SharedRequest) :
    Owned (serveShared call before request).2 := by
  unfold serveShared
  split
  · rename_i response after hhandle
    exact h.access (handleShared_access hhandle)
  · exact h

end

theorem owned_run (events : List SharedServerEvent) : Owned (sharedServer.run .empty events) := by
  refine sharedServer.invariant (fun db _ => Owned db) ?_ ?_ events
  · intro db served event h
    cases event with
    | accounts users => exact ⟨h.owner, h.guests⟩
    | serve call request => exact h.serve call request
  · refine ⟨fun listId hlive => ?_, fun invitationId row hlookup => ?_⟩
    · cases hlive
    · cases hlookup

/-! ### Changes of a membership -/

/-- Why the membership of a user may change in a step. -/
inductive MembershipCause (db : SharedDb) (listId userId : Uuid) : SharedServerEvent → Prop
  | owner (call : SharedCall) (request : SharedRequest) (owner : db.OwnedBy listId call.actor) :
      MembershipCause db listId userId (.serve call request)
  | accepted (call : SharedCall) (invitationId : Uuid) (opId : Option Uuid) (row : InvitationRow)
      (self : call.actor = userId) (found : db.invitations.lookup invitationId = some row)
      (list : row.listId = listId) (addressed : db.Addressed row userId) :
      MembershipCause db listId userId (.serve call (.acceptInvitation invitationId opId))

section

variable {db : SharedDb} {listId userId : Uuid}

theorem members_join_ne {call : SharedCall} {other : Uuid} {role : SharedRole}
    (h : (listId, userId) ≠ (other, call.actor)) :
    (db.join call other role).members.lookup (listId, userId) = db.members.lookup (listId, userId) := by
  unfold SharedDb.join
  split
  · rw [AList.lookup_insert_ne h]
  · dsimp only
    split
    · rfl
    · rw [AList.lookup_insert_ne h]

theorem lookup_join (call : SharedCall) (role : SharedRole)
    (hinactive : db.activeMember listId call.actor = none) :
    ∃ member, (db.join call listId role).members.lookup (listId, call.actor) = some member ∧
      member.role = role := by
  unfold SharedDb.join
  split
  · exact ⟨_, AList.lookup_insert _, rfl⟩
  · rename_i member _
    dsimp only
    rw [hinactive, if_neg (by simp)]
    exact ⟨_, AList.lookup_insert _, rfl⟩

/-- A membership changes by an active owner's request, by the user's own acceptance, or when the user founds the list. -/
theorem cause_of_access {call : SharedCall} {request : SharedRequest} {after : SharedDb}
    (heffect : AccessEffect call request db after)
    (hchanged : after.members.lookup (listId, userId) ≠ db.members.lookup (listId, userId)) :
    MembershipCause db listId userId (.serve call request) ∨
      (db.lists.lookup listId = none ∧ userId = call.actor ∧
        (∃ body, request = .createList body) ∧ after.OwnedBy listId userId) := by
  cases heffect with
  | kept members invitations lives => exact absurd (by rw [members]) hchanged
  | founded founding new members invitations lives =>
      rw [members] at hchanged
      have hkey : (listId, userId) = (call.newId, call.actor) := by
        by_contra hne
        exact hchanged (AList.lookup_insert_ne hne)
      cases hkey
      refine .inr ⟨new, rfl, founding, ?_, ⟨.owner, call.now.toColumn, none⟩, ?_, rfl⟩
      · rw [lives]
        simp
      · rw [SharedDb.activeMember, members, AList.lookup_insert]
        rfl
  | invited other email role owner guest new members invitations lives =>
      exact absurd (by rw [members]) hchanged
  | accepted invitationId row accepting found pending addressed members invitations lives =>
      rw [members] at hchanged
      have hkey : (listId, userId) = (row.listId, call.actor) := by
        by_contra hne
        exact hchanged (members_join_ne hne)
      cases hkey
      obtain ⟨opId, rfl⟩ := accepting
      exact .inl (.accepted call invitationId opId row rfl found rfl addressed)
  | declined invitationId members invitations lives => exact absurd (by rw [members]) hchanged
  | changed other target member next managing owner found own members invitations lives =>
      rw [members] at hchanged
      have hkey : (listId, userId) = (other, target) := by
        by_contra hne
        exact hchanged (AList.lookup_insert_ne hne)
      cases hkey
      exact .inl (.owner call request owner)
  | closed other owner members invitations lives => exact absurd (by rw [members]) hchanged

/-- What an acceptance gives is not the owner's role, and it gives nothing to an active member. -/
theorem guest_of_accept (h : Owned db) {call : SharedCall} {invitationId : Uuid} {opId : Option Uuid}
    {response : SharedResponse} {after : SharedDb}
    (hhandle : handleShared call db (.acceptInvitation invitationId opId) = .ok (response, after))
    (hchanged : after.members.lookup (listId, userId) ≠ db.members.lookup (listId, userId)) :
    db.activeMember listId userId = none ∧
      ∃ member, after.members.lookup (listId, userId) = some member ∧ member.role ≠ .owner := by
  cases handleShared_access hhandle with
  | kept members invitations lives => exact absurd (by rw [members]) hchanged
  | founded founding new members invitations lives =>
      obtain ⟨body, hbody⟩ := founding
      cases hbody
  | invited other email role owner guest new members invitations lives =>
      exact absurd (by rw [members]) hchanged
  | accepted accepted row accepting found pending addressed members invitations lives =>
      rw [members] at hchanged ⊢
      have hkey : (listId, userId) = (row.listId, call.actor) := by
        by_contra hne
        exact hchanged (members_join_ne hne)
      cases hkey
      have hinactive : db.activeMember row.listId call.actor = none := by
        rw [Option.eq_none_iff_forall_ne_some]
        exact fun member hmember => hchanged (activeMember_join hmember call _ _)
      obtain ⟨member, hmember, hrole⟩ := lookup_join call row.role hinactive
      exact ⟨hinactive, member, hmember, hrole ▸ h.guests accepted row found⟩
  | declined invitation members invitations lives => exact absurd (by rw [members]) hchanged
  | changed other target member next managing owner found own members invitations lives =>
      exact absurd rfl (managing invitationId opId)
  | closed other owner members invitations lives => exact absurd (by rw [members]) hchanged

end

/-- In every run each live list has an active owner. A membership changes only by a request of an active owner of the list, by the user's acceptance of an invitation to the user's own address, or when the user founds the list; and an acceptance neither makes an owner nor changes an active membership. -/
theorem shared_ownership_safe (events : List SharedServerEvent) :
    (∀ listId, ((sharedServer.run .empty events).liveList listId).isSome →
      ∃ userId, (sharedServer.run .empty events).OwnedBy listId userId) ∧
    (∀ event listId userId,
      (sharedServer.step (sharedServer.run .empty events) event).members.lookup (listId, userId) ≠
        (sharedServer.run .empty events).members.lookup (listId, userId) →
      MembershipCause (sharedServer.run .empty events) listId userId event ∨
        ((sharedServer.run .empty events).lists.lookup listId = none ∧
          ∃ call body, event = .serve call (.createList body) ∧ userId = call.actor ∧
            (sharedServer.step (sharedServer.run .empty events) event).OwnedBy listId userId)) ∧
    ∀ call invitationId opId listId userId,
      (serveShared call (sharedServer.run .empty events)
        (.acceptInvitation invitationId opId)).2.members.lookup (listId, userId) ≠
        (sharedServer.run .empty events).members.lookup (listId, userId) →
      (sharedServer.run .empty events).activeMember listId userId = none ∧
        ∃ member, (serveShared call (sharedServer.run .empty events)
          (.acceptInvitation invitationId opId)).2.members.lookup (listId, userId) = some member ∧
          member.role ≠ .owner := by
  have howned := owned_run events
  generalize sharedServer.run .empty events = db at howned
  refine ⟨howned.owner, ?_, ?_⟩
  · intro event listId userId hchanged
    cases event with
    | accounts users => exact absurd rfl hchanged
    | serve call request =>
        change (serveShared call db request).2.members.lookup (listId, userId) ≠ _ at hchanged
        show _ ∨ (_ ∧ ∃ other body, _ ∧ _ ∧ (serveShared call db request).2.OwnedBy listId userId)
        unfold serveShared at hchanged ⊢
        cases hhandle : handleShared call db request with
        | error error =>
            rw [hhandle] at hchanged
            exact absurd rfl hchanged
        | ok done =>
            obtain ⟨response, after⟩ := done
            rw [hhandle] at hchanged
            rcases cause_of_access (handleShared_access hhandle) hchanged with
              hcause | ⟨hnew, hself, ⟨body, rfl⟩, hfounder⟩
            · exact .inl hcause
            · exact .inr ⟨hnew, call, body, rfl, hself, hfounder⟩
  · intro call invitationId opId listId userId hchanged
    unfold serveShared at hchanged ⊢
    cases hhandle : handleShared call db (.acceptInvitation invitationId opId) with
    | error error =>
        rw [hhandle] at hchanged
        exact absurd rfl hchanged
    | ok done =>
        obtain ⟨response, after⟩ := done
        rw [hhandle] at hchanged
        exact guest_of_accept howned hhandle hchanged

end ShishiTodo
