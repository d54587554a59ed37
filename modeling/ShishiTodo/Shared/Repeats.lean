import ShishiTodo.Shared.Memberships
import ShishiTodo.Shared.Shadow

/-!
# Repeated requests

A write leaves a receipt of its operation in the list, an answer to an invitation stays given, and neither goes away. So a request that succeeded once is a replay from then on, whatever was written in between. Only the creation of a list looks for no receipt.
-/

namespace ShishiTodo

open Lib SharedDb

section

variable {call : SharedCall} {request : SharedRequest} {before after : SharedDb}

/-! ### What stays -/

/-- An invitation stays in its list, and one that was answered stays as it is. -/
def InvitationsStay (before after : SharedDb) : Prop :=
  ∀ invitationId row, before.invitations.lookup invitationId = some row →
    ∃ next, after.invitations.lookup invitationId = some next ∧ next.listId = row.listId ∧
      (row.status ≠ .pending → next = row)

theorem InvitationsStay.of_eq (h : after.invitations = before.invitations) :
    InvitationsStay before after :=
  fun _ row hrow => ⟨row, h ▸ hrow, rfl, fun _ => rfl⟩

/-- One invitation that was pending is written. -/
theorem InvitationsStay.insert {invitationId : Uuid} {row next : InvitationRow}
    (hrow : before.invitations.lookup invitationId = some row) (hpending : row.status = .pending)
    (h : after.invitations = before.invitations.insert invitationId next)
    (hlist : next.listId = row.listId) : InvitationsStay before after := by
  intro other found hfound
  by_cases hother : other = invitationId
  · subst hother
    cases Option.some.inj (hrow.symm.trans hfound)
    refine ⟨next, by rw [h, AList.lookup_insert], hlist, fun hanswered => ?_⟩
    exact absurd hpending hanswered
  · exact ⟨found, by rw [h, AList.lookup_insert_ne hother, hfound], rfl, fun _ => rfl⟩

theorem pendingInvitation_eq_some {listId : Uuid} {email : String} {found : Uuid × InvitationRow}
    (h : before.pendingInvitation listId email = some found) :
    before.invitations.lookup found.1 = some found.2 ∧ found.2.listId = listId ∧
      found.2.status = .pending := by
  obtain ⟨entry, hentry, rfl⟩ := Option.map_eq_some_iff.mp h
  have htest := List.find?_some hentry
  simp only [Bool.and_eq_true, beq_iff_eq] at htest
  exact ⟨Table.mem_entries_iff.mp (List.mem_of_find?_eq_some hentry), htest.1.1, htest.2⟩

theorem invitationsStay_invite (call : SharedCall) (listId : Uuid) (email : String)
    (role : SharedRole) (hnew : before.pendingInvitation listId email = none →
      before.invitations.lookup call.newId = none) :
    InvitationsStay before (before.invite call listId email role).2 := by
  unfold SharedDb.invite
  cases hpending : before.pendingInvitation listId email with
  | some found =>
      obtain ⟨hrow, -, hstatus⟩ := pendingInvitation_eq_some hpending
      exact .insert hrow hstatus rfl rfl
  | none =>
      intro other found hfound
      have hother : other ≠ call.newId := by
        rintro rfl
        rw [hnew hpending] at hfound
        cases hfound
      exact ⟨found, by rw [AList.lookup_insert_ne hother, hfound], rfl, fun _ => rfl⟩

theorem invitationsStay_respond (call : SharedCall) (invitationId : Uuid)
    (status : InvitationStatus) :
    InvitationsStay before (before.respond call invitationId status) := by
  unfold SharedDb.respond
  split
  · exact .of_eq rfl
  · rename_i row hrow
    obtain ⟨hlookup, hstatus⟩ := Option.filter_eq_some_iff.mp hrow
    exact .insert hlookup (by simpa using hstatus) rfl rfl

theorem InvitationsStay.access (h : AccessEffect call request before after) :
    InvitationsStay before after := by
  cases h with
  | kept members invitations lives => exact .of_eq invitations
  | founded founding new members invitations lives => exact .of_eq invitations
  | invited listId email role owner guest new members invitations lives =>
      intro invitationId row hrow
      rw [invitations]
      exact invitationsStay_invite call listId email role new invitationId row hrow
  | accepted answered row accepting found pending addressed members invitations lives =>
      intro invitationId row hrow
      rw [invitations]
      exact invitationsStay_respond call answered .accepted invitationId row hrow
  | declined answered members invitations lives =>
      intro invitationId row hrow
      rw [invitations]
      exact invitationsStay_respond call answered .declined invitationId row hrow
  | changed listId userId member next managing owner found own members invitations lives =>
      exact .of_eq invitations
  | closed listId owner members invitations lives => exact .of_eq invitations

def ReceiptsStay (before after : SharedDb) : Prop :=
  ∀ key receipt, before.receipts.lookup key = some receipt → after.receipts.lookup key = some receipt

theorem ReceiptsStay.effect {opId : Option Uuid} (h : ListEffect call opId before after) :
    ReceiptsStay before after := by
  intro key receipt hreceipt
  rcases h with rfl | ⟨listId, touched, write⟩
  · exact hreceipt
  · have hkey : key ≠ (listId, opId.getD call.receiptId) := by
      rintro rfl
      rw [write.unused] at hreceipt
      cases hreceipt
    rw [write.receipts, AList.lookup_insert_ne hkey, hreceipt]

/-! ### A replay stays one -/

theorem target_stays {listId : Uuid} (hinvitations : InvitationsStay before after)
    (h : before.target request = some listId) : after.target request = some listId := by
  cases request with
  | acceptInvitation invitationId opId | declineInvitation invitationId opId =>
      obtain ⟨row, hrow, rfl⟩ := Option.map_eq_some_iff.mp h
      obtain ⟨next, hnext, hlist, -⟩ := hinvitations invitationId row hrow
      rw [SharedDb.target, hnext, ← hlist]
      rfl
  | _ => exact h

theorem answered_stays (hinvitations : InvitationsStay before after)
    (h : before.answered call request = true) : after.answered call request = true := by
  cases request with
  | acceptInvitation invitationId opId | declineInvitation invitationId opId =>
      obtain ⟨row, hrow, hanswer⟩ := (Option.any_eq_true _ _).mp h
      obtain ⟨next, hnext, -, hsame⟩ := hinvitations invitationId row hrow
      have hstatus := (Bool.and_eq_true_iff.mp hanswer).1
      have hanswered : row.status ≠ .pending := by
        rw [beq_iff_eq] at hstatus
        rw [hstatus]
        decide
      rw [SharedDb.answered, hnext, hsame hanswered]
      exact hanswer
  | _ => cases h

theorem replays_stays (hinvitations : InvitationsStay before after)
    (hreceipts : ReceiptsStay before after) (h : before.replays call request = true) :
    after.replays call request = true := by
  rw [SharedDb.replays, Bool.or_eq_true_iff] at h ⊢
  refine h.imp (fun hreceipt => ?_) (answered_stays hinvitations)
  obtain ⟨listId, htarget, hany⟩ := (Option.any_eq_true _ _).mp hreceipt
  obtain ⟨opId, hopId, hsome⟩ := (Option.any_eq_true _ _).mp hany
  obtain ⟨receipt, hlookup⟩ := Option.isSome_iff_exists.mp hsome
  rw [target_stays hinvitations htarget, hopId]
  simp [hreceipts _ receipt hlookup]

theorem replays_event (event : SharedServerEvent) (h : before.replays call request = true) :
    (sharedServer.step before event).replays call request = true := by
  cases event with
  | accounts users => exact h
  | serve other served =>
      show (serveShared other before served).2.replays call request = true
      unfold serveShared
      split
      · rename_i response after hhandle
        exact replays_stays (.access (handleShared_access hhandle))
          (.effect (handleShared_effect hhandle)) h
      · exact h

theorem replays_run (events : List SharedServerEvent) :
    ∀ db : SharedDb, db.replays call request = true →
      (sharedServer.run db events).replays call request = true := by
  induction events with
  | nil => exact fun db h => h
  | cons event rest ih => exact fun db h => ih _ (replays_event event h)

/-- A request under an operation that does not create a list names its list. -/
theorem target_of_served {response : SharedResponse} {opId : Uuid} (hopId : request.opId = some opId)
    (hlist : ∀ body, request ≠ .createList body)
    (h : handleShared call before request = .ok (response, after)) :
    ∃ listId, before.target request = some listId := by
  cases request with
  | listLists | getList listId => cases hopId
  | createList body => exact absurd rfl (hlist body)
  | acceptInvitation invitationId opId =>
      simp only [handleShared, acceptInvitation, bind_eq_ok_iff] at h
      obtain ⟨found, hfound, -⟩ := h
      exact ⟨found.1.listId, by rw [SharedDb.target, (lockInvitation_eq_ok hfound).1]; rfl⟩
  | declineInvitation invitationId opId =>
      simp only [handleShared, declineInvitation, bind_eq_ok_iff] at h
      obtain ⟨found, hfound, -⟩ := h
      exact ⟨found.1.listId, by rw [SharedDb.target, (lockInvitation_eq_ok hfound).1]; rfl⟩
  | createTask listId | patchTask listId | deleteTask listId | addMember listId
  | patchMember listId | removeMember listId | deleteList listId => exact ⟨listId, rfl⟩

/-- A request about a list that succeeded under an operation is a replay from then on. -/
theorem replays_served {response : SharedResponse} {opId : Uuid} (hopId : request.opId = some opId)
    (hlist : ∀ body, request ≠ .createList body)
    (h : handleShared call before request = .ok (response, after)) :
    after.replays call request = true := by
  obtain ⟨target, htarget⟩ := target_of_served hopId hlist h
  cases handleShared_outcome h with
  | read none same => cases htarget.symm.trans none
  | created none new write => cases htarget.symm.trans none
  | replayed again same => exact same ▸ again
  | written listId touched current named first revision expected write =>
      have hnamed := target_stays (.access (handleShared_access h)) named
      have hreceipt := write.receipts
      rw [hopId, Option.getD_some] at hreceipt
      rw [SharedDb.replays, hnamed, hopId, Bool.or_eq_true_iff]
      refine .inl ?_
      simp [hreceipt, AList.lookup_insert]

/-- A replay that is served changes nothing. -/
theorem replay_same {opId : Uuid} (hopId : request.opId = some opId)
    (hlist : ∀ body, request ≠ .createList body) (h : before.replays call request = true) :
    (serveShared call before request).2 = before := by
  unfold serveShared
  split
  · rename_i response after hhandle
    obtain ⟨target, htarget⟩ := target_of_served hopId hlist hhandle
    cases handleShared_outcome hhandle with
    | read none same => exact same
    | replayed again same => exact same
    | created none new write => cases htarget.symm.trans none
    | written listId touched current named first revision expected write =>
        rw [h] at first
        cases first
  · rfl

/-- Another call of the same actor is as much of a replay. -/
theorem replays_actor {again : SharedCall} (hactor : again.actor = call.actor) :
    before.replays again request = before.replays call request := by
  rw [SharedDb.replays, SharedDb.replays]
  congr 1
  cases request <;> simp only [SharedDb.answered, hactor]

/-! ### A list is created again -/

/-- The identifier that is drawn for the new list is taken, so that the insert fails. -/
def ListIdTaken (db : SharedDb) (call : SharedCall) (opId : Uuid) : Prop :=
  (db.lists.lookup call.newId).isSome ∨ (db.receipts.lookup (call.newId, opId)).isSome

instance (db : SharedDb) (call : SharedCall) (opId : Uuid) : Decidable (ListIdTaken db call opId) :=
  inferInstanceAs (Decidable (_ ∨ _))

theorem lookup_createList {body : CreateListRequest} {response : SharedResponse}
    (h : createList call body before = .ok (response, after)) :
    (after.lists.lookup call.newId).isSome := by
  simp only [createList, bind_eq_ok_iff] at h
  obtain ⟨name, -, color, -, icon, -, _, -, next, hinsert, h⟩ := h
  cases Except.ok.inj h
  obtain ⟨-, rfl⟩ := insertReceipt_eq_ok_iff.mp hinsert
  simp only [AList.lookup_insert, Option.isSome_some]

/-- A list that could be created can be created again. -/
theorem createList_again {again : SharedCall} {body : CreateListRequest} {opId : Uuid}
    {response : SharedResponse} {db : SharedDb} (hopId : body.opId = some opId)
    (h : createList call body before = .ok (response, after)) :
    (serveShared again db (.createList body)).2 = db ↔ ListIdTaken db again opId := by
  simp only [createList, bind_eq_ok_iff] at h
  obtain ⟨name, hname, color, hcolor, icon, hicon, -⟩ := h
  constructor
  · intro hsame
    by_contra htaken
    rw [ListIdTaken, not_or, Option.not_isSome_iff_eq_none, Option.not_isSome_iff_eq_none] at htaken
    obtain ⟨hnew, hunused⟩ := htaken
    have hdone : ∃ done, createList again body db = .ok done := by
      refine ⟨_, bind_eq_ok_iff.mpr ⟨name, hname, bind_eq_ok_iff.mpr ⟨color, hcolor,
        bind_eq_ok_iff.mpr ⟨icon, hicon, bind_eq_ok_iff.mpr ⟨(), ?_, bind_eq_ok_iff.mpr ⟨_,
          insertReceipt_eq_ok_iff.mpr ⟨?_, rfl⟩, rfl⟩⟩⟩⟩⟩⟩
      · rw [refuseIf_eq_ok_iff, hnew]
        simp
      · rw [hopId]
        exact hunused
    obtain ⟨⟨answer, next⟩, hdone⟩ := hdone
    have hnext : (serveShared again db (.createList body)).2 = next := by
      unfold serveShared
      rw [show handleShared again db (.createList body) = .ok (answer, next) from hdone]
    have hlist := lookup_createList hdone
    rw [← hnext, hsame, hnew] at hlist
    cases hlist
  · intro htaken
    unfold serveShared
    split
    · rename_i answer next hdone
      exfalso
      simp only [handleShared, createList, bind_eq_ok_iff, refuseIf_eq_ok_iff] at hdone
      obtain ⟨_, -, _, -, _, -, _, hnew, _, hinsert, -⟩ := hdone
      have hunused := (insertReceipt_eq_ok_iff.mp hinsert).1
      rcases htaken with hlists | hreceipts
      · exact hnew hlists
      · rw [hopId] at hunused
        rw [show db.receipts.lookup (again.newId, opId) = none from hunused] at hreceipts
        cases hreceipts
    · rfl

end

/-- A request that succeeded under an operation changes nothing when the same actor sends it again, whatever was served in between, exactly when it does not create a list, or creates one under an identifier that is taken. -/
theorem repeated_request_changes_nothing_iff (call again : SharedCall) (request : SharedRequest)
    (opId : Uuid) (db : SharedDb) (events : List SharedServerEvent)
    (hopId : request.opId = some opId) (hactor : again.actor = call.actor)
    (hserved : (serveShared call db request).1.isOk = true) :
    (serveShared again (sharedServer.run (serveShared call db request).2 events) request).2 =
        sharedServer.run (serveShared call db request).2 events ↔
      ∀ body, request = .createList body →
        ListIdTaken (sharedServer.run (serveShared call db request).2 events) again opId := by
  unfold serveShared at hserved
  cases hhandle : handleShared call db request with
  | error error =>
      rw [hhandle] at hserved
      cases hserved
  | ok done =>
      obtain ⟨response, first⟩ := done
      have hfirst : (serveShared call db request).2 = first := by
        rw [serveShared, hhandle]
      rw [hfirst]
      by_cases hlist : ∃ body, request = .createList body
      · obtain ⟨body, rfl⟩ := hlist
        rw [createList_again hopId hhandle]
        constructor
        · rintro htaken other -
          exact htaken
        · exact fun htaken => htaken body rfl
      · have hother : ∀ body, request ≠ .createList body := fun body heq => hlist ⟨body, heq⟩
        have hreplay := replays_run events first (replays_served hopId hother hhandle)
        rw [← replays_actor hactor] at hreplay
        constructor
        · exact fun _ body heq => absurd heq (hother body)
        · exact fun _ => replay_same hopId hother hreplay

def foundGroceries : SharedRequest := .createList ⟨"Groceries", none, none, some ⟨100⟩⟩

/-- The list of groceries, new. -/
def newGroceries : SharedDb :=
  (serveShared ⟨anna, minute 1, sharedGroceries, ⟨200⟩⟩ .empty foundGroceries).2

def addMilk : SharedRequest :=
  .createTask sharedGroceries (some 1) ⟨some sharedMilk, "Milk", none, none, none, none, some ⟨101⟩⟩

/-- The task is deleted before its creation is sent again. -/
theorem repeated_milk_changes_nothing :
    (serveShared ⟨anna, minute 4, ⟨22⟩, ⟨203⟩⟩
      (sharedServer.run (serveShared ⟨anna, minute 2, ⟨21⟩, ⟨201⟩⟩ newGroceries addMilk).2
        [.serve ⟨anna, minute 3, ⟨23⟩, ⟨202⟩⟩
          (.deleteTask sharedGroceries sharedMilk (some 2) ⟨none, some ⟨102⟩⟩)]) addMilk).2 =
      sharedServer.run (serveShared ⟨anna, minute 2, ⟨21⟩, ⟨201⟩⟩ newGroceries addMilk).2
        [.serve ⟨anna, minute 3, ⟨23⟩, ⟨202⟩⟩
          (.deleteTask sharedGroceries sharedMilk (some 2) ⟨none, some ⟨102⟩⟩)] :=
  (repeated_request_changes_nothing_iff ⟨anna, minute 2, ⟨21⟩, ⟨201⟩⟩ ⟨anna, minute 4, ⟨22⟩, ⟨203⟩⟩
    addMilk ⟨101⟩ newGroceries _ rfl rfl (by decide)).mpr fun _ heq => nomatch heq

/-- The creation of a list, sent twice, makes two. -/
theorem repeated_creation_makes_second_list :
    ¬ ∀ (call again : SharedCall) (request : SharedRequest) (opId : Uuid) (db : SharedDb)
        (events : List SharedServerEvent), request.opId = some opId → again.actor = call.actor →
      (serveShared call db request).1.isOk = true →
      (serveShared again (sharedServer.run (serveShared call db request).2 events) request).2 =
        sharedServer.run (serveShared call db request).2 events := by
  intro h
  have hsame := h ⟨anna, minute 1, sharedGroceries, ⟨200⟩⟩ ⟨anna, minute 2, ⟨11⟩, ⟨201⟩⟩ foundGroceries
    ⟨100⟩ .empty [] rfl rfl (by decide)
  have hsecond := congrArg (fun db : SharedDb => (db.lists.lookup ⟨11⟩).isSome) hsame
  revert hsecond
  decide

end ShishiTodo
