import Mathlib.Data.List.Perm.Basic
import ShishiTodo.Notifications.Callers
import ShishiTodo.Notifications.Endings

/-!
# The notices of rejections

The queue from which the web view takes its notices, with everyone who writes to it: the sections that reject an activation, and the callback that `take_for_listener` runs after it has rejected one whose validation was refused.
-/

namespace ShishiTodo

namespace Notifications

open Lib

/-- What happens to the queue of notices. -/
inductive Notice where
  /-- A validation refuses its activation. -/
  | refused
  | put (activationId : Option String) (notice : RejectedActivation)
  | taken
  deriving DecidableEq, Repr

structure Notices where
  world : World
  /-- The callbacks still to run: the activation each is about, if the reservation was found, and the code. -/
  callbacks : List (Option String × RejectionCode)

inductive NoticeEvent where
  | caller (event : Event)
  /-- `reject` runs, with the code that `take_for_listener` passes to it. -/
  | callback (index : Nat)
  | takeRejection

namespace DeliveryState

/-- `take_rejection`, as the state it leaves. -/
def takeRejection (state : DeliveryState) : DeliveryState := { state with rejections := state.rejections.tail }

/-- The activation that a ticket stands for. -/
def ticketOf (ticket : UInt64) (state : DeliveryState) : Option String :=
  (state.release ticket).map fun released => released.1.activation.activationId

end DeliveryState

def Section.isReject : Section → Bool
  | .reject _ _ => true
  | _ => false

/-- What a caller still has to do after its section. -/
def callbackOf (state : DeliveryState) : Section → List (Option String × RejectionCode)
  | .reject ticket code => [(state.ticketOf ticket, code)]
  | _ => []

/-- The callback of the caller that gets the lock. -/
def World.callbacksOf (world : World) : Event → List (Option String × RejectionCode)
  | .enter index =>
      match world.calls[index]? with
      | none => []
      | some call => callbackOf world.state call.1
  | _ => []

/-- The activation whose validation ends refused. -/
def World.refusals (world : World) : Event → List Notice
  | .settle index (.refused _) _ =>
      match world.holders[index]? with
      | none => []
      | some _ => [.refused]
  | _ => []

/-- The callers that are about to reject an activation, and the callbacks still to run. -/
def Notices.pending (notices : Notices) : Nat :=
  notices.world.calls.countP (fun call => call.1.isReject) + notices.callbacks.length

/-- The notices that were put between two states: one for each activation that was rejected. -/
def noticesBetween (before after : DeliveryState) : List Notice :=
  let ids := (after.endedAs .rejected).drop (before.endedAs .rejected).length
  (ids.zip (newest ids.length after.rejections)).map fun notice => .put (some notice.1) notice.2

def noticeRuns : Machine Notices NoticeEvent Notice where
  step notices
    | .caller event =>
        { world := worldRuns.step notices.world event
          callbacks := notices.callbacks ++ notices.world.callbacksOf event }
    | .callback index =>
        match notices.callbacks[index]? with
        | none => notices
        | some callback =>
            { world :=
                { notices.world with
                  state := notices.world.state.pushRejection (.fromCode callback.2) }
              callbacks := notices.callbacks.eraseIdx index }
    | .takeRejection =>
        { notices with world := { notices.world with state := notices.world.state.takeRejection } }
  emit notices
    | .caller event =>
        notices.world.refusals event ++
          noticesBetween notices.world.state (worldRuns.step notices.world event).state
    | .callback index =>
        match notices.callbacks[index]? with
        | none => []
        | some callback => [.put callback.1 (.fromCode callback.2)]
    | .takeRejection => [.taken]

def Notices.initial (clock : Instant) : Notices := ⟨.initial clock, []⟩

/-- What a notice does to the window. -/
def Notice.action : Notice → Option (WindowAction RejectedActivation)
  | .refused => none
  | .put _ notice => some (.put notice)
  | .taken => some .take

/-- Whom a notice is about. -/
def Notice.about : Notice → Option (Option String)
  | .put activationId _ => some activationId
  | _ => none

def Notice.isRefused : Notice → Bool
  | .refused => true
  | _ => false

/-- Each rejected activation put one notice, and the queue holds what was put, less what was taken and what the bound pushed out. -/
structure Announced (notices : Notices) (log : List Notice) : Prop where
  once : (log.filterMap Notice.about).Perm ((notices.world.state.endedAs .rejected).map some)
  queue : notices.world.state.rejections = windowAfter rejectionCapacity [] (log.filterMap Notice.action)

/-! ### One step -/

variable {notices : Notices} {past : List Notice}

@[simp] theorem about_refusals (world : World) (event : Event) :
    (world.refusals event).filterMap Notice.about = [] ∧ (world.refusals event).filterMap Notice.action = [] := by
  unfold World.refusals
  split
  · split
    · exact ⟨rfl, rfl⟩
    · exact ⟨rfl, rfl⟩
  · exact ⟨rfl, rfl⟩

theorem countP_refusals (world : World) (event : Event) :
    (world.refusals event).countP Notice.isRefused = (world.refusals event).length := by
  unfold World.refusals
  split
  · split
    · rfl
    · rfl
  · rfl

theorem noticesBetween_eq {before after : DeliveryState} {acks : List AckedActivation}
    {ended : List (String × RejectedActivation)} (hends : before.Ends after acks ended)
    (hbound : before.rejections.length ≤ rejectionCapacity) (hcount : ended.length ≤ rejectionCapacity) :
    noticesBetween before after = ended.map fun notice => .put (some notice.1) notice.2 := by
  have hqueue : after.rejections = newest rejectionCapacity (before.rejections ++ ended.map Prod.snd) := by
    rw [hends.rejections, ← windowAfter_puts hbound, List.map_map]
    rfl
  have hlast : newest ended.length after.rejections = ended.map Prod.snd := by
    have hroom : (ended.map Prod.snd).length ≤ rejectionCapacity := by rwa [List.length_map]
    have hnewest := @newest_append_right _ _ before.rejections _ hroom
    rwa [List.length_map, ← hqueue] at hnewest
  unfold noticesBetween
  rw [hends.endedRejected, List.drop_left]
  simp only [List.length_map, hlast]
  rw [← List.zip_of_prod rfl rfl]

/-- What a caller does ends some activations, whichever event it is. -/
theorem caller_ends (world : World) (event : Event) :
    ∃ acks ended, world.state.Ends (worldRuns.step world event).state acks ended ∧
      acks.length + ended.length ≤ 2 := by
  obtain ⟨call, hstate, -⟩ | ⟨hstate, -⟩ := world_section world event
  · rw [hstate]
    exact DeliveryState.enter_ends world.state call.2 call.1
  · rw [hstate]
    exact ⟨[], [], DeliveryState.ends_nothing rfl rfl rfl, Nat.zero_le _⟩

theorem countP_eraseIdx {index : Nat} {calls : List (Section × Instant)} {call : Section × Instant}
    (hcall : calls[index]? = some call) :
    calls.countP (fun call => call.1.isReject) =
      (calls.eraseIdx index).countP (fun call => call.1.isReject) + call.1.isReject.toNat := by
  obtain ⟨hindex, hget⟩ := List.getElem?_eq_some_iff.mp hcall
  have hperm := List.getElem_cons_eraseIdx_perm hindex
  rw [← hperm.countP_eq, List.countP_cons, hget]
  rcases call.1.isReject with _ | _
  · rfl
  · rfl

/-- A refusal is on its way to its callback from when the validation ends. -/
theorem pending_caller (notices : Notices) (event : Event) :
    (noticeRuns.step notices (.caller event)).pending =
      notices.pending + (notices.world.refusals event).length := by
  cases event with
  | call step elapsed =>
      simp only [noticeRuns, worldRuns, Notices.pending, World.callbacksOf, World.refusals, List.append_nil,
        List.length_nil, Nat.add_zero]
      split
      · rfl
      · rename_i hfree
        have hother : step.isReject = false := by
          cases step with
          | reject ticket code => exact absurd rfl hfree
          | _ => rfl
        simp [List.countP_append, hother]
  | settle index verdict elapsed =>
      simp only [noticeRuns, worldRuns, Notices.pending, World.callbacksOf, List.append_nil]
      rcases hholder : notices.world.holders[index]? with _ | holder
      · cases verdict with
        | refused code => simp [World.refusals, hholder]
        | _ => rfl
      · cases verdict with
        | refused code =>
            simp only [World.refusals, hholder, List.countP_append, Verdict.settles, List.countP_singleton,
              Section.isReject, if_true, List.length_singleton]
            omega
        | ready taskTitle =>
            simp [World.refusals, List.countP_append, Verdict.settles, Section.isReject]
        | panicked => simp [World.refusals, List.countP_append, Verdict.settles, Section.isReject]
  | enter index =>
      simp only [noticeRuns, worldRuns, Notices.pending, World.callbacksOf, World.refusals, List.length_nil,
        Nat.add_zero]
      rcases hcall : notices.world.calls[index]? with _ | call
      · simp
      · have hcount := countP_eraseIdx hcall
        have hcallback : (callbackOf notices.world.state call.1).length = call.1.isReject.toNat := by
          cases call.1 with
          | reject ticket code => rfl
          | _ => rfl
        dsimp only
        rw [List.length_append, hcallback, hcount]
        omega

/-! ### Every run -/

/-- What a run keeps: the notices are those of the rejected activations and those of the callbacks, and every refusal is on its way to its callback, or has been there. -/
structure NoticesInv (notices : Notices) (past : List Notice) : Prop where
  about : ∃ extra, (past.filterMap Notice.about).Perm
      ((notices.world.state.endedAs .rejected).map some ++ extra) ∧
    past.countP Notice.isRefused = extra.length + notices.pending
  queue : notices.world.state.rejections = windowAfter rejectionCapacity [] (past.filterMap Notice.action)

theorem NoticesInv.caller (h : NoticesInv notices past) (event : Event) :
    NoticesInv (noticeRuns.step notices (.caller event))
      (past ++ noticeRuns.emit notices (.caller event)) := by
  obtain ⟨acks, ended, hends, hcount⟩ := caller_ends notices.world event
  have hbound : notices.world.state.rejections.length ≤ rejectionCapacity := by
    rw [h.queue]
    exact length_windowAfter_le (Nat.zero_le _) _
  have hsmall : ended.length ≤ rejectionCapacity := by
    have : 2 ≤ rejectionCapacity := by decide
    omega
  have hbetween := noticesBetween_eq hends hbound hsmall
  have hemit : noticeRuns.emit notices (.caller event) = notices.world.refusals event ++
      ended.map fun notice => Notice.put (some notice.1) notice.2 := by
    rw [← hbetween]
    rfl
  obtain ⟨hquiet, hstill⟩ := about_refusals notices.world event
  rw [hemit]
  have habout : (ended.map fun notice => Notice.put (some notice.1) notice.2).filterMap Notice.about =
      (ended.map Prod.fst).map some := by
    rw [List.filterMap_map, List.map_map]
    exact congrFun (List.filterMap_eq_map (f := fun notice : String × RejectedActivation => some notice.1)) ended
  have haction : (ended.map fun notice => Notice.put (some notice.1) notice.2).filterMap Notice.action =
      ended.map fun notice => .put notice.2 := by
    rw [List.filterMap_map]
    exact congrFun (List.filterMap_eq_map
      (f := fun notice : String × RejectedActivation => WindowAction.put notice.2)) ended
  obtain ⟨extra, hperm, hrefused⟩ := h.about
  refine ⟨⟨extra, ?_, ?_⟩, ?_⟩
  · have hstate : (noticeRuns.step notices (.caller event)).world.state.endedAs .rejected =
        notices.world.state.endedAs .rejected ++ ended.map Prod.fst := hends.endedRejected
    rw [hstate, List.filterMap_append, List.filterMap_append, hquiet, habout, List.nil_append,
      List.map_append, List.append_assoc]
    refine (hperm.append_right _).trans ?_
    rw [List.append_assoc]
    exact List.perm_append_comm.append_left _
  · have hnone : (ended.map fun notice => Notice.put (some notice.1) notice.2).countP Notice.isRefused = 0 := by
      rw [List.countP_map]
      exact List.countP_eq_zero.mpr fun _ _ => Bool.false_ne_true
    rw [pending_caller, List.countP_append, List.countP_append, hnone, hrefused, countP_refusals]
    omega
  · rw [List.filterMap_append, List.filterMap_append, hstill, haction, List.nil_append, windowAfter_append, ← h.queue]
    exact hends.rejections

theorem NoticesInv.step (event : NoticeEvent) (h : NoticesInv notices past) :
    NoticesInv (noticeRuns.step notices event) (past ++ noticeRuns.emit notices event) := by
  cases event with
  | caller event => exact h.caller event
  | callback index =>
      simp only [noticeRuns]
      rcases hcallback : notices.callbacks[index]? with _ | callback
      · rw [List.append_nil]
        exact h
      · obtain ⟨extra, hperm, hrefused⟩ := h.about
        obtain ⟨hindex, -⟩ := List.getElem?_eq_some_iff.mp hcallback
        refine ⟨⟨extra ++ [callback.1], ?_, ?_⟩, ?_⟩
        · rw [List.filterMap_append, ← List.append_assoc]
          exact hperm.append_right _
        · have hleft := List.length_eraseIdx_of_lt hindex
          have hcount : [Notice.put callback.1 (.fromCode callback.2)].countP Notice.isRefused = 0 := rfl
          simp only [List.countP_append, hcount, hrefused, Notices.pending, hleft, List.length_append,
            List.length_singleton]
          omega
        · rw [List.filterMap_append, windowAfter_append, ← h.queue]
          exact (newest_succ_append_singleton _ _).symm
  | takeRejection =>
      obtain ⟨extra, hperm, hrefused⟩ := h.about
      refine ⟨⟨extra, ?_, ?_⟩, ?_⟩
      · rw [List.filterMap_append]
        exact (List.append_nil _).symm ▸ hperm
      · simpa [noticeRuns, Notice.isRefused, Notices.pending] using hrefused
      · rw [List.filterMap_append, windowAfter_append, ← h.queue]
        rfl

theorem run_notices (clock : Instant) (events : List NoticeEvent) :
    NoticesInv (noticeRuns.run (.initial clock) events) (noticeRuns.trace (.initial clock) events) :=
  noticeRuns.invariant NoticesInv (fun _ _ event h => h.step event) ⟨⟨[], List.Perm.refl _, rfl⟩, rfl⟩ events

theorem NoticesInv.announced (h : NoticesInv notices past) (hrefused : past.countP Notice.isRefused = 0) :
    Announced notices past := by
  obtain ⟨extra, hperm, hcount⟩ := h.about
  have hnone : extra = [] := List.eq_nil_of_length_eq_zero (by omega)
  rw [hnone, List.append_nil] at hperm
  exact ⟨hperm, h.queue⟩

/-- While no validation of a reserved activation is refused, every activation that is rejected puts one notice, and notices leave the queue when they are taken or pushed out. When every call has ended, that is so only if no validation was refused. -/
theorem one_notice_iff (clock : Instant) (events : List NoticeEvent) :
    (.refused ∉ noticeRuns.trace (.initial clock) events →
      Announced (noticeRuns.run (.initial clock) events) (noticeRuns.trace (.initial clock) events)) ∧
    ((noticeRuns.run (.initial clock) events).pending = 0 →
      (Announced (noticeRuns.run (.initial clock) events) (noticeRuns.trace (.initial clock) events) ↔
        .refused ∉ noticeRuns.trace (.initial clock) events)) := by
  have hinv := run_notices clock events
  generalize noticeRuns.run (.initial clock) events = notices at hinv ⊢
  generalize noticeRuns.trace (.initial clock) events = log at hinv ⊢
  have hunrefused : .refused ∉ log ↔ log.countP Notice.isRefused = 0 := by
    rw [List.countP_eq_zero]
    constructor
    · rintro hnone notice hnotice hrefused
      cases notice with
      | refused => exact hnone hnotice
      | put activationId notice => cases hrefused
      | taken => cases hrefused
    · exact fun hnone hmem => hnone .refused hmem rfl
  rw [hunrefused]
  refine ⟨hinv.announced, fun hended => ⟨fun hannounced => ?_, hinv.announced⟩⟩
  obtain ⟨extra, hperm, hcount⟩ := hinv.about
  have hlength := (hannounced.once.symm.trans hperm).length_eq
  rw [List.length_append] at hlength
  omega

/-- Nine clicks that nobody takes. -/
def nineClicks : List NoticeEvent :=
  (List.range 9).flatMap fun n =>
    [.caller (.call (.put (clickOf (toString n) "t1")) 0), .caller (.enter 0)]

theorem one_notice_nineClicks :
    Announced (noticeRuns.run (.initial 0) nineClicks) (noticeRuns.trace (.initial 0) nineClicks) :=
  (one_notice_iff 0 nineClicks).1 (by decide)

/-- A click whose task is gone when the listener takes it. -/
def refusedOnce : List NoticeEvent :=
  [.caller (.call (.put (clickOf "a" "t1")) 0), .caller (.enter 0), .caller (.call (.listenerReady "s1") 1),
    .caller (.enter 0), .caller (.call (.reserve "s1") 1), .caller (.enter 0),
    .caller (.settle 0 (.refused .taskNotFound) 1), .caller (.enter 0), .callback 0]

/-- One activation is rejected, and the web view is told twice. -/
theorem refusedOnce_twice :
    (noticeRuns.run (.initial 0) refusedOnce).world.state.endedAs .rejected = ["a"] ∧
      (noticeRuns.run (.initial 0) refusedOnce).world.state.rejections =
        [.fromCode .taskNotFound, .fromCode .taskNotFound] ∧
      ¬ Announced (noticeRuns.run (.initial 0) refusedOnce) (noticeRuns.trace (.initial 0) refusedOnce) := by
  have hended : (noticeRuns.run (.initial 0) refusedOnce).world.state.endedAs .rejected = ["a"] := by
    decide
  have hrejections : (noticeRuns.run (.initial 0) refusedOnce).world.state.rejections =
      [.fromCode .taskNotFound, .fromCode .taskNotFound] := by
    decide
  have habout : ((noticeRuns.trace (.initial 0) refusedOnce).filterMap Notice.about).length = 2 := by
    decide
  refine ⟨hended, hrejections, fun hannounced => ?_⟩
  have hlength := hannounced.once.length_eq
  rw [habout, hended] at hlength
  cases hlength

end Notifications

end ShishiTodo
