import ShishiTodo.Lib.Window
import ShishiTodo.Notifications.Slots

/-!
# How deliveries end

An activation ends acknowledged or rejected. The bounded record of the acknowledged ones and the bounded queue of the notices grow with nothing else, and both are windows on the list of all that ended. An acknowledgement that comes again is answered from that record, but only where nothing is in flight.
-/

namespace ShishiTodo

namespace Notifications

open Lib

namespace DeliveryState

/-- The ids of what ended in this way, in order. -/
def endedAs (terminal : Terminal) (state : DeliveryState) : List String :=
  (state.audit.terminated.filter fun record => record.2 == terminal).map Prod.fst

/-- What ends between two states: the records of the acknowledged activations, and the notices of the rejected ones, each with the id it is about. -/
structure Ends (before after : DeliveryState) (acks : List AckedActivation)
    (notices : List (String × RejectedActivation)) : Prop where
  acked : after.acked = windowAfter ackedIdCapacity before.acked (acks.map .put)
  rejections : after.rejections = windowAfter rejectionCapacity before.rejections
    (notices.map fun notice => .put notice.2)
  endedAcked : after.endedAs .acked = before.endedAs .acked ++ acks.map AckedActivation.activationId
  endedRejected : after.endedAs .rejected = before.endedAs .rejected ++ notices.map Prod.fst

variable {state before after last : DeliveryState} {activation : Activation} {sessionId : String} {now : Instant}

/-- Nothing ends where the records are as they were. -/
theorem ends_nothing (hacked : after.acked = before.acked) (hrejections : after.rejections = before.rejections)
    (haudit : after.audit.terminated = before.audit.terminated) : Ends before after [] [] := by
  refine ⟨hacked, hrejections, ?_, ?_⟩
  · simp [endedAs, haudit]
  · simp [endedAs, haudit]

theorem Ends.trans {acks more : List AckedActivation} {notices later : List (String × RejectedActivation)}
    (h : Ends before after acks notices) (hnext : Ends after last more later) :
    Ends before last (acks ++ more) (notices ++ later) where
  acked := by
    rw [List.map_append, windowAfter_append, ← h.acked]
    exact hnext.acked
  rejections := by
    rw [List.map_append, windowAfter_append, ← h.rejections]
    exact hnext.rejections
  endedAcked := by
    rw [hnext.endedAcked, h.endedAcked, List.map_append, List.append_assoc]
  endedRejected := by
    rw [hnext.endedRejected, h.endedRejected, List.map_append, List.append_assoc]

theorem ends_terminateAcked : Ends state (state.terminateAcked activation sessionId now)
    [⟨activation.activationId, activation.target.notificationId, activation.bookkeeping.attempts⟩] [] := by
  refine ⟨rfl, rfl, ?_, ?_⟩
  · simp [endedAs, terminateAcked]
  · simp [endedAs, terminateAcked]

theorem ends_terminateRejected {code : RejectionCode} :
    Ends state (state.terminateRejected activation code sessionId now) []
      [(activation.activationId, .fromCode code)] := by
  refine ⟨rfl, ?_, ?_, ?_⟩
  · exact (newest_succ_append_singleton state.rejections (RejectedActivation.fromCode code)).symm
  · simp [endedAs, terminateRejected, pushRejection]
  · simp [endedAs, terminateRejected, pushRejection]

/-- At most one activation ends, acknowledged or rejected. -/
def EndsOne (before after : DeliveryState) : Prop :=
  ∃ acks notices, Ends before after acks notices ∧ acks.length + notices.length ≤ 1

theorem endsOne_nothing (hacked : after.acked = before.acked) (hrejections : after.rejections = before.rejections)
    (haudit : after.audit.terminated = before.audit.terminated) : EndsOne before after :=
  ⟨[], [], ends_nothing hacked hrejections haudit, Nat.zero_le _⟩

/-- The records are as they were, and then the activation ends. -/
theorem EndsOne.acked (hends : Ends before state [] []) :
    EndsOne before (state.terminateAcked activation sessionId now) :=
  ⟨_, _, hends.trans ends_terminateAcked, le_refl _⟩

theorem EndsOne.rejected {code : RejectionCode} (hends : Ends before state [] []) :
    EndsOne before (state.terminateRejected activation code sessionId now) :=
  ⟨_, _, hends.trans ends_terminateRejected, le_refl _⟩

theorem listenerReady_ends : EndsOne state (state.listenerReady sessionId now).2 := by
  have hreload : EndsOne state (state.reload now) := by
    unfold reload
    split
    · exact endsOne_nothing rfl rfl rfl
    · split
      · exact EndsOne.rejected (ends_nothing rfl rfl rfl)
      · exact endsOne_nothing rfl rfl rfl
  unfold listenerReady
  split
  · exact endsOne_nothing rfl rfl rfl
  · dsimp only
    split
    · obtain ⟨acks, notices, hends, hone⟩ := hreload
      have hsession : Ends (state.reload now) { state.reload now with sessionId := some sessionId } [] [] :=
        ends_nothing rfl rfl rfl
      have hready := hends.trans hsession
      simp only [List.append_nil] at hready
      exact ⟨acks, notices, hready, hone⟩
    · exact endsOne_nothing rfl rfl rfl

theorem reserve_ends : EndsOne state (state.reserveForSession sessionId now).2 := by
  unfold reserveForSession
  split
  · exact endsOne_nothing rfl rfl rfl
  · split
    · exact endsOne_nothing rfl rfl rfl
    · dsimp only
      split
      · exact EndsOne.acked (ends_nothing rfl rfl rfl)
      · split
        · exact EndsOne.rejected (ends_nothing rfl rfl rfl)
        · exact endsOne_nothing rfl rfl rfl

/-- Releasing a reservation ends nothing. -/
theorem ends_release {ticket : UInt64} {reserved : ReservedActivation} {left : DeliveryState}
    (h : state.release ticket = some (reserved, left)) : Ends state left [] [] := by
  unfold release at h
  rcases hreserved : state.reserved with _ | found
  · rw [hreserved] at h
    cases h
  · rw [hreserved] at h
    dsimp only at h
    split at h
    · cases h
    · cases h
      exact ends_nothing rfl rfl rfl

theorem deliver_ends (hends : Ends before state [] []) :
    EndsOne before (state.deliver activation sessionId now).2 := by
  have hkept : ∀ after : DeliveryState, Ends state after [] [] → EndsOne before after := fun after hafter =>
    ⟨_, _, hends.trans hafter, Nat.zero_le _⟩
  unfold deliver
  split
  · exact EndsOne.rejected hends
  · split
    · exact EndsOne.rejected hends
    · split
      · exact hkept _ (ends_nothing rfl rfl rfl)
      · exact hkept _ (ends_nothing rfl rfl rfl)

theorem commit_ends {ticket : UInt64} {taskTitle : String} :
    EndsOne state (state.commitReservation ticket sessionId taskTitle now).2 := by
  unfold commitReservation
  rcases hrelease : state.release ticket with _ | ⟨reserved, left⟩
  · exact endsOne_nothing rfl rfl rfl
  · have hends := ends_release hrelease
    dsimp only
    split
    · exact ⟨_, _, hends.trans (ends_nothing rfl rfl rfl), Nat.zero_le _⟩
    · exact deliver_ends hends

theorem reject_ends {ticket : UInt64} {code : RejectionCode} :
    EndsOne state (state.rejectReservation ticket code now) := by
  unfold rejectReservation
  rcases hrelease : state.release ticket with _ | ⟨reserved, left⟩
  · exact endsOne_nothing rfl rfl rfl
  · exact EndsOne.rejected (ends_release hrelease)

theorem restore_ends {ticket : UInt64} : EndsOne state (state.restoreReservation ticket now) := by
  unfold restoreReservation
  rcases hrelease : state.release ticket with _ | ⟨reserved, left⟩
  · exact endsOne_nothing rfl rfl rfl
  · have hends := ends_release hrelease
    dsimp only
    split
    · exact EndsOne.rejected hends
    · exact ⟨_, _, hends.trans (ends_nothing rfl rfl rfl), Nat.zero_le _⟩

theorem acknowledge_ends {activationId outcome : String} :
    EndsOne state (state.acknowledge sessionId activationId outcome now).2 := by
  unfold acknowledge
  split
  · exact endsOne_nothing rfl rfl rfl
  · split
    · split
      · exact endsOne_nothing rfl rfl rfl
      · exact EndsOne.acked (ends_nothing rfl rfl rfl)
    · split
      · exact endsOne_nothing rfl rfl rfl
      · exact endsOne_nothing rfl rfl rfl

/-- A click that finds no room pushes the oldest one out, or ends itself where that does not help. -/
theorem put_ends : ∃ acks notices, Ends state (state.put activation now) acks notices ∧
    acks.length + notices.length ≤ 2 := by
  have hroom : ∀ left : DeliveryState, EndsOne left (left.displace now) := by
    intro left
    unfold displace
    split
    · split
      · exact endsOne_nothing rfl rfl rfl
      · exact EndsOne.rejected (ends_nothing rfl rfl rfl)
    · exact endsOne_nothing rfl rfl rfl
  have hadmitted : ∀ admitted : Finset String,
      Ends state { state with audit := { state.audit with admitted := admitted } } [] [] := fun _ =>
    ends_nothing rfl rfl rfl
  unfold put enqueue
  dsimp only
  obtain ⟨acks, notices, hends, hone⟩ := hroom
    { state with
      audit := { state.audit with admitted := insert activation.activationId state.audit.admitted } }
  have hdisplaced := (hadmitted _).trans hends
  split
  · refine ⟨_, _, hdisplaced.trans ends_terminateRejected, ?_⟩
    simp only [List.length_append, List.length_nil, List.length_singleton]
    omega
  · refine ⟨_, _, hdisplaced.trans (ends_nothing rfl rfl rfl), ?_⟩
    simp only [List.length_append, List.length_nil]
    omega

theorem enter_ends (state : DeliveryState) (now : Instant) (step : Section) :
    ∃ acks notices, Ends state (state.enter now step) acks notices ∧ acks.length + notices.length ≤ 2 := by
  have hone : ∀ after, EndsOne state after →
      ∃ acks notices, Ends state after acks notices ∧ acks.length + notices.length ≤ 2 := by
    intro after hafter
    obtain ⟨acks, notices, hends, hcount⟩ := hafter
    exact ⟨acks, notices, hends, hcount.trans (Nat.le_succ 1)⟩
  cases step with
  | put activation => exact put_ends
  | listenerReady sessionId => exact hone _ listenerReady_ends
  | reserve sessionId => exact hone _ reserve_ends
  | commit ticket sessionId taskTitle => exact hone _ commit_ends
  | reject ticket code => exact hone _ reject_ends
  | restore ticket => exact hone _ restore_ends
  | acknowledge sessionId activationId outcome => exact hone _ acknowledge_ends

/-! ### Repeated acknowledgements -/

/-- The record holds the newest of the acknowledged activations. -/
def Recorded (state : DeliveryState) : Prop :=
  state.acked.map AckedActivation.activationId = newest ackedIdCapacity (state.endedAs .acked)

theorem Recorded.ends {acks : List AckedActivation} {notices : List (String × RejectedActivation)}
    (h : Recorded before) (hends : Ends before after acks notices) : Recorded after := by
  unfold Recorded at h ⊢
  have hbound : before.acked.length ≤ ackedIdCapacity := by
    have hlength := congrArg List.length h
    rw [List.length_map, length_newest] at hlength
    omega
  rw [hends.acked, windowAfter_puts hbound, hends.endedAcked, map_newest, List.map_append, h, newest_append_newest]

theorem run_recorded (sections : List (Section × Instant)) :
    Recorded (deliveryRuns.run .initial sections) := by
  refine deliveryRuns.invariant (fun state _ => Recorded state) (fun state past entry h => ?_) ?_ sections
  · obtain ⟨acks, notices, hends, -⟩ := enter_ends state entry.2 entry.1
    exact h.ends hends
  · rfl

end DeliveryState

/-- An acknowledgement of an activation that is among the last ones acknowledged is accepted again and leaves everything but the evidence as it is, if and only if nothing is in flight. -/
theorem repeatedAck_idempotent_iff (sections : List (Section × Instant)) (now : Instant)
    (sessionId activationId outcome : String)
    (hacked : activationId ∈ newest ackedIdCapacity
      ((deliveryRuns.run .initial sections).endedAs .acked))
    (houtcome : outcome ∈ acceptedAckOutcomes) :
    (((deliveryRuns.run .initial sections).acknowledge sessionId activationId outcome now).1 = true ∧
      ∃ diagnostics, ((deliveryRuns.run .initial sections).acknowledge sessionId activationId outcome now).2 =
        { deliveryRuns.run .initial sections with diagnostics := diagnostics }) ↔
      (deliveryRuns.run .initial sections).inFlight = none := by
  have hrecorded := DeliveryState.run_recorded sections
  generalize deliveryRuns.run .initial sections = state at hacked hrecorded ⊢
  rw [← hrecorded] at hacked
  constructor
  · rintro ⟨haccepted, diagnostics, hkept⟩
    obtain ⟨inFlight, hinFlight, hfinish⟩ | ⟨-, hnone | hrefused⟩ :=
      state.acknowledge_spec now sessionId activationId outcome
    · rw [hfinish] at hkept
      exact (congrArg DeliveryState.inFlight hkept).symm
    · exact hnone
    · rw [haccepted] at hrefused
      cases hrefused
  · intro hnone
    obtain ⟨record, hrecord, hid⟩ := List.mem_map.mp hacked
    rcases hfound : state.acked.find? fun acked => acked.activationId == activationId with _ | found
    · exact absurd (beq_iff_eq.mpr hid) (List.find?_eq_none.mp hfound record hrecord)
    · unfold DeliveryState.acknowledge
      simp only [not_not_intro houtcome, if_false, hnone, hfound]
      exact ⟨trivial, _, rfl⟩

/-- A click that is delivered and acknowledged. -/
def acknowledgedOnce : List (Section × Instant) :=
  [(.put (clickOf "a" "t1"), 0), (.listenerReady "s1", 1), (.reserve "s1", 2), (.commit 0 "s1" "Milk", 3),
    (.acknowledge "s1" "a" "opened", 4)]

/-- The next click is on its way. -/
def nextInFlight : List (Section × Instant) :=
  acknowledgedOnce ++ [(.put (clickOf "b" "t2"), 5), (.reserve "s1", 6), (.commit 1 "s1" "Bread", 7)]

theorem repeatedAck_idempotent_iff_acknowledgedOnce :
    (((deliveryRuns.run .initial acknowledgedOnce).acknowledge "s2" "a" "opened" 5).1 = true ∧
      ∃ diagnostics, ((deliveryRuns.run .initial acknowledgedOnce).acknowledge "s2" "a" "opened" 5).2 =
        { deliveryRuns.run .initial acknowledgedOnce with diagnostics := diagnostics }) ↔
      (deliveryRuns.run .initial acknowledgedOnce).inFlight = none :=
  repeatedAck_idempotent_iff acknowledgedOnce 5 "s2" "a" "opened" (by decide) (by decide)

/-- The listener repeats its acknowledgement while the next click is in flight, and is refused. -/
theorem repeatedAck_refused :
    "a" ∈ newest ackedIdCapacity ((deliveryRuns.run .initial nextInFlight).endedAs .acked) ∧
      "opened" ∈ acceptedAckOutcomes ∧
      ((deliveryRuns.run .initial nextInFlight).acknowledge "s1" "a" "opened" 8).1 = false := by
  decide

end Notifications

end ShishiTodo
