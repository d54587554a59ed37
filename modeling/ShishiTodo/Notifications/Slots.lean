import ShishiTodo.Notifications.Sections

/-!
# The two slots

One activation at a time is on its way to the listener: reserved while it is validated, then in flight until it is acknowledged. This module says once what a section does to the two slots and to what is kept of the opened targets.
-/

namespace ShishiTodo

namespace Notifications

open Lib

/-- It gives no activation to a listener and opens none. -/
def Entry.Plain : Entry → Prop
  | .committed _ _ _ => False
  | .opened _ _ => False
  | _ => True

/-- What a section does to the slots, with the entries it makes and the reservations it hands out. -/
inductive SlotStep (now : Instant) (before after : DeliveryState) (step : Section) :
    List Entry → List (UInt64 × String) → Prop
  | kept (entries : List Entry)
      (hticket : ∀ reserved ticket, before.reserved = some reserved → step.ticket = some ticket →
        reserved.ticket ≠ ticket)
      (hreserved : after.reserved = before.reserved)
      (hinFlight : after.inFlight = before.inFlight ∨ after.inFlight = none)
      (hcompleted : after.completed = before.completed ∨
        after.completed = (before.forgetOpened now).completed)
      (hplain : ∀ entry ∈ entries, entry.Plain) : SlotStep now before after step entries []
  | reserved (reserved : ReservedActivation) (hticket : step.ticket = none)
      (hfree : before.reserved = none ∧ before.inFlight = none) (hreserved : after.reserved = some reserved)
      (hinFlight : after.inFlight = none) (hcompleted : after.completed = (before.forgetOpened now).completed)
      (hnew : after.opened reserved.activation.target = false) :
      SlotStep now before after step [] [(reserved.ticket, reserved.sessionId)]
  | settled (reserved : ReservedActivation) (entries : List Entry)
      (hticket : step.ticket = some reserved.ticket) (hreserved : before.reserved = some reserved)
      (hreleased : after.reserved = none) (hcompleted : after.completed = before.completed)
      (hentries : entries = [] ∨ ∃ activation sessionId,
        activation.target = reserved.activation.target ∧ before.sessionId = some sessionId ∧
          before.inFlight = none ∧ entries = [.committed activation sessionId now]) :
      SlotStep now before after step entries []
  | opened (inFlight : InFlightActivation) (hticket : step.ticket = none)
      (hinFlight : before.inFlight = some inFlight) (hended : after.inFlight = none)
      (hreserved : after.reserved = before.reserved)
      (hcompleted : after.completed = popFrontTo completedTargetCapacity
        (before.completed ++ [⟨targetKey inFlight.activation.target, now⟩])) :
      SlotStep now before after step [.opened inFlight.activation.target now] []

namespace DeliveryState

variable {state : DeliveryState} {now : Instant} {sessionId : String} {ticket : UInt64}

theorem slots_refl (step : Section) (hticket : ∀ reserved ticket, state.reserved = some reserved →
    step.ticket = some ticket → reserved.ticket ≠ ticket) : SlotStep now state state step [] [] :=
  SlotStep.kept [] hticket rfl (.inl rfl) (.inl rfl) (fun _ hentry => by cases hentry)

/-- A section that settles no reservation. -/
theorem slots_kept {step : Section} {after : DeliveryState} {entries : List Entry} (hstep : step.ticket = none)
    (hreserved : after.reserved = state.reserved)
    (hinFlight : after.inFlight = state.inFlight ∨ after.inFlight = none)
    (hcompleted : after.completed = state.completed ∨ after.completed = (state.forgetOpened now).completed)
    (hplain : ∀ entry ∈ entries, entry.Plain) : SlotStep now state after step entries [] := by
  refine SlotStep.kept entries ?_ hreserved hinFlight hcompleted hplain
  intro reserved ticket _ hticket
  rw [hstep] at hticket
  cases hticket

theorem put_slots (activation : Activation) :
    SlotStep now state (state.put activation now) (.put activation) (state.entriesOf now (.put activation))
      [] := by
  have hdisplaced : ∀ left : DeliveryState, (left.displace now).reserved = left.reserved ∧
      (left.displace now).inFlight = left.inFlight ∧ (left.displace now).completed = left.completed := by
    intro left
    unfold displace
    split
    · rcases left.pending with _ | ⟨victim, rest⟩
      · exact ⟨rfl, rfl, rfl⟩
      · exact ⟨rfl, rfl, rfl⟩
    · exact ⟨rfl, rfl, rfl⟩
  have hput : (state.put activation now).reserved = state.reserved ∧
      (state.put activation now).inFlight = state.inFlight ∧
      (state.put activation now).completed = state.completed := by
    unfold put enqueue
    dsimp only
    split
    · exact hdisplaced _
    · exact hdisplaced _
  refine slots_kept rfl hput.1 (.inl hput.2.1) (.inl hput.2.2) ?_
  intro entry hentry
  rw [List.mem_singleton.mp hentry]
  trivial

theorem listenerReady_slots : SlotStep now state (state.listenerReady sessionId now).2
    (.listenerReady sessionId) (state.entriesOf now (.listenerReady sessionId)) [] := by
  have hreload : (state.reload now).reserved = state.reserved ∧
      ((state.reload now).inFlight = state.inFlight ∨ (state.reload now).inFlight = none) ∧
      (state.reload now).completed = state.completed := by
    unfold reload
    split
    · exact ⟨rfl, .inl rfl, rfl⟩
    · split
      · exact ⟨rfl, .inr rfl, rfl⟩
      · exact ⟨rfl, .inr rfl, rfl⟩
  have hready : (state.listenerReady sessionId now).2.reserved = state.reserved ∧
      ((state.listenerReady sessionId now).2.inFlight = state.inFlight ∨
        (state.listenerReady sessionId now).2.inFlight = none) ∧
      (state.listenerReady sessionId now).2.completed = state.completed := by
    unfold listenerReady
    split
    · exact ⟨rfl, .inl rfl, rfl⟩
    · dsimp only
      split
      · exact hreload
      · exact ⟨rfl, .inl rfl, rfl⟩
  refine slots_kept rfl hready.1 hready.2.1 (.inl hready.2.2) ?_
  intro entry hentry
  simp only [entriesOf, requeues] at hentry
  split at hentry
  · split at hentry
    · cases hentry
    · split at hentry
      · cases hentry
      · rw [List.mem_singleton.mp hentry]
        trivial
  · cases hentry

theorem reserve_slots : SlotStep now state (state.reserveForSession sessionId now).2 (.reserve sessionId) []
    (state.grants now (.reserve sessionId)) := by
  have hnothing : ∀ entry ∈ ([] : List Entry), entry.Plain := fun _ hentry => by cases hentry
  simp only [grants, reserveForSession]
  split
  · exact slots_kept rfl rfl (.inl rfl) (.inl rfl) hnothing
  · rename_i hfree
    simp only [not_or, Option.not_isSome_iff_eq_none] at hfree
    obtain ⟨-, hinFlight, hreserved⟩ := hfree
    rcases state.pending with _ | ⟨activation, rest⟩
    · exact slots_kept rfl rfl (.inl rfl) (.inl rfl) hnothing
    · dsimp only
      split
      · exact slots_kept rfl rfl (.inl rfl) (.inr rfl) hnothing
      · rename_i hnew
        split
        · exact slots_kept rfl rfl (.inl rfl) (.inr rfl) hnothing
        · exact SlotStep.reserved ⟨state.nextTicket, sessionId, activation⟩ rfl ⟨hreserved, hinFlight⟩
            rfl hinFlight rfl (Bool.eq_false_iff.mpr hnew)

/-- A section that settles a reservation does so, or the ticket is not that of the reservation. -/
theorem release_cases (state : DeliveryState) (ticket : UInt64) :
    (state.release ticket = none ∧
      ∀ reserved, state.reserved = some reserved → reserved.ticket ≠ ticket) ∨
    ∃ reserved, state.reserved = some reserved ∧ reserved.ticket = ticket ∧
      state.release ticket = some (reserved, { state with reserved := none }) := by
  unfold release
  rcases hreserved : state.reserved with _ | reserved
  · exact .inl ⟨rfl, fun _ h => by cases h⟩
  · dsimp only
    split
    · rename_i hother
      refine .inl ⟨rfl, ?_⟩
      rintro _ ⟨rfl⟩
      exact hother
    · rename_i hsame
      exact .inr ⟨reserved, rfl, not_not.mp hsame, rfl⟩

theorem slots_unreleased {step : Section} (hstep : step.ticket = some ticket)
    (hother : ∀ reserved, state.reserved = some reserved → reserved.ticket ≠ ticket) :
    SlotStep now state state step [] [] := by
  apply slots_refl
  intro reserved other hreserved hticket
  rw [hstep] at hticket
  cases hticket
  exact hother reserved hreserved

theorem commit_slots {taskTitle : String} :
    SlotStep now state (state.commitReservation ticket sessionId taskTitle now).2
      (.commit ticket sessionId taskTitle) (state.entriesOf now (.commit ticket sessionId taskTitle)) [] := by
  simp only [commitReservation, entriesOf]
  obtain ⟨hnone, hother⟩ | ⟨reserved, hreserved, hticket, hrelease⟩ := state.release_cases ticket
  · rw [hnone]
    exact slots_unreleased rfl hother
  · rw [hrelease]
    have hstep : (Section.commit ticket sessionId taskTitle).ticket = some reserved.ticket := by
      rw [hticket]
      rfl
    dsimp only
    split
    · exact SlotStep.settled reserved _ hstep hreserved rfl rfl (.inl rfl)
    · unfold deliver
      split
      · exact SlotStep.settled reserved _ hstep hreserved rfl rfl (.inl rfl)
      · split
        · exact SlotStep.settled reserved _ hstep hreserved rfl rfl (.inl rfl)
        · split
          · exact SlotStep.settled reserved _ hstep hreserved rfl rfl (.inl rfl)
          · rename_i hfree
            simp only [not_or, Option.not_isSome_iff_eq_none, ne_eq, not_not] at hfree
            exact SlotStep.settled reserved _ hstep hreserved rfl rfl
              (.inr ⟨({ reserved.activation with taskTitle := taskTitle } : Activation).attempt, sessionId,
                rfl, hfree.1, hfree.2, rfl⟩)

theorem reject_slots {code : RejectionCode} :
    SlotStep now state (state.rejectReservation ticket code now) (.reject ticket code) [] [] := by
  unfold rejectReservation
  obtain ⟨hnone, hother⟩ | ⟨reserved, hreserved, hticket, hrelease⟩ := state.release_cases ticket
  · rw [hnone]
    exact slots_unreleased rfl hother
  · rw [hrelease]
    exact SlotStep.settled reserved _ (by rw [hticket]; rfl) hreserved rfl rfl (.inl rfl)

theorem restore_slots : SlotStep now state (state.restoreReservation ticket now) (.restore ticket) [] [] := by
  unfold restoreReservation
  obtain ⟨hnone, hother⟩ | ⟨reserved, hreserved, hticket, hrelease⟩ := state.release_cases ticket
  · rw [hnone]
    exact slots_unreleased rfl hother
  · rw [hrelease]
    have hstep : (Section.restore ticket).ticket = some reserved.ticket := by
      rw [hticket]
      rfl
    dsimp only
    split
    · exact SlotStep.settled reserved _ hstep hreserved rfl rfl (.inl rfl)
    · exact SlotStep.settled reserved _ hstep hreserved rfl rfl (.inl rfl)

/-- An acknowledgement ends the delivery, or leaves everything but the evidence as it is. -/
theorem acknowledge_spec (state : DeliveryState) (now : Instant) (sessionId activationId outcome : String) :
    (∃ inFlight, state.inFlight = some inFlight ∧
      state.acknowledge sessionId activationId outcome now =
        (true, state.finish inFlight sessionId outcome now)) ∨
    (∃ diagnostics, (state.acknowledge sessionId activationId outcome now).2 =
        { state with diagnostics := diagnostics }) ∧
      (state.inFlight = none ∨ (state.acknowledge sessionId activationId outcome now).1 = false) := by
  unfold acknowledge
  split
  · exact .inr ⟨⟨_, rfl⟩, .inr rfl⟩
  · split
    · rename_i inFlight hinFlight
      split
      · exact .inr ⟨⟨_, rfl⟩, .inr rfl⟩
      · exact .inl ⟨inFlight, hinFlight, rfl⟩
    · rename_i hinFlight
      refine .inr ⟨?_, .inl hinFlight⟩
      split
      · exact ⟨_, rfl⟩
      · exact ⟨_, rfl⟩

theorem acknowledge_slots {activationId outcome : String} :
    SlotStep now state (state.acknowledge sessionId activationId outcome now).2
      (.acknowledge sessionId activationId outcome)
      (state.entriesOf now (.acknowledge sessionId activationId outcome)) [] := by
  have hplain : ∀ entry ∈ ([] : List Entry), entry.Plain := fun _ hentry => by cases hentry
  simp only [entriesOf]
  obtain ⟨inFlight, hinFlight, hfinish⟩ | ⟨⟨diagnostics, hkept⟩, hnothing⟩ :=
    state.acknowledge_spec now sessionId activationId outcome
  · rw [hinFlight, hfinish]
    dsimp only
    by_cases hopened : outcome = "opened"
    · rw [if_pos ⟨rfl, hopened⟩]
      refine SlotStep.opened inFlight rfl hinFlight rfl rfl ?_
      unfold finish
      dsimp only
      rw [if_pos hopened]
      rfl
    · rw [if_neg fun h => hopened h.2]
      refine slots_kept rfl rfl (.inr rfl) (.inl ?_) hplain
      unfold finish
      dsimp only
      rw [if_neg hopened]
      rfl
  · have hquiet : SlotStep now state (state.acknowledge sessionId activationId outcome now).2
        (.acknowledge sessionId activationId outcome) [] [] := by
      rw [hkept]
      exact slots_kept rfl rfl (.inl rfl) (.inl rfl) hplain
    rcases hnothing with hinFlight | hrefused
    · rw [hinFlight]
      exact hquiet
    · rw [hrefused]
      rcases state.inFlight with _ | inFlight
      · exact hquiet
      · exact hquiet

theorem enter_slots (state : DeliveryState) (now : Instant) (step : Section) :
    SlotStep now state (state.enter now step) step (state.entriesOf now step) (state.grants now step) := by
  cases step with
  | put activation => exact put_slots activation
  | listenerReady sessionId => exact listenerReady_slots
  | reserve sessionId => exact reserve_slots
  | commit ticket sessionId taskTitle => exact commit_slots
  | reject ticket code => exact reject_slots
  | restore ticket => exact restore_slots
  | acknowledge sessionId activationId outcome => exact acknowledge_slots

/-! ### One delivery at a time -/

/-- While something is reserved nothing is in flight. -/
def Exclusive (state : DeliveryState) : Prop := state.reserved.isSome → state.inFlight = none

theorem slots_exclusive {before after : DeliveryState} {step : Section} {entries : List Entry}
    {granted : List (UInt64 × String)} (hslots : SlotStep now before after step entries granted)
    (hexclusive : before.Exclusive) : after.Exclusive := by
  intro hsome
  cases hslots with
  | kept _ hticket hreserved hinFlight hcompleted hplain =>
      rw [hreserved] at hsome
      rcases hinFlight with hsame | hnone
      · exact hsame.trans (hexclusive hsome)
      · exact hnone
  | reserved reserved hticket hfree hreserved hinFlight hcompleted hnew => exact hinFlight
  | settled reserved _ hticket hreserved hreleased hcompleted hentries =>
      rw [hreleased] at hsome
      cases hsome
  | opened inFlight hticket hinFlight hended hreserved hcompleted => exact hended

theorem enter_exclusive (hexclusive : state.Exclusive) (step : Section) :
    (state.enter now step).Exclusive := slots_exclusive (enter_slots state now step) hexclusive

end DeliveryState

end Notifications

end ShishiTodo
