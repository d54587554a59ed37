import ShishiTodo.Notifications.Commits

/-!
# The callers of the delivery

Every caller reads the clock first and takes the lock later, in whatever order. Only the caller that was handed a reservation settles it, once, when its validation ends.
-/

namespace ShishiTodo

namespace Notifications

open Lib

/-- How the validation of a reserved activation ends. -/
inductive Verdict where
  | ready (taskTitle : String)
  | refused (code : RejectionCode)
  | panicked
  deriving DecidableEq, Repr

/-- What the holder of a reservation does then. -/
def Verdict.settles (holder : UInt64 × String) : Verdict → Section
  | .ready taskTitle => .commit holder.1 holder.2 taskTitle
  | .refused code => .reject holder.1 code
  | .panicked => .restore holder.1

structure World where
  clock : Instant
  state : DeliveryState
  /-- The reservations whose activations are being validated. -/
  holders : List (UInt64 × String)
  /-- The callers that have read the clock and wait for the lock. -/
  calls : List (Section × Instant)

def World.initial (clock : Instant) : World := ⟨clock, .initial, [], []⟩

inductive Event where
  /-- A caller without a reservation reads the clock. -/
  | call (step : Section) (elapsed : Nat)
  /-- A validation ends, and its caller reads the clock. -/
  | settle (index : Nat) (verdict : Verdict) (elapsed : Nat)
  /-- A caller gets the lock. -/
  | enter (index : Nat)

def worldRuns : Machine World Event Entry where
  step world
    | .call step elapsed =>
        if step.ticket.isSome then world
        else
          { world with
            clock := world.clock + elapsed
            calls := world.calls ++ [(step, world.clock + elapsed)] }
    | .settle index verdict elapsed =>
        match world.holders[index]? with
        | none => world
        | some holder =>
            { world with
              clock := world.clock + elapsed
              holders := world.holders.eraseIdx index
              calls := world.calls ++ [(verdict.settles holder, world.clock + elapsed)] }
    | .enter index =>
        match world.calls[index]? with
        | none => world
        | some call =>
            { world with
              state := world.state.enter call.2 call.1
              calls := world.calls.eraseIdx index
              holders := world.holders ++ world.state.grants call.2 call.1 }
  emit world
    | .enter index =>
        match world.calls[index]? with
        | none => []
        | some call => world.state.entriesOf call.2 call.1
    | _ => []

/-! ### Callers and sections -/

/-- An event that gives a caller the lock is one section, and every other event leaves the state alone. -/
theorem world_section (world : World) (event : Event) :
    (∃ call, (worldRuns.step world event).state = deliveryRuns.step world.state call ∧
      worldRuns.emit world event = deliveryRuns.emit world.state call) ∨
    (worldRuns.step world event).state = world.state ∧ worldRuns.emit world event = [] := by
  cases event with
  | call step elapsed =>
      refine .inr ⟨?_, rfl⟩
      simp only [worldRuns]
      split
      · rfl
      · rfl
  | settle index verdict elapsed =>
      refine .inr ⟨?_, rfl⟩
      simp only [worldRuns]
      split
      · rfl
      · rfl
  | enter index =>
      simp only [worldRuns]
      rcases world.calls[index]? with _ | call
      · exact .inr ⟨rfl, rfl⟩
      · exact .inl ⟨call, rfl, rfl⟩

/-- What the sections keep, the callers keep. -/
theorem world_delivery {world : World} {past : List Entry} (event : Event)
    (h : DeliveryInv world.state past) :
    DeliveryInv (worldRuns.step world event).state (past ++ worldRuns.emit world event) := by
  obtain ⟨call, hstate, hemit⟩ | ⟨hstate, hemit⟩ := world_section world event
  · rw [hstate, hemit]
    exact enter_delivery call h
  · rw [hstate, hemit, List.append_nil]
    exact h

end Notifications

end ShishiTodo
