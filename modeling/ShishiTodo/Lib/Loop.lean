import Mathlib.Order.WellFounded

/-!
# Loops that end by themselves

A loop takes turns until one of them gives a result. It is run with fuel, so that it computes; the rules of this module say when some amount of fuel is enough, and what every result has.
-/

namespace Lib

/-- What one turn does: the loop goes on in a new state, or it is over. -/
structure Loop (σ α : Type*) where
  turn : σ → σ ⊕ α

namespace Loop

variable {σ α : Type*} (loop : Loop σ α)

/-- The result, when the loop is over within so many turns. -/
def runFor : Nat → σ → Option α
  | 0, _ => none
  | turns + 1, state =>
      match loop.turn state with
      | .inl next => runFor turns next
      | .inr result => some result

/-- Some number of turns is enough. -/
def Ends (state : σ) : Prop := ∃ turns result, loop.runFor turns state = some result

theorem runFor_again {state next : σ} (h : loop.turn state = .inl next) (turns : Nat) :
    loop.runFor (turns + 1) state = loop.runFor turns next := by
  simp [runFor, h]

theorem runFor_done {state : σ} {result : α} (h : loop.turn state = .inr result) (turns : Nat) :
    loop.runFor (turns + 1) state = some result := by
  simp [runFor, h]

/-- A loop ends from every state of an invariant, when each turn that goes on keeps the invariant and goes down a well-founded order. -/
theorem ends_of_wellFounded (inv : σ → Prop) {lower : σ → σ → Prop} (hlower : WellFounded lower)
    (hturn : ∀ state next, inv state → loop.turn state = .inl next →
      inv next ∧ lower next state) (state : σ) (hinv : inv state) : loop.Ends state := by
  induction state using hlower.induction with
  | _ state ih =>
    cases hstep : loop.turn state with
    | inr result => exact ⟨1, result, loop.runFor_done hstep 0⟩
    | inl next =>
      obtain ⟨hnext, hless⟩ := hturn state next hinv hstep
      obtain ⟨turns, result, hrun⟩ := ih next hless hnext
      exact ⟨turns + 1, result, by rw [loop.runFor_again hstep, hrun]⟩

/-- What every turn keeps while the loop goes on, and turns into the property when it is over, every result has. -/
theorem result_of_invariant (inv : σ → Prop) (good : α → Prop)
    (hagain : ∀ state next, inv state → loop.turn state = .inl next → inv next)
    (hdone : ∀ state result, inv state → loop.turn state = .inr result → good result) :
    ∀ (turns : Nat) (state : σ) (result : α), inv state →
      loop.runFor turns state = some result → good result
  | 0, state, result, _, hrun => by
      simp [runFor] at hrun
  | turns + 1, state, result, hinv, hrun => by
      cases hstep : loop.turn state with
      | inr last =>
          rw [loop.runFor_done hstep] at hrun
          cases hrun
          exact hdone state _ hinv hstep
      | inl next =>
          rw [loop.runFor_again hstep] at hrun
          exact result_of_invariant inv good hagain hdone turns next result
            (hagain state next hinv hstep) hrun

end Loop

end Lib
