import Mathlib.Logic.Basic

/-!
# Bounded searches

A loop that goes through the numbers after zero and stops at the first good one, or gives up after so many rounds. What it keeps between the rounds is a state of its own.
-/

namespace Lib

/-- `k` is the first good number after `start`. -/
def FirstAfter (good : Nat → Prop) (start k : Nat) : Prop :=
  start < k ∧ good k ∧ ∀ j, start < j → j < k → ¬ good j

theorem FirstAfter.of_succ {good : Nat → Prop} {start k : Nat} (hnot : ¬ good (start + 1))
    (h : FirstAfter good (start + 1) k) : FirstAfter good start k := by
  obtain ⟨hlater, hgood, hbefore⟩ := h
  refine ⟨by omega, hgood, fun j hj hless => ?_⟩
  rcases Nat.lt_or_ge (start + 1) j with hafter | hnext
  · exact hbefore j hafter hless
  · obtain rfl : j = start + 1 := by omega
    exact hnot

section

variable {State Result : Type*} {limit : Nat} {gaveUp : Result}

/-- Each round looks at the next number, and returns or goes on in a state for it. -/
theorem search_spec (keeps : Nat → State → Prop) (run : Nat → State → Result) (good : Nat → Prop)
    (found : Nat → Result) (hend : ∀ state, run 0 state = gaveUp)
    (hround : ∀ left start state, keeps start state → start + left + 1 ≤ limit →
      good (start + 1) ∧ run (left + 1) state = found (start + 1) ∨
        ¬ good (start + 1) ∧ ∃ next, keeps (start + 1) next ∧ run (left + 1) state = run left next)
    (left : Nat) {start : Nat} {state : State} (h : keeps start state) (hlimit : start + left ≤ limit) :
    (∃ k ≤ start + left, FirstAfter good start k ∧ run left state = found k) ∨
      (∀ k, start < k → k ≤ start + left → ¬ good k) ∧ run left state = gaveUp := by
  induction left generalizing start state with
  | zero => exact .inr ⟨fun k hlater hle => by omega, hend state⟩
  | succ left ih =>
      rcases hround left start state h (by omega) with ⟨hgood, hfound⟩ | ⟨hnot, next, hnext, hrun⟩
      · exact .inl ⟨start + 1, by omega, ⟨by omega, hgood, fun j hj hless => by omega⟩, hfound⟩
      · rw [hrun]
        rcases ih hnext (by omega) with ⟨k, hle, hfirst, hfound⟩ | ⟨hnone, hgaveUp⟩
        · exact .inl ⟨k, by omega, hfirst.of_succ hnot, hfound⟩
        · refine .inr ⟨fun k hlater hle => ?_, hgaveUp⟩
          rcases Nat.lt_or_ge (start + 1) k with hafter | hone
          · exact hnone k hafter (by omega)
          · obtain rfl : k = start + 1 := by omega
            exact hnot

end

end Lib
