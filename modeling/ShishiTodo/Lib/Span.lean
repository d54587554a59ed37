import Mathlib.Data.Int.Range

/-!
# Runs of consecutive integers

`Int.range first next` lists the sequences from `first` up to but not including `next`: what a counter has handed out once it moved from the one to the other.
-/

namespace Lib

theorem range_self (first : Int) : Int.range first first = [] := by
  simp [Int.range]

theorem range_succ {first next : Int} (h : first ≤ next) :
    Int.range first (next + 1) = Int.range first next ++ [next] := by
  have hlength : (next + 1 - first).toNat = (next - first).toNat + 1 := by omega
  have hlast : first + ((next - first).toNat : Int) = next := by omega
  simp only [Int.range, hlength, List.range_succ, List.map_append, List.map_cons, List.map_nil, hlast]

theorem range_append {first middle next : Int} (hleft : first ≤ middle) (hright : middle ≤ next) :
    Int.range first middle ++ Int.range middle next = Int.range first next := by
  obtain ⟨steps, hsteps⟩ : ∃ steps : Nat, next = middle + steps :=
    ⟨(next - middle).toNat, by omega⟩
  subst hsteps
  induction steps with
  | zero => simp [range_self]
  | succ steps ih =>
      have hcast : middle + ((steps + 1 : Nat) : Int) = middle + (steps : Int) + 1 := by omega
      rw [hcast, range_succ (by omega), ← List.append_assoc, ih (by omega), range_succ (by omega)]

theorem length_range {first next : Int} (h : first ≤ next) :
    ((Int.range first next).length : Int) = next - first := by
  simp only [Int.range, List.length_map, List.length_range]
  omega

theorem pairwise_lt_range (first next : Int) : (Int.range first next).Pairwise (· < ·) := by
  simp only [Int.range, List.pairwise_map]
  exact List.pairwise_lt_range.imp fun h => by omega

theorem nodup_range (first next : Int) : (Int.range first next).Nodup :=
  (pairwise_lt_range first next).imp fun h => h.ne

end Lib
