import ShishiTodo.Lib.Numerals
import ShishiTodo.Native.Store
import Mathlib.Data.String.Basic
import Mathlib.Data.Nat.Digits.Lemmas

/-!
# The rank of a new row

`next_rank` reads the ranks as base-36 numbers and prints the number after the greatest, with six digits at least. The rows are shown in the order of the ranks as strings.
-/

namespace ShishiTodo.Native

open Lib

theorem encodeDigit_ascending : Ascending 36 encodeDigit := by
  unfold Ascending
  decide

/-- The number of digits that a number is printed with. -/
def width (n : Nat) : Nat := max 6 (Nat.digits 36 n).length

theorem lt_pow_width (n : Nat) : n < 36 ^ width n :=
  Nat.lt_of_lt_of_le (Nat.lt_base_pow_length_digits (by decide))
    (Nat.pow_le_pow_right (by decide) (Nat.le_max_right _ _))

theorem encodeBase36_eq_digits {fuel n : Nat} (h : n < 36 ^ fuel) :
    encodeBase36 fuel n = (Nat.digits 36 n).map encodeDigit := by
  induction fuel generalizing n with
  | zero =>
    have hzero : n = 0 := by simpa using h
    simp [encodeBase36, hzero]
  | succ fuel ih =>
    rcases Nat.eq_zero_or_pos n with rfl | hpos
    · simp [encodeBase36]
    · have hquotient : n / 36 < 36 ^ fuel := Nat.div_lt_of_lt_mul (by rwa [Nat.pow_succ'] at h)
      rw [encodeBase36, ih hquotient, Nat.digits_def' (by decide) hpos, List.map_cons]
      · omega

/-- The digits of a number filled up with zeros to six. -/
theorem padded_eq_numeral (n : Nat) :
    List.replicate (6 - (Nat.digits 36 n).length) '0' ++ ((Nat.digits 36 n).map encodeDigit).reverse
      = numeral 36 encodeDigit (width n) n := by
  have hwidth : width n = (6 - (Nat.digits 36 n).length) + (Nat.digits 36 n).length := by
    rw [width]
    omega
  have hsmall : n < 36 ^ (Nat.digits 36 n).length := Nat.lt_base_pow_length_digits (by decide)
  rw [hwidth, numeral_add (by decide) hsmall, numeral_digits (by decide)]
  rfl

/-- The number that `next_rank` prints. -/
def nextNumber (ranks : List String) : Nat := min ((ranks.map parseRank).foldl max 0 + 1) maxU64

theorem nextRank_toList (ranks : List String) :
    (nextRank ranks).toList = numeral 36 encodeDigit (width (nextNumber ranks)) (nextNumber ranks) := by
  have hsmall : nextNumber ranks < 36 ^ 13 :=
    Nat.lt_of_le_of_lt (Nat.min_le_right _ _) (by decide)
  have hdigits := encodeBase36_eq_digits hsmall
  rw [← padded_eq_numeral, nextRank, String.toList_ofList]
  change List.replicate (6 - (encodeBase36 13 (nextNumber ranks)).reverse.length) '0'
      ++ (encodeBase36 13 (nextNumber ranks)).reverse = _
  rw [hdigits, List.length_reverse, List.length_map]

/-- Read from its first character as a number of as many digits as `n` is printed with, the rank is not above `n`. -/
def Behind (n : Nat) (rank : String) : Prop :=
  numeralsUpTo 36 encodeDigit (width n) rank.toList ≤ n

instance (n : Nat) (rank : String) : Decidable (Behind n rank) :=
  inferInstanceAs (Decidable (_ ≤ _))

theorem lt_nextRank_iff (ranks : List String) (rank : String) :
    rank < nextRank ranks ↔ Behind (nextNumber ranks) rank := by
  rw [String.lt_iff_toList_lt, nextRank_toList]
  exact encodeDigit_ascending.lt_numeral_iff (lt_pow_width _) _

/-! ### Ranks of six digits -/

end ShishiTodo.Native
