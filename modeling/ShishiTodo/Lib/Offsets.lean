import Mathlib.Data.Int.LeastGreatest
import Mathlib.Algebra.Order.Group.Abs
import Mathlib.Algebra.Order.Group.Int

/-!
# Clocks with isolated jumps

A clock is ahead of time by an offset that now and then jumps. Between two jumps it is read back by guessing an offset and correcting the guess, and three corrections are enough.
-/

namespace Lib.Offsets

variable {offset : Int → Int}

/-- The offset changes at an instant. -/
def Jumps (offset : Int → Int) (t : Int) : Prop := offset (t - 1) ≠ offset t

/-- In the window the offset changes once at most. -/
def OneJump (offset : Int → Int) (low high jump before after : Int) : Prop :=
  ∀ t, low ≤ t → t ≤ high → offset t = if t < jump then before else after

theorem constant_of_not_jumps {low high : Int} (h : ∀ t, low < t → t ≤ high → ¬ Jumps offset t) {t : Int}
    (hlow : low ≤ t) (hhigh : t ≤ high) : offset t = offset low := by
  induction t, hlow using Int.leInduction with
  | base => rfl
  | succ t hlow ih =>
    have hsame := h (t + 1) (by omega) hhigh
    rw [Jumps, Int.add_sub_cancel, not_not] at hsame
    rw [← hsame, ih (by omega)]

/-- Where the jumps are further apart than the window is long, there is one at most. -/
theorem exists_oneJump {low high apart : Int}
    (hapart : ∀ s t, s < t → Jumps offset s → Jumps offset t → s + apart < t) (hshort : high - low ≤ apart) :
    ∃ jump before after, OneJump offset low high jump before after := by
  by_cases hnone : ∀ t, low < t → t ≤ high → ¬ Jumps offset t
  · refine ⟨high + 1, offset low, offset low, fun t hlow hhigh => ?_⟩
    rw [if_pos (by omega), constant_of_not_jumps hnone hlow hhigh]
  · push Not at hnone
    obtain ⟨jump, hlow, hhigh, hjump⟩ := hnone
    have honly : ∀ t, low < t → t ≤ high → t ≠ jump → ¬ Jumps offset t := by
      intro t hafter hbefore hother hjumps
      rcases Int.lt_or_lt_of_ne hother with hless | hmore
      · have hfar := hapart t jump hless hjumps hjump
        omega
      · have hfar := hapart jump t hmore hjump hjumps
        omega
    refine ⟨jump, offset low, offset jump, fun t hfrom hto => ?_⟩
    by_cases hearly : t < jump
    · have hflat : ∀ s, low < s → s ≤ t → ¬ Jumps offset s :=
        fun s hs hst => honly s hs (by omega) (by omega)
      rw [if_pos hearly, constant_of_not_jumps hflat hfrom (Int.le_refl t)]
    · have hflat : ∀ s, jump < s → s ≤ t → ¬ Jumps offset s :=
        fun s hs hst => honly s (by omega) (by omega) (by omega)
      rw [if_neg hearly, constant_of_not_jumps hflat (Int.not_lt.mp hearly) (Int.le_refl t)]

/-- The clock at an instant. -/
def clock (offset : Int → Int) (t : Int) : Int := t + offset t

/-- A better guess at the instant when the clock shows `reading`. -/
def correct (offset : Int → Int) (reading t : Int) : Int := reading - offset t

theorem correct_eq_self {reading t : Int} : correct offset reading t = t ↔ clock offset t = reading := by
  rw [correct, clock]
  omega

section

variable {reading bound jump before after : Int}
  (hbound : ∀ t, -bound < offset t ∧ offset t < bound)
  (hjump : OneJump offset (reading - bound) (reading + bound) jump before after)

include hbound hjump

/-- The offset after a correction depends on the guess alone. -/
theorem offset_corrected (t : Int) :
    offset (correct offset reading t) = if reading - offset t < jump then before else after := by
  have hinside := hbound t
  exact hjump _ (by rw [correct]; omega) (by rw [correct]; omega)

/-- The guesses settle unless each side of the jump sends to the other. -/
theorem clock_corrected_cases :
    clock offset (correct offset reading (correct offset reading (correct offset reading reading)))
        = reading ∨ jump ≤ reading - before ∧ reading - after < jump := by
  have hfirst := hjump reading (by have := hbound reading; omega) (by have := hbound reading; omega)
  have hsecond := offset_corrected hbound hjump reading
  have hthird := offset_corrected hbound hjump (correct offset reading reading)
  have hfourth := offset_corrected hbound hjump (correct offset reading (correct offset reading reading))
  generalize correct offset reading (correct offset reading reading) = second at *
  generalize correct offset reading reading = first at *
  by_cases hgap : jump ≤ reading - before ∧ reading - after < jump
  · exact .inr hgap
  · have hsettled : offset (correct offset reading second) = offset second := by
      rw [hfourth]
      split at hfirst <;> split at hsecond <;> split at hthird <;> split <;> omega
    left
    rw [clock, hsettled, correct]
    omega

/-- A reading that the clock shows is found after three corrections. -/
theorem clock_corrected (hshown : ∃ t, clock offset t = reading) :
    clock offset (correct offset reading (correct offset reading (correct offset reading reading)))
      = reading := by
  rcases clock_corrected_cases hbound hjump with hfound | ⟨hbefore, hafter⟩
  · exact hfound
  · obtain ⟨t, ht⟩ := hshown
    have hfixed := offset_corrected hbound hjump t
    rw [correct_eq_self.mpr ht] at hfixed
    rw [clock] at ht
    split at hfixed <;> omega

/-- A reading that it does not show lies where it jumps forward, and the clock at the instant found is not further off than the jump is long. -/
theorem clock_corrected_gap (hskipped : ∀ t, clock offset t ≠ reading) :
    offset (jump - 1) = before ∧ offset jump = after ∧
      jump + before ≤ reading ∧ reading < jump + after ∧
      |clock offset (correct offset reading (correct offset reading (correct offset reading reading)))
        - reading| ≤ after - before := by
  rcases clock_corrected_cases hbound hjump with hfound | ⟨hbefore, hafter⟩
  · exact absurd hfound (hskipped _)
  · have hlow := hbound (reading - bound)
    have hhigh := hbound (reading + bound)
    have hlowest := hjump (reading - bound) (Int.le_refl _) (by omega)
    have hhighest := hjump (reading + bound) (by omega) (Int.le_refl _)
    have hinside : reading - bound < jump ∧ jump ≤ reading + bound := by
      split at hlowest <;> split at hhighest <;> omega
    rw [if_pos hinside.1] at hlowest
    rw [if_neg (Int.not_lt.mpr hinside.2)] at hhighest
    have hlast := hjump (jump - 1) (by omega) (by omega)
    have hthere := hjump jump (by omega) (by omega)
    rw [if_pos (by omega)] at hlast
    rw [if_neg (by omega)] at hthere
    refine ⟨hlast, hthere, by omega, by omega, ?_⟩
    have hsecond := offset_corrected hbound hjump (correct offset reading reading)
    have hthird := offset_corrected hbound hjump (correct offset reading (correct offset reading reading))
    generalize correct offset reading (correct offset reading reading) = second at *
    rw [clock, hthird, correct, abs_le]
    split at hsecond <;> split <;> omega

end

end Lib.Offsets
