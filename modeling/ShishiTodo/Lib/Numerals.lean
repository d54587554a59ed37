import Mathlib.Data.Nat.Digits.Defs
import Mathlib.Data.Nat.Count
import Mathlib.Data.List.Lex

/-!
# Numerals compared as texts

A numeral of a fixed number of digits over any ordered alphabet, its first digit first. Numerals of one length are in the order of their numbers; any other text stands somewhere between them.
-/

namespace Lib

variable {α : Type*} {base : Nat} {letter : Nat → α}

/-- The last `t` digits of a number, the first one first. -/
def numeral (base : Nat) (letter : Nat → α) : Nat → Nat → List α
  | 0, _ => []
  | t + 1, n => letter (n / base ^ t) :: numeral base letter t (n % base ^ t)

@[simp] theorem length_numeral (t n : Nat) : (numeral base letter t n).length = t := by
  induction t generalizing n with
  | zero => rfl
  | succ t ih => simp [numeral, ih]

/-- The last digit stands at the end. -/
theorem numeral_succ (hbase : 0 < base) {t n : Nat} (h : n < base ^ (t + 1)) :
    numeral base letter (t + 1) n = numeral base letter t (n / base) ++ [letter (n % base)] := by
  induction t generalizing n with
  | zero =>
    rw [Nat.zero_add, Nat.pow_one] at h
    simp [numeral, Nat.mod_eq_of_lt h]
  | succ t ih =>
    have hfirst : n / base / base ^ t = n / base ^ (t + 1) := by
      rw [Nat.div_div_eq_div_mul, Nat.pow_succ']
    have hmiddle : n % base ^ (t + 1) / base = n / base % base ^ t := by
      rw [Nat.pow_succ', Nat.mod_mul_right_div_self]
    have hlast : n % base ^ (t + 1) % base = n % base :=
      Nat.mod_mod_of_dvd n (Dvd.intro_left (base ^ t) rfl)
    rw [numeral, ih (Nat.mod_lt n (Nat.pow_pos hbase)), hmiddle, hlast, numeral, hfirst]
    rfl

/-- Zeros in front. -/
theorem numeral_add {t n : Nat} (hbase : 0 < base) (h : n < base ^ t) (zeros : Nat) :
    numeral base letter (zeros + t) n
      = List.replicate zeros (letter 0) ++ numeral base letter t n := by
  induction zeros with
  | zero => simp
  | succ zeros ih =>
    have hsmall : n < base ^ (zeros + t) :=
      Nat.lt_of_lt_of_le h (Nat.pow_le_pow_right hbase (Nat.le_add_left t zeros))
    rw [Nat.add_right_comm, numeral, Nat.div_eq_of_lt hsmall, Nat.mod_eq_of_lt hsmall, ih]
    rfl

/-- The digits that `Nat.digits` gives, the last one first. -/
theorem numeral_digits (hbase : 1 < base) (n : Nat) :
    numeral base letter (Nat.digits base n).length n
      = ((Nat.digits base n).map letter).reverse := by
  induction n using Nat.strong_induction_on with
  | _ n ih =>
    rcases Nat.eq_zero_or_pos n with rfl | hpos
    · simp [numeral]
    · have hlast : n < base ^ (Nat.digits base n).length := Nat.lt_base_pow_length_digits hbase
      rw [Nat.digits_def' hbase hpos, List.length_cons] at hlast ⊢
      rw [numeral_succ (Nat.lt_of_succ_lt hbase) hlast, ih _ (Nat.div_lt_self hpos hbase)]
      simp

section Order

variable [LinearOrder α]

/-- How many letters stand before a character. -/
def lettersBefore (base : Nat) (letter : Nat → α) (c : α) : Nat :=
  Nat.count (fun k => letter k < c) base

/-- How many numerals of `t` digits do not stand after a text. -/
def numeralsUpTo (base : Nat) (letter : Nat → α) : Nat → List α → Nat
  | 0, _ => 1
  | _ + 1, [] => 0
  | t + 1, c :: rest =>
      let before := lettersBefore base letter c
      before * base ^ t
        + if before < base ∧ letter before = c then numeralsUpTo base letter t rest else 0

/-- The letters stand in the order of the digits. -/
def Ascending (base : Nat) (letter : Nat → α) : Prop :=
  ∀ k < base, ∀ j < k, letter j < letter k

theorem Ascending.le {k j : Nat} (h : Ascending base letter) (hk : k < base) (hj : j ≤ k) :
    letter j ≤ letter k := by
  rcases Nat.eq_or_lt_of_le hj with rfl | hless
  · exact le_refl _
  · exact (h k hk j hless).le

theorem Ascending.lt_lettersBefore (h : Ascending base letter) {k : Nat} (hk : k < base) (c : α) :
    k < lettersBefore base letter c ↔ letter k < c := by
  constructor
  · intro hmany
    by_contra hlater
    have hlate : ∀ j < base - k, ¬ letter (k + j) < c := by
      intro j hj hbefore
      exact hlater (lt_of_le_of_lt (h.le (by omega) (Nat.le_add_right k j)) hbefore)
    have hsplit := Nat.count_add (fun j => letter j < c) k (base - k)
    rw [Nat.count_iff_forall_not.mpr hlate, Nat.add_sub_cancel' hk.le] at hsplit
    have hfew : Nat.count (fun j => letter j < c) k ≤ k := Nat.count_le _
    rw [lettersBefore] at hmany
    omega
  · intro hbefore
    have hall : Nat.count (fun j => letter j < c) (k + 1) = k + 1 :=
      Nat.count_iff_forall.mpr fun j hj => lt_of_le_of_lt (h.le hk (by omega)) hbefore
    have hmore := Nat.count_monotone (fun j => letter j < c) hk
    rw [Nat.succ_eq_add_one, hall] at hmore
    exact hmore

theorem Ascending.lettersBefore_letter (h : Ascending base letter) {k : Nat} (hk : k < base) :
    lettersBefore base letter (letter k) = k := by
  have hupper : ¬ k < lettersBefore base letter (letter k) := by
    simp [h.lt_lettersBefore hk]
  rcases Nat.eq_zero_or_pos k with rfl | hpos
  · omega
  · have hlower := (h.lt_lettersBefore (by omega) (letter k)).mpr (h k hk (k - 1) (by omega))
    omega

theorem Ascending.letter_inj (h : Ascending base letter) {k j : Nat} (hk : k < base) (hj : j < base) :
    letter k = letter j ↔ k = j := by
  constructor
  · intro heq
    rw [← h.lettersBefore_letter hk, heq, h.lettersBefore_letter hj]
  · rintro rfl
    rfl

theorem Ascending.letter_lt (h : Ascending base letter) {k j : Nat} (hk : k < base) (hj : j < base) :
    letter k < letter j ↔ k < j := by
  rw [← h.lt_lettersBefore hk, h.lettersBefore_letter hj]

theorem lettersBefore_le (c : α) : lettersBefore base letter c ≤ base := Nat.count_le _

theorem numeralsUpTo_le (t : Nat) (text : List α) :
    numeralsUpTo base letter t text ≤ base ^ t := by
  induction t generalizing text with
  | zero => simp [numeralsUpTo]
  | succ t ih =>
    cases text with
    | nil => simp [numeralsUpTo]
    | cons c rest =>
      have hbefore : lettersBefore base letter c ≤ base := lettersBefore_le c
      have hrest := ih rest
      rw [numeralsUpTo, Nat.pow_succ']
      split
      · rename_i hsame
        have hstep : (lettersBefore base letter c + 1) * base ^ t ≤ base * base ^ t :=
          Nat.mul_le_mul_right _ hsame.1
        rw [Nat.add_mul, Nat.one_mul] at hstep
        omega
      · exact Nat.mul_le_mul_right _ hbefore

/-- A text stands before the numeral of `n` if at most `n` numerals do not stand after it. -/
theorem Ascending.lt_numeral_iff (hletters : Ascending base letter) {t n : Nat}
    (h : n < base ^ t) (text : List α) :
    text < numeral base letter t n ↔ numeralsUpTo base letter t text ≤ n := by
  induction t generalizing n text with
  | zero =>
    have hzero : n = 0 := by simpa using h
    simp [numeral, numeralsUpTo, hzero]
  | succ t ih =>
    cases text with
    | nil => simp [numeral, numeralsUpTo]
    | cons c rest =>
      have hbase : 0 < base := by
        rcases Nat.eq_zero_or_pos base with rfl | hpos
        · simp at h
        · exact hpos
      have hpow : 0 < base ^ t := Nat.pow_pos hbase
      have hfirst : n / base ^ t < base := Nat.div_lt_of_lt_mul (by rwa [Nat.pow_succ] at h)
      have hlast := Nat.mod_lt n hpow
      have hrest := ih hlast rest
      have hfloor := hletters.lt_lettersBefore hfirst c
      have hbound : numeralsUpTo base letter t rest ≤ base ^ t := numeralsUpTo_le t rest
      have hn := Nat.div_add_mod' n (base ^ t)
      rw [numeral, numeralsUpTo, List.cons_lt_cons_iff, hrest]
      generalize n / base ^ t = first at *
      generalize n % base ^ t = last at *
      generalize base ^ t = unit at *
      by_cases hsame : lettersBefore base letter c < base ∧ letter (lettersBefore base letter c) = c
      · -- The first character is a digit: the digits are compared, and the rest if they are equal.
        obtain ⟨hdigit, hletter⟩ := hsame
        rw [if_pos ⟨hdigit, hletter⟩]
        generalize lettersBefore base letter c = before at *
        subst hletter
        rw [hletters.letter_lt hdigit hfirst, hletters.letter_inj hdigit hfirst]
        rcases Nat.lt_trichotomy before first with hless | rfl | hmore
        · have hstep : (before + 1) * unit ≤ first * unit := Nat.mul_le_mul_right _ hless
          rw [Nat.add_mul, Nat.one_mul] at hstep
          omega
        · omega
        · have hstep : (first + 1) * unit ≤ before * unit := Nat.mul_le_mul_right _ hmore
          rw [Nat.add_mul, Nat.one_mul] at hstep
          omega
      · -- It is none: the text stands before the numerals that begin with the next greater digit.
        have hother : c ≠ letter first := by
          rintro rfl
          rw [hletters.lettersBefore_letter hfirst] at hsame
          exact hsame ⟨hfirst, rfl⟩
        have hside : c < letter first ↔ lettersBefore base letter c ≤ first := by
          rw [← Nat.not_lt, hfloor, not_lt]
          exact ⟨le_of_lt, fun hle => lt_of_le_of_ne hle hother⟩
        rw [if_neg hsame, hside]
        simp only [hother, false_and, or_false]
        generalize lettersBefore base letter c = before at *
        rcases Nat.lt_or_ge first before with hmore | hless
        · have hstep : (first + 1) * unit ≤ before * unit := Nat.mul_le_mul_right _ hmore
          rw [Nat.add_mul, Nat.one_mul] at hstep
          omega
        · have hstep : before * unit ≤ first * unit := Nat.mul_le_mul_right _ hless
          omega

theorem Ascending.numeralsUpTo_numeral (hletters : Ascending base letter) {t n : Nat}
    (h : n < base ^ t) : numeralsUpTo base letter t (numeral base letter t n) = n + 1 := by
  induction t generalizing n with
  | zero =>
    have hzero : n = 0 := by simpa using h
    simp [numeralsUpTo, hzero]
  | succ t ih =>
    have hpow : 0 < base ^ t := by
      rcases Nat.eq_zero_or_pos (base ^ t) with hzero | hpos
      · rw [Nat.pow_succ, hzero, Nat.zero_mul] at h
        omega
      · exact hpos
    have hfirst : n / base ^ t < base := Nat.div_lt_of_lt_mul (by rwa [Nat.pow_succ] at h)
    have hn := Nat.div_add_mod' n (base ^ t)
    rw [numeral, numeralsUpTo, hletters.lettersBefore_letter hfirst, if_pos ⟨hfirst, rfl⟩,
      ih (Nat.mod_lt n hpow)]
    omega

end Order

end Lib
