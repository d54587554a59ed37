import ShishiTodo.Lib.Numerals

/-!
# Texts in the order of numbers

Texts of one length that are put together from parts in the order of their numbers are in the order of the numbers put together. A part of varying length at the end, digits without the zeros at their end and a character that stops them, keeps the order where the same character stops all of them, and loses it where not.
-/

namespace Lib

variable {α : Type*} [LinearOrder α]

theorem append_lt_append_iff {xs xs' ys ys' : List α} (h : xs.length = xs'.length) :
    xs ++ ys < xs' ++ ys' ↔ xs < xs' ∨ xs = xs' ∧ ys < ys' := by
  induction xs generalizing xs' with
  | nil =>
      rw [List.eq_nil_of_length_eq_zero h.symm]
      simp
  | cons c rest ih =>
      cases xs' with
      | nil => cases h
      | cons d rest' =>
          have hrest : rest.length = rest'.length := by simpa using h
          simp only [List.cons_append, List.cons_lt_cons_iff, ih hrest, List.cons.injEq]
          tauto

/-- Two texts of one length stand in the order of two numbers. -/
structure Orders (text other : List α) (n m : Int) : Prop where
  length : text.length = other.length
  lt : text < other ↔ n < m
  gt : other < text ↔ m < n

namespace Orders

variable {text other xs xs' ys ys' : List α} {n m a a' b b' : Int}

theorem eq_iff (h : Orders text other n m) : text = other ↔ n = m := by
  constructor
  · rintro rfl
    have hnot : ¬ n < m := fun hlt => lt_irrefl text (h.lt.mpr hlt)
    have hnot' : ¬ m < n := fun hlt => lt_irrefl text (h.gt.mpr hlt)
    omega
  · rintro rfl
    exact le_antisymm (not_lt.mp fun hlt => lt_irrefl n (h.gt.mp hlt))
      (not_lt.mp fun hlt => lt_irrefl n (h.lt.mp hlt))

/-- Other numbers in the same order. -/
theorem congr (h : Orders text other a a') (hlt : n < m ↔ a < a') (hgt : m < n ↔ a' < a) :
    Orders text other n m :=
  ⟨h.length, h.lt.trans hlt.symm, h.gt.trans hgt.symm⟩

theorem cons (c : α) (h : Orders text other n m) : Orders (c :: text) (c :: other) n m := by
  refine ⟨by simp [h.length], ?_, ?_⟩
  · simp [h.lt]
  · simp [h.gt]

/-- The first parts decide, and the second ones where the first are the same. -/
theorem append_lex (h : Orders xs xs' a a') (hlast : Orders ys ys' b b')
    (hlt : n < m ↔ a < a' ∨ a = a' ∧ b < b') (hgt : m < n ↔ a' < a ∨ a = a' ∧ b' < b) :
    Orders (xs ++ ys) (xs' ++ ys') n m := by
  refine ⟨by simp [h.length, hlast.length], ?_, ?_⟩
  · rw [append_lt_append_iff h.length, h.lt, h.eq_iff, hlast.lt, hlt]
  · rw [append_lt_append_iff h.length.symm, h.gt, eq_comm, h.eq_iff, hlast.gt, hgt]

/-- The second part counts within a unit of the first. -/
theorem append (unit : Int) (h : Orders xs xs' a a') (hlast : Orders ys ys' b b')
    (hb : 0 ≤ b ∧ b < unit) (hb' : 0 ≤ b' ∧ b' < unit) :
    Orders (xs ++ ys) (xs' ++ ys') (a * unit + b) (a' * unit + b') := by
  have hstep : ∀ first second last last' : Int, 0 ≤ last → last < unit → 0 ≤ last' → first < second →
      first * unit + last < second * unit + last' := by
    intro first second last last' _ hlast hlast' hless
    have hunit : (first + 1) * unit ≤ second * unit := Int.mul_le_mul_of_nonneg_right hless (by omega)
    rw [Int.add_mul, Int.one_mul] at hunit
    omega
  have hless : a < a' → a * unit + b < a' * unit + b' := hstep a a' b b' hb.1 hb.2 hb'.1
  have hmore : a' < a → a' * unit + b' < a * unit + b := hstep a' a b' b hb'.1 hb'.2 hb.1
  have hsame : a = a' → a * unit = a' * unit := fun heq => by rw [heq]
  apply append_lex h hlast <;> omega

/-- Numerals of one length. -/
theorem numeral {base t : Nat} {letter : Nat → α} (hletters : Ascending base letter) {k j : Nat}
    (hk : k < base ^ t) (hj : j < base ^ t) :
    Orders (Lib.numeral base letter t k) (Lib.numeral base letter t j) k j := by
  refine ⟨by simp, ?_, ?_⟩
  · rw [hletters.lt_numeral_iff hj, hletters.numeralsUpTo_numeral hk]
    omega
  · rw [hletters.lt_numeral_iff hk, hletters.numeralsUpTo_numeral hj]
    omega

end Orders

/-! ### Zeros at the end -/

/-- The text without the zeros at its end. -/
def trimZeros (zero : α) : List α → List α
  | [] => []
  | c :: rest => if c = zero ∧ trimZeros zero rest = [] then [] else c :: trimZeros zero rest

variable {zero stop final : α} {xs ys us tail more : List α}

theorem trimZeros_sublist (zero : α) (text : List α) : (trimZeros zero text).Sublist text := by
  induction text with
  | nil => exact List.Sublist.refl _
  | cons c rest ih =>
      rw [trimZeros]
      split
      · exact List.nil_sublist _
      · exact ih.cons_cons c

theorem trimZeros_cons_lt_iff {c : α} :
    trimZeros zero (c :: xs) < trimZeros zero (c :: ys) ↔ trimZeros zero xs < trimZeros zero ys := by
  rw [trimZeros, trimZeros]
  by_cases hzero : c = zero
  · rcases hx : trimZeros zero xs with _ | ⟨x, restx⟩
    · rcases hy : trimZeros zero ys with _ | ⟨y, resty⟩
      · simp [hzero]
      · simp [hzero]
    · rcases hy : trimZeros zero ys with _ | ⟨y, resty⟩
      · simp [hzero]
      · simp [hzero]
  · simp [hzero]

/-- Digits without the zeros at their end are in the order of the digits. -/
theorem trimZeros_lt_iff (hlength : xs.length = ys.length) (hxs : ∀ c ∈ xs, zero ≤ c)
    (hys : ∀ c ∈ ys, zero ≤ c) : trimZeros zero xs < trimZeros zero ys ↔ xs < ys := by
  induction xs generalizing ys with
  | nil =>
      rw [List.eq_nil_of_length_eq_zero hlength.symm]
      simp
  | cons c rest ih =>
      cases ys with
      | nil => cases hlength
      | cons d rest' =>
          have hrest := @ih rest' (by simpa using hlength)
            (fun c hc => hxs c (List.mem_cons_of_mem _ hc)) (fun c hc => hys c (List.mem_cons_of_mem _ hc))
          rcases lt_trichotomy c d with hless | rfl | hmore
          · have hd : d ≠ zero := fun hd => absurd (hxs c List.mem_cons_self) (not_le.mpr (hd ▸ hless))
            have hkept : trimZeros zero (d :: rest') = d :: trimZeros zero rest' := by simp [trimZeros, hd]
            rw [hkept, trimZeros]
            split
            · simp [List.cons_lt_cons_iff, hless]
            · simp [List.cons_lt_cons_iff, hless]
          · rw [trimZeros_cons_lt_iff, hrest]
            simp
          · have hc : c ≠ zero := fun hc => absurd (hys d List.mem_cons_self) (not_le.mpr (hc ▸ hmore))
            have hkept : trimZeros zero (c :: rest) = c :: trimZeros zero rest := by simp [trimZeros, hc]
            have hnot : ¬ c < d := not_lt.mpr hmore.le
            rw [hkept, trimZeros]
            split
            · simp [List.cons_lt_cons_iff, hnot, hmore.ne']
            · simp [List.cons_lt_cons_iff, hnot, hmore.ne']

/-- A character before all others stops both texts. -/
theorem append_stop_lt_iff (hxs : ∀ c ∈ xs, stop < c) (hys : ∀ c ∈ ys, stop < c) :
    xs ++ stop :: tail < ys ++ stop :: tail ↔ xs < ys := by
  induction xs generalizing ys with
  | nil =>
      cases ys with
      | nil => simp
      | cons d rest' => simp [List.cons_lt_cons_iff, hys d List.mem_cons_self]
  | cons c rest ih =>
      have hc := hxs c List.mem_cons_self
      cases ys with
      | nil => simp [List.cons_lt_cons_iff, hc.not_gt, hc.ne']
      | cons d rest' =>
          have hrest := @ih rest' (fun c hc => hxs c (List.mem_cons_of_mem _ hc))
            (fun c hc => hys c (List.mem_cons_of_mem _ hc))
          simp only [List.cons_append, List.cons_lt_cons_iff, hrest]

/-- Digits stopped by a character before all digits, against fewer digits stopped by a character behind them: only the digits that both have decide. -/
theorem trimZeros_append_lt_iff (hlength : xs.length = ys.length) (hstop : stop < zero) (hzero : zero < final)
    (hxs : ∀ c ∈ xs ++ us, zero ≤ c ∧ c < final) (hys : ∀ c ∈ ys, zero ≤ c) :
    trimZeros zero (xs ++ us) ++ stop :: tail < ys ++ final :: more ↔ xs ≤ ys := by
  induction xs generalizing ys with
  | nil =>
      rw [List.eq_nil_of_length_eq_zero hlength.symm]
      rcases hu : trimZeros zero us with _ | ⟨u, rest⟩
      · simp [hu, List.cons_lt_cons_iff, hstop.trans hzero]
      · have hmem : u ∈ us := (trimZeros_sublist zero us).subset (by rw [hu]; exact List.mem_cons_self)
        simp [hu, List.cons_lt_cons_iff, (hxs u hmem).2]
  | cons c rest ih =>
      cases ys with
      | nil => cases hlength
      | cons d rest' =>
          have hrest := @ih rest' (by simpa using hlength)
            (fun c hc => hxs c (List.mem_cons_of_mem _ hc)) (fun c hc => hys c (List.mem_cons_of_mem _ hc))
          have hd := hys d List.mem_cons_self
          have hcons : c :: rest ≤ d :: rest' ↔ c < d ∨ c = d ∧ rest ≤ rest' := by
            rw [← not_lt, List.cons_lt_cons_iff, ← not_lt]
            rcases lt_trichotomy c d with hless | rfl | hmore
            · simp [hless, hless.not_gt, hless.ne']
            · simp
            · simp [hmore, hmore.not_gt, hmore.ne']
          rw [List.cons_append, trimZeros, hcons, ← hrest]
          split
          · rename_i hnone
            obtain ⟨rfl, hempty⟩ := hnone
            have hbehind : stop :: tail < rest' ++ final :: more := by
              cases rest' with
              | nil => simp [List.cons_lt_cons_iff, hstop.trans hzero]
              | cons e rest'' =>
                  have he := hys e (List.mem_cons_of_mem _ List.mem_cons_self)
                  simp [List.cons_lt_cons_iff, hstop.trans_le he]
            simp only [hempty, List.nil_append, List.cons_append, List.cons_lt_cons_iff, hstop.trans_le hd, true_or,
              hbehind, and_true, true_iff]
            exact hd.lt_or_eq
          · simp only [List.cons_append, List.cons_lt_cons_iff]

end Lib
