import ShishiTodo.Recurring.DateTexts
import ShishiTodo.Recurring.Rules
import ShishiTodo.Lib.Search

/-!
# The searches of `nextOccurrence`

What each of its loops returns, in days and months: the monthly and the yearly search find the first month among theirs that has the day, or give up.
-/

namespace ShishiTodo.Recurring

open Lib Lib.Calendar

/-! ### Working days -/

/-- `day` is the first working day from `start` on. -/
def FirstWorkday (start day : Int) : Prop :=
  start ≤ day ∧ weekday day ≤ 5 ∧ ∀ before, start ≤ before → before < day → 5 < weekday before

theorem lastDay_friday : weekday (monthStart 120000 - 1) = 5 := by
  decide

theorem nextWeekday_succ {day : Int} (h : Dated day) (left : Nat) :
    nextWeekday (left + 1) (toDateOnly day) =
      if weekday day ≤ 5 then .ok (toDateOnly day) else nextWeekday left (toDateOnly (day + 1)) := by
  rw [nextWeekday, weekdayIso_toDateOnly h]
  split
  · rename_i hwork
    exact if_pos hwork
  · rename_i hrest
    rw [addDays_toDateOnly h]
    exact if_neg hrest

/-- The last day of the year 9999 is a Friday: the search never leaves the calendar. -/
theorem nextWeekday_spec {start : Int} (h : Dated start) :
    ∃ day, nextWeekday 366 (toDateOnly start) = .ok (toDateOnly day) ∧ FirstWorkday start day ∧
      Dated day := by
  have hfriday := lastDay_friday
  obtain ⟨hfirst, hlast⟩ := h
  rw [nextWeekday_succ ⟨hfirst, hlast⟩]
  by_cases hwork : weekday start ≤ 5
  · rw [if_pos hwork]
    exact ⟨start, rfl, ⟨Int.le_refl _, hwork, fun before hle hlt => by omega⟩, hfirst, hlast⟩
  · rw [if_neg hwork]
    simp only [weekday] at hwork hfriday
    have hnext : Dated (start + 1) := ⟨by omega, by omega⟩
    rw [nextWeekday_succ hnext]
    by_cases hsunday : weekday (start + 1) ≤ 5
    · rw [if_pos hsunday]
      refine ⟨start + 1, rfl, ⟨by omega, hsunday, fun before hle hlt => ?_⟩, hnext⟩
      obtain rfl : before = start := by omega
      simp only [weekday]
      omega
    · rw [if_neg hsunday]
      simp only [weekday] at hsunday
      have hmonday : Dated (start + 1 + 1) := ⟨by omega, by omega⟩
      have hworkday : weekday (start + 1 + 1) ≤ 5 := by
        simp only [weekday]
        omega
      rw [nextWeekday_succ hmonday, if_pos hworkday]
      refine ⟨start + 1 + 1, rfl, ⟨by omega, hworkday, fun before hle hlt => ?_⟩, hmonday⟩
      have hweekend : before = start ∨ before = start + 1 := by omega
      rcases hweekend with rfl | rfl <;> simp only [weekday] <;> omega

/-! ### Months and years -/

theorem multiple_succ (first interval : Int) (k : Nat) :
    first + k * interval + interval = first + ((k + 1 : Nat) : Int) * interval := by
  rw [Nat.cast_add, Nat.cast_one, Int.add_mul, Int.one_mul]
  omega

theorem multiple_le {interval : Int} (hinterval : 1 ≤ interval ∧ interval ≤ 365) (k : Nat) :
    0 ≤ k * interval ∧ k * interval ≤ 365 * k := by
  obtain ⟨hlow, hhigh⟩ := hinterval
  refine ⟨Int.mul_nonneg (Int.natCast_nonneg k) (by omega), ?_⟩
  rw [Int.mul_comm]
  exact Int.mul_le_mul_of_nonneg_right hhigh (Int.natCast_nonneg k)

theorem multiple_mono {interval : Int} (hinterval : 1 ≤ interval) {j k : Nat} (h : j ≤ k) :
    (j : Int) * interval ≤ k * interval :=
  Int.mul_le_mul_of_nonneg_right (Int.ofNat_le.mpr h) (by omega)

theorem le_multiple {interval : Int} (hinterval : 1 ≤ interval) {k : Nat} (h : 0 < k) :
    interval ≤ k * interval := by
  have hone := multiple_mono hinterval h
  rw [Nat.succ_eq_add_one, Nat.zero_add, Nat.cast_one, Int.one_mul] at hone
  exact hone

/-- One round of the search: the next month has the day, or the search goes on from it. -/
theorem nextMonthly_succ (number : Int) {interval day month : Int} (hinterval : 1 ≤ interval)
    (h : InMonth day month) (hmonth : 1200 ≤ month) (hlast : month + interval < 1919988) (left : Nat) :
    ∃ next, InMonth next (month + interval) ∧
      nextMonthly (some number) (some interval) (left + 1) (toDateOnly day) =
        if number ≤ monthLength (month + interval) then
          .ok (spelled ((month + interval) / 12) ((month + interval) % 12 + 1) number)
        else nextMonthly (some number) (some interval) left (toDateOnly next) := by
  have hclamped := addMonthsClamped_toDateOnly h hmonth (Int.le_trans (by decide) hinterval) hlast
  have hlength := monthLength_pos (month + interval)
  have hfirst := h.1
  have hnext : InMonth (monthStart (month + interval) +
      min (day - monthStart month + 1) (monthLength (month + interval)) - 1) (month + interval) :=
    inMonth_iff.mpr ⟨_, by omega, Int.min_le_right _ _, rfl⟩
  have hlastDay : lastDay ((month + interval) / 12) ((month + interval) % 12 + 1) =
      some (monthLength (month + interval)) := by
    have hindex : 12 * ((month + interval) / 12) + ((month + interval) % 12 + 1) - 1 =
        month + interval := by
      omega
    rw [lastDay_eq (by omega) (by omega) (by omega), hindex]
  refine ⟨_, hnext, ?_⟩
  conv => lhs; unfold nextMonthly
  rw [hclamped]
  simp only
  rw [dateNumbers_toDateOnly hnext (by omega)]
  simp only [hlastDay, Option.any_some, decide_eq_true_eq]

/-- The month that is `k` intervals after the base's has the day. -/
def MonthHas (number interval month : Int) (k : Nat) : Prop :=
  number ≤ monthLength (month + k * interval)

theorem nextMonthly_spec {number interval : Int} (hnumber : 1 ≤ number)
    (hinterval : 1 ≤ interval ∧ interval ≤ 365) {day month : Int} (h : InMonth day month)
    (hmonth : FourDigits month) :
    (∃ k ≤ 120, FirstAfter (MonthHas number interval month) 0 k ∧
      nextMonthly (some number) (some interval) 120 (toDateOnly day) =
        .ok (toDateOnly (monthStart (month + k * interval) + number - 1))) ∨
      (∀ k, 0 < k → k ≤ 120 → ¬ MonthHas number interval month k) ∧
        nextMonthly (some number) (some interval) 120 (toDateOnly day) =
          .error (.invalidRecurrence "Unable to find a monthly occurrence") := by
  have hround : ∀ (left start : Nat) (candidate : String),
      (∃ day, InMonth day (month + start * interval) ∧ candidate = toDateOnly day) →
      start + left + 1 ≤ 120 →
      MonthHas number interval month (start + 1) ∧
        nextMonthly (some number) (some interval) (left + 1) candidate =
          .ok (toDateOnly (monthStart (month + ((start + 1 : Nat) : Int) * interval) + number - 1)) ∨
      ¬ MonthHas number interval month (start + 1) ∧ ∃ next,
        (∃ day, InMonth day (month + ((start + 1 : Nat) : Int) * interval) ∧ next = toDateOnly day) ∧
        nextMonthly (some number) (some interval) (left + 1) candidate =
          nextMonthly (some number) (some interval) left next := by
    rintro left start _ ⟨day, hday, rfl⟩ hleft
    have hfar := multiple_le hinterval start
    obtain ⟨hfirst, hlast⟩ := hmonth
    obtain ⟨next, hnext, hstep⟩ :=
      nextMonthly_succ number hinterval.1 hday (by omega) (by omega) left
    rw [multiple_succ] at hnext hstep
    rw [hstep]
    by_cases hhas : number ≤ monthLength (month + ((start + 1 : Nat) : Int) * interval)
    · have hpos := multiple_le hinterval (start + 1)
      rw [if_pos hhas, spelled_eq (by omega) hnumber hhas]
      exact .inl ⟨hhas, rfl⟩
    · rw [if_neg hhas]
      exact .inr ⟨hhas, toDateOnly next, ⟨next, hnext, rfl⟩, rfl⟩
  have hbase : ∃ start, InMonth start (month + ((0 : Nat) : Int) * interval) ∧
      toDateOnly day = toDateOnly start := by
    refine ⟨day, ?_, rfl⟩
    rw [Nat.cast_zero, Int.zero_mul, Int.add_zero]
    exact h
  have hsearch := search_spec
    (fun start candidate => ∃ day, InMonth day (month + start * interval) ∧ candidate = toDateOnly day)
    (nextMonthly (some number) (some interval)) (MonthHas number interval month)
    (fun k => .ok (toDateOnly (monthStart (month + k * interval) + number - 1)))
    (fun _ => rfl) hround 120 hbase (Nat.le_refl 120)
  rw [Nat.zero_add] at hsearch
  exact hsearch

/-- The year is read from the text. -/
theorem numberAt_year {day month : Int} (h : InMonth day month) (hmonth : FourDigits month) :
    numberAt (toDateOnly day) 0 4 = some (month / 12) := by
  obtain ⟨hfirst, hlast⟩ := hmonth
  have hyear : ((month / 12).toNat : Int) = month / 12 := Int.toNat_of_nonneg (by omega)
  have hpad : (padStart 4 (toString (((month / 12).toNat : Nat) : Int))).toList.length = 4 := by
    rw [padStart_eq_digitChars (show (month / 12).toNat < 10 ^ (3 + 1) by omega),
      Codecs.length_digitChars]
  rw [numberAt, toDateOnly_eq h (by omega), spelled_toList, List.drop_zero, List.take_left' hpad,
    jsNumber_padStart, hyear]

/-- The month of the year that is `k` intervals after the base's has the day. -/
def YearHas (number interval inYear year : Int) (k : Nat) : Prop :=
  number ≤ monthLength (12 * (year + k * interval) + inYear - 1)

theorem nextYearly_spec {number interval inYear year : Int} (hnumber : 1 ≤ number)
    (hinterval : 1 ≤ interval ∧ interval ≤ 365) (hinYear : 1 ≤ inYear ∧ inYear ≤ 12)
    (hyear : 100 ≤ year ∧ year < 10000) :
    (∃ k ≤ 400, FirstAfter (YearHas number interval inYear year) 0 k ∧
      nextYearly inYear number interval 400 (year + interval) =
        .ok (toDateOnly (monthStart (12 * (year + k * interval) + inYear - 1) + number - 1))) ∨
      (∀ k, 0 < k → k ≤ 400 → ¬ YearHas number interval inYear year k) ∧
        nextYearly inYear number interval 400 (year + interval) =
          .error (.invalidRecurrence "Unable to find a yearly occurrence") := by
  have hround : ∀ (left start : Nat) (candidate : Int),
      candidate = year + ((start + 1 : Nat) : Int) * interval → start + left + 1 ≤ 400 →
      YearHas number interval inYear year (start + 1) ∧
        nextYearly inYear number interval (left + 1) candidate = .ok (toDateOnly (monthStart
          (12 * (year + ((start + 1 : Nat) : Int) * interval) + inYear - 1) + number - 1)) ∨
      ¬ YearHas number interval inYear year (start + 1) ∧ ∃ next,
        next = year + ((start + 1 + 1 : Nat) : Int) * interval ∧
        nextYearly inYear number interval (left + 1) candidate =
          nextYearly inYear number interval left next := by
    rintro left start _ rfl hleft
    have hfar := multiple_le hinterval (start + 1)
    generalize hreached : year + ((start + 1 : Nat) : Int) * interval = reached
    have hstep : nextYearly inYear number interval (left + 1) reached =
        if number ≤ monthLength (12 * reached + inYear - 1) then .ok (spelled reached inYear number)
        else nextYearly inYear number interval left (reached + interval) := by
      rw [nextYearly, lastDay_eq (by omega) (by omega) hinYear]
      simp only [Option.any_some, decide_eq_true_eq]
    have hyearOf : (12 * reached + inYear - 1) / 12 = reached := by omega
    have hinYearOf : (12 * reached + inYear - 1) % 12 + 1 = inYear := by omega
    rw [hstep, YearHas, hreached]
    by_cases hhas : number ≤ monthLength (12 * reached + inYear - 1)
    · have htext := spelled_eq (show 0 ≤ 12 * reached + inYear - 1 by omega) hnumber hhas
      rw [hyearOf, hinYearOf] at htext
      rw [if_pos hhas, htext]
      exact .inl ⟨hhas, rfl⟩
    · rw [if_neg hhas, ← multiple_succ, hreached]
      exact .inr ⟨hhas, reached + interval, rfl, rfl⟩
  have hbase : year + interval = year + ((0 + 1 : Nat) : Int) * interval := by
    rw [Nat.zero_add, Nat.cast_one, Int.one_mul]
  have hsearch := search_spec
    (fun start candidate => candidate = year + ((start + 1 : Nat) : Int) * interval)
    (nextYearly inYear number interval) (YearHas number interval inYear year)
    (fun k => .ok (toDateOnly (monthStart (12 * (year + k * interval) + inYear - 1) + number - 1)))
    (fun _ => rfl) hround 400 hbase (Nat.le_refl 400)
  rw [Nat.zero_add] at hsearch
  exact hsearch

end ShishiTodo.Recurring
