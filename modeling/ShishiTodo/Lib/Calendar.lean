import Mathlib.Order.Monotone.Basic
import Mathlib.Data.Int.LeastGreatest
import Mathlib.Tactic.IntervalCases

/-!
# The Gregorian calendar

Days and months are counted by integers: the days from 1970-01-01, the months from January of the year 0. Each day lies in exactly one month.
-/

namespace Lib.Calendar

def isLeap (year : Int) : Bool := year % 4 = 0 && (year % 100 ≠ 0 || year % 400 = 0)

/-- The days before a year. -/
def yearStart (year : Int) : Int :=
  365 * year + (year - 1) / 4 - (year - 1) / 100 + (year - 1) / 400 - 719527

def monthLength (month : Int) : Int :=
  let inYear := month % 12
  if inYear = 1 then if isLeap (month / 12) then 29 else 28
  else if inYear = 3 ∨ inYear = 5 ∨ inYear = 8 ∨ inYear = 10 then 30
  else 31

/-- The first day of a month. -/
def monthStart (month : Int) : Int :=
  let year := month / 12
  let inYear := month % 12
  yearStart year +
    if inYear ≤ 1 then 31 * inYear
    else (153 * (inYear - 2) + 2) / 5 + if isLeap year then 60 else 59

theorem isLeap_iff (year : Int) :
    isLeap year = true ↔ year % 4 = 0 ∧ (year % 100 ≠ 0 ∨ year % 400 = 0) := by
  simp [isLeap]

theorem yearStart_succ (year : Int) :
    yearStart (year + 1) = yearStart year + if isLeap year then 366 else 365 := by
  have hleap := isLeap_iff year
  simp only [yearStart, Int.add_sub_cancel]
  split
  · rename_i h
    have := hleap.mp h
    omega
  · rename_i h
    rw [hleap] at h
    omega

theorem monthLength_pos (month : Int) : 28 ≤ monthLength month ∧ monthLength month ≤ 31 := by
  simp only [monthLength]
  split
  · split <;> omega
  · split <;> omega

theorem monthStart_succ (month : Int) :
    monthStart (month + 1) = monthStart month + monthLength month := by
  have hyear := yearStart_succ (month / 12)
  have hcases : month % 12 < 11 ∧ (month + 1) / 12 = month / 12 ∧ (month + 1) % 12 = month % 12 + 1 ∨
      month % 12 = 11 ∧ (month + 1) / 12 = month / 12 + 1 ∧ (month + 1) % 12 = 0 := by
    omega
  have hlow : 0 ≤ month % 12 := by omega
  simp only [monthStart, monthLength]
  rcases hcases with ⟨hinside, hsame, hnext⟩ | ⟨hlast, hafter, hfirst⟩
  · rw [hsame, hnext]
    generalize month % 12 = inYear at *
    generalize yearStart (month / 12) = start at *
    cases isLeap (month / 12) <;> interval_cases inYear <;> simp <;> omega
  · rw [hafter, hfirst, hlast, hyear]
    cases isLeap (month / 12) <;> simp <;> omega

theorem monthStart_lt_succ (month : Int) : monthStart month < monthStart (month + 1) := by
  have := monthLength_pos month
  rw [monthStart_succ]
  omega

theorem monthStart_lt {left right : Int} : monthStart left < monthStart right ↔ left < right :=
  (strictMono_int_of_lt_succ monthStart_lt_succ).lt_iff_lt

theorem monthStart_le {left right : Int} : monthStart left ≤ monthStart right ↔ left ≤ right :=
  (strictMono_int_of_lt_succ monthStart_lt_succ).le_iff_le

theorem add_le_monthStart {left right : Int} (h : left ≤ right) :
    monthStart left + (right - left) ≤ monthStart right := by
  induction right, h using Int.leInduction with
  | base => omega
  | succ right _ ih =>
    have := monthLength_pos right
    rw [monthStart_succ]
    omega

theorem monthStart_le_mul {month : Int} (h : 0 ≤ month) : monthStart month ≤ 31 * month := by
  induction month, h using Int.leInduction with
  | base => decide
  | succ month _ ih =>
    have := monthLength_pos month
    rw [monthStart_succ]
    omega

/-- The day lies in the month. -/
def InMonth (day month : Int) : Prop := monthStart month ≤ day ∧ day < monthStart (month + 1)

theorem exists_inMonth (day : Int) : ∃ month, InMonth day month := by
  have hbound : ∀ month, monthStart month ≤ day → month ≤ max 0 (day - monthStart 0) := by
    intro month hmonth
    rcases Int.le_total 0 month with hpos | hneg
    · have := add_le_monthStart hpos
      omega
    · omega
  have hsome : ∃ month, monthStart month ≤ day := by
    refine ⟨min 0 (day - monthStart 0), ?_⟩
    have := add_le_monthStart (Int.min_le_left 0 (day - monthStart 0))
    omega
  obtain ⟨month, hmonth, hgreatest⟩ := Int.exists_greatest_of_bdd ⟨_, hbound⟩ hsome
  refine ⟨month, hmonth, ?_⟩
  by_contra hlate
  have := hgreatest (month + 1) (Int.not_lt.mp hlate)
  omega

theorem InMonth.unique {day left right : Int} (hleft : InMonth day left) (hright : InMonth day right) :
    left = right := by
  have hnot : ¬ left < right := fun hlt => by
    have := monthStart_le.mpr (show left + 1 ≤ right from hlt)
    have := hleft.2
    have := hright.1
    omega
  have hnot' : ¬ right < left := fun hlt => by
    have := monthStart_le.mpr (show right + 1 ≤ left from hlt)
    have := hright.2
    have := hleft.1
    omega
  omega

/-- Days of different months are in the order of the months. -/
theorem InMonth.lt {day other month next : Int} (hday : InMonth day month) (hother : InMonth other next)
    (h : month < next) : day < other := by
  have := monthStart_le.mpr (show month + 1 ≤ next from h)
  have := hday.2
  have := hother.1
  omega

theorem inMonth_iff {day month : Int} :
    InMonth day month ↔ ∃ inMonth, 1 ≤ inMonth ∧ inMonth ≤ monthLength month ∧
      day = monthStart month + inMonth - 1 := by
  rw [InMonth, monthStart_succ]
  constructor
  · intro h
    exact ⟨day - monthStart month + 1, by omega, by omega, by omega⟩
  · rintro ⟨inMonth, hfirst, hlast, rfl⟩
    omega

end Lib.Calendar
