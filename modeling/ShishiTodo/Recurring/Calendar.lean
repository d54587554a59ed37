import ShishiTodo.Recurring.Dates
import ShishiTodo.Lib.Calendar

/-!
# The calendar behind the dates

The arithmetic of `Date.UTC` and of the fields of a date is that of the Gregorian calendar. A text that `isDateOnly` accepts is the one that `toDateOnly` gives for its day.
-/

namespace ShishiTodo.Recurring

open Lib Lib.Calendar

/-! ### Year, month and day -/

/-- The days of the years since March of the year 0. -/
theorem eraDays_eq (year : Int) :
    year / 400 * 146097 + ((year - year / 400 * 400) * 365 + (year - year / 400 * 400) / 4
      - (year - year / 400 * 400) / 100) = 365 * year + year / 4 - year / 100 + year / 400 := by
  omega

theorem daysFromCivil_eq (month : Int) (day : Nat) :
    Codecs.daysFromCivil (month / 12) ((month % 12).toNat + 1) day = monthStart month + day - 1 := by
  have hleap := yearStart_succ (month / 12)
  obtain ⟨inYear, hinYear, hsmall⟩ : ∃ inYear : Nat, month % 12 = inYear ∧ inYear < 12 :=
    ⟨(month % 12).toNat, by omega, by omega⟩
  simp only [Codecs.daysFromCivil, monthStart]
  rw [Int.fdiv_eq_ediv_of_nonneg _ (by decide), hinYear, Int.toNat_natCast]
  generalize month / 12 = year at *
  rcases Nat.lt_or_ge 1 inYear with hlate | hearly
  · have hera := eraDays_eq year
    have hlater : ¬ inYear + 1 ≤ 2 := by omega
    have hafter : ¬ (inYear : Int) ≤ 1 := by omega
    have hshift : (inYear + 1 + 9) % 12 = inYear - 2 := by omega
    have hstart : yearStart year + (if isLeap year then 60 else 59) =
        365 * year + year / 4 - year / 100 + year / 400 - 719468 := by
      simp only [yearStart, Int.add_sub_cancel] at hleap ⊢
      by_cases hyear : isLeap year
      · rw [if_pos hyear] at hleap ⊢
        omega
      · rw [if_neg hyear] at hleap ⊢
        omega
    rw [if_neg hlater, if_neg hafter, hshift]
    omega
  · have hera := eraDays_eq (year - 1)
    have hearlier : inYear + 1 ≤ 2 := by omega
    have hbefore : (inYear : Int) ≤ 1 := by omega
    have hshift : (inYear + 1 + 9) % 12 = inYear + 10 := by omega
    rw [if_pos hearlier, if_pos hbefore, hshift, yearStart]
    omega

/-- The year of an era: the three quotients take out the leap days before it. -/
theorem yearOfEra_eq {century quad year dayOfYear dayOfEra : Int}
    (hcentury : 0 ≤ century ∧ century ≤ 3) (hquad : 0 ≤ quad ∧ quad ≤ 24)
    (hyear : 0 ≤ year ∧ year ≤ 3) (hday : 0 ≤ dayOfYear ∧ dayOfYear ≤ 365)
    (hleap : dayOfYear = 365 → year = 3 ∧ (quad ≠ 24 ∨ century = 3))
    (hera : dayOfEra = 36524 * century + 1461 * quad + 365 * year + dayOfYear) :
    (dayOfEra - dayOfEra / 1460 + dayOfEra / 36524 - dayOfEra / 146096) / 365
      = 100 * century + 4 * quad + year := by
  have hfirst : dayOfEra / 1460 =
      25 * century + quad + (24 * century + quad + 365 * year + dayOfYear) / 1460 := by
    omega
  have hsecond : dayOfEra / 36524 - dayOfEra / 146096 = century := by
    rcases Int.lt_or_le dayOfEra 146096 with hlt | hge
    · have hnone : dayOfEra / 146096 = 0 := by omega
      have hcenturies : dayOfEra / 36524 = century := by omega
      omega
    · omega
  have hsum : dayOfEra - dayOfEra / 1460 + dayOfEra / 36524 - dayOfEra / 146096 =
      365 * (100 * century + 4 * quad + year) + dayOfYear
        - (24 * century + quad + 365 * year + dayOfYear) / 1460 := by
    omega
  have hrest : (24 * century + quad + 365 * year + dayOfYear) / 1460 = 0 ∨
      (24 * century + quad + 365 * year + dayOfYear) / 1460 = 1 := by
    omega
  rw [hsum]
  rcases hrest with hzero | hone
  · rw [hzero]
    omega
  · rw [hone]
    omega

/-- The months of a year that begins with March, in days from its first. -/
theorem dayOfYear_spec {month day : Int} (hfirst : 1 ≤ day) (hlast : day ≤ monthLength month)
    {shifted : Nat} (hshifted : shifted = ((month % 12).toNat + 10) % 12) :
    let dayOfYear := (153 * (shifted : Int) + 2) / 5 + day - 1
    0 ≤ dayOfYear ∧ dayOfYear ≤ 365 ∧ (5 * dayOfYear + 2) / 153 = shifted ∧
      (dayOfYear = 365 → month % 12 = 1 ∧ isLeap (month / 12)) := by
  obtain ⟨inYear, hinYear, hsmall⟩ : ∃ inYear : Nat, month % 12 = inYear ∧ inYear < 12 :=
    ⟨(month % 12).toNat, by omega, by omega⟩
  rw [monthLength, hinYear] at hlast
  rw [hinYear, Int.toNat_natCast] at hshifted
  rw [hinYear]
  subst hshifted
  cases hyear : isLeap (month / 12) <;> rw [hyear] at hlast <;> interval_cases inYear <;>
    simp at hlast ⊢ <;> omega

theorem era_split {day era dayOfEra : Int} (hday : era * 146097 + dayOfEra - 719468 = day)
    (hbounds : 0 ≤ dayOfEra ∧ dayOfEra < 146097) :
    (day + 719468).fdiv 146097 = era ∧ day + 719468 - era * 146097 = dayOfEra := by
  rw [Int.fdiv_eq_ediv_of_nonneg _ (by decide)]
  omega

/-- The fields of a day are its month and its number in the month. -/
theorem civil_eq {day month : Int} (h : InMonth day month) :
    Codecs.civil ⟨day⟩
      = (month / 12, (month % 12).toNat + 1, (day - monthStart month + 1).toNat) := by
  obtain ⟨inMonth, hfirst, hlast, hday⟩ := inMonth_iff.mp h
  obtain ⟨shifted, hshifted⟩ : ∃ shifted, shifted = ((month % 12).toNat + 10) % 12 := ⟨_, rfl⟩
  obtain ⟨hlow, hhigh, hmonth, hleap⟩ := dayOfYear_spec hfirst hlast hshifted
  have hcount := daysFromCivil_eq month inMonth.toNat
  rw [Int.toNat_of_nonneg (by omega), ← hday] at hcount
  simp only [Codecs.daysFromCivil] at hcount
  rw [Int.fdiv_eq_ediv_of_nonneg _ (by decide), Int.toNat_of_nonneg (by omega)] at hcount
  have hnumber : ((month % 12).toNat + 1 + 9) % 12 = shifted := by omega
  rw [hnumber] at hcount
  generalize hdayOfYear : (153 * (shifted : Int) + 2) / 5 + inMonth - 1 = dayOfYear at hcount hlow hhigh hmonth hleap
  generalize hshift : (if (month % 12).toNat + 1 ≤ 2 then month / 12 - 1 else month / 12) = year at hcount
  have hquotients : year - year / 400 * 400 = year % 400 := by omega
  rw [hquotients] at hcount
  have hleapYear : dayOfYear = 365 → year % 4 = 3 ∧ (year % 100 ≠ 99 ∨ year % 400 = 399) := by
    intro hlastDay
    obtain ⟨hfebruary, hyear⟩ := hleap hlastDay
    have hbefore : month / 12 = year + 1 := by
      rw [if_pos (by omega)] at hshift
      omega
    rw [hbefore] at hyear
    have hfour := (isLeap_iff _).mp hyear
    clear hcount hshift hday h hbefore
    omega
  -- The year of the era: centuries, then spans of four years, then years.
  obtain ⟨century, quad, rest, hofEra, hcentury, hquad, hrest⟩ : ∃ century quad rest : Int,
      year % 400 = 100 * century + 4 * quad + rest ∧ (0 ≤ century ∧ century ≤ 3) ∧
        (0 ≤ quad ∧ quad ≤ 24) ∧ (0 ≤ rest ∧ rest ≤ 3) :=
    ⟨year % 400 / 100, year % 400 % 100 / 4, year % 4, by omega, by omega, by omega, by omega⟩
  have hlong : dayOfYear = 365 → rest = 3 ∧ (quad ≠ 24 ∨ century = 3) := by
    intro hlastDay
    have hyear := hleapYear hlastDay
    clear hcount hleapYear hleap hshift hday
    omega
  have hyears : year % 400 * 365 + year % 400 / 4 - year % 400 / 100 + dayOfYear =
      36524 * century + 1461 * quad + 365 * rest + dayOfYear := by
    have hfours : year % 400 / 4 = 25 * century + quad := by omega
    have hcenturies : year % 400 / 100 = century := by omega
    rw [hfours, hcenturies, hofEra]
    omega
  obtain ⟨dayOfEra, hera⟩ : ∃ dayOfEra, dayOfEra = 36524 * century + 1461 * quad + 365 * rest + dayOfYear :=
    ⟨_, rfl⟩
  have hyearOfEra := yearOfEra_eq hcentury hquad hrest ⟨hlow, hhigh⟩ hlong hera
  rw [← hofEra] at hyearOfEra
  rw [hyears, ← hera] at hcount
  have hbounds : 0 ≤ dayOfEra ∧ dayOfEra < 146097 := by
    clear hcount hleapYear hleap hshift hday hyears hyearOfEra hofEra
    omega
  obtain ⟨hfloor, hinEra⟩ := era_split hcount hbounds
  have hofYear : dayOfEra - (365 * (year % 400) + year % 400 / 4 - year % 400 / 100) = dayOfYear := by
    rw [hera, ← hyears, Int.mul_comm 365]
    exact add_sub_cancel_left _ _
  simp only [Codecs.civil, NaiveDate.year, hfloor, hinEra, hyearOfEra, hofYear, hmonth]
  clear hcount hyears hera hofYear hyearOfEra hleap hleapYear hlong hfloor hinEra hbounds
  refine Prod.ext ?_ (Prod.ext ?_ ?_)
  · change year % 400 + year / 400 * 400 + (if (shifted : Int) < 10 then 0 else 1) = month / 12
    have hwhole : year % 400 + year / 400 * 400 = year := by omega
    rw [hwhole, ← hshift]
    clear hmonth hdayOfYear hday hlast hofEra hwhole hshift hquotients
    split <;> split <;> omega
  · change ((shifted : Int).toNat + 2) % 12 + 1 = (month % 12).toNat + 1
    rw [Int.toNat_natCast]
    omega
  · change (dayOfYear - (153 * ((shifted : Int).toNat : Int) + 2) / 5 + 1).toNat = (day - monthStart month + 1).toNat
    rw [Int.toNat_natCast]
    omega

end ShishiTodo.Recurring
