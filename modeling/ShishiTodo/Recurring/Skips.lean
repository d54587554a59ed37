import ShishiTodo.Recurring.Advance

/-!
# What the next occurrence skips

With an interval of one nothing that matches a daily, working-day or weekly rule lies between the base and the next occurrence. The monthly and the yearly search begin with the month, or the year, after the base's: from a base before the chosen day they skip that day.
-/

namespace ShishiTodo.Recurring

open Lib Lib.Calendar Native

/-- The date is one of the rule's. -/
def Matches (rule : Recurrence) (day : Int) : Prop :=
  match rule.frequency with
  | some .daily => True
  | some .weekdays => weekday day ≤ 5
  | some .weekly => ∃ days, rule.weekdays = some days ∧ weekday day ∈ days
  | some .monthly => ∃ number month, rule.monthDay = some number ∧ InMonth day month ∧
      day = monthStart month + number - 1
  | some .yearly => ∃ number inYear month, rule.monthDay = some number ∧ rule.month = some inYear ∧
      InMonth day month ∧ month % 12 + 1 = inYear ∧ day = monthStart month + number - 1
  | none => False

/-- No date of the rule lies between the base and the occurrence that is returned. -/
def SkipsNothing (raw : Json) (fromDate completionDate : String) (rule : Recurrence) (base : Int) : Prop :=
  ∀ next, base < next → nextOccurrence raw fromDate completionDate = .ok (toDateOnly next) →
    ∀ day, base < day → day < next → ¬ Matches rule day

/-- The chosen day of the base's month, or of its year, does not come after the base. -/
def Aligned (rule : Recurrence) (base : Int) : Prop :=
  match rule.frequency with
  | some .monthly => ∀ number month, rule.monthDay = some number → InMonth base month →
      number ≤ monthLength month → monthStart month + number - 1 ≤ base
  | some .yearly => ∀ number inYear month, rule.monthDay = some number → rule.month = some inYear →
      InMonth base month → number ≤ monthLength (12 * (month / 12) + inYear - 1) →
      monthStart (12 * (month / 12) + inYear - 1) + number - 1 ≤ base
  | _ => True

/-- The text of a later day is the text of no other. -/
theorem toDateOnly_inj {base left right : Int} (hbase : Dated base) (hleft : base < left)
    (hright : base < right) (h : toDateOnly left = toDateOnly right) : left = right := by
  obtain ⟨leftMonth, hleftMonth⟩ := exists_inMonth left
  obtain ⟨rightMonth, hrightMonth⟩ := exists_inMonth right
  have hleftLate := monthStart_lt.mp (Int.lt_of_le_of_lt hbase.1 (Int.lt_trans hleft hleftMonth.2))
  have hrightLate := monthStart_lt.mp (Int.lt_of_le_of_lt hbase.1 (Int.lt_trans hright hrightMonth.2))
  have hnumbers := congrArg dateNumbers h
  rw [dateNumbers_toDateOnly hleftMonth (by omega), dateNumbers_toDateOnly hrightMonth (by omega)] at hnumbers
  simp only [List.cons.injEq, Option.some.injEq, and_true] at hnumbers
  obtain ⟨hyear, hinYear, hinMonth⟩ := hnumbers
  obtain rfl : leftMonth = rightMonth := by omega
  omega

/-! ### Months and years that come soon -/

theorem monthLength_long {month : Int} (hfebruary : month % 12 ≠ 1)
    (hshort : ¬ (month % 12 = 3 ∨ month % 12 = 5 ∨ month % 12 = 8 ∨ month % 12 = 10)) :
    monthLength month = 31 := by
  simp only [monthLength]
  rw [if_neg hfebruary, if_neg hshort]

/-- No two months in a row are short. -/
theorem long_month_soon (month : Int) : monthLength (month + 1) = 31 ∨ monthLength (month + 2) = 31 := by
  by_cases hnext : (month + 1) % 12 ≠ 1 ∧
      ¬ ((month + 1) % 12 = 3 ∨ (month + 1) % 12 = 5 ∨ (month + 1) % 12 = 8 ∨ (month + 1) % 12 = 10)
  · exact .inl (monthLength_long hnext.1 hnext.2)
  · exact .inr (monthLength_long (by omega) (by omega))

theorem monthLength_of_inYear {left right : Int} (hsame : left % 12 = right % 12) (hnot : left % 12 ≠ 1) :
    monthLength left = monthLength right := by
  simp only [monthLength]
  rw [← hsame, if_neg hnot, if_neg hnot]

theorem monthLength_february (year : Int) :
    monthLength (12 * year + 1) = if isLeap year then 29 else 28 := by
  have hinYear : (12 * year + 1) % 12 = 1 := by omega
  have hyear : (12 * year + 1) / 12 = year := by omega
  simp only [monthLength]
  rw [if_pos hinYear, hyear]

/-- The month is as long again after eight years at the latest. -/
theorem long_year_soon {year inYear number : Int} (hinYear : 1 ≤ inYear ∧ inYear ≤ 12)
    (h : number ≤ monthLength (12 * year + inYear - 1)) :
    ∃ k ≤ 400, 0 < k ∧ YearHas number 1 inYear year k := by
  by_cases hfebruary : inYear = 2
  · obtain rfl := hfebruary
    have hhas : ∀ k : Nat, YearHas number 1 2 year k ↔ number ≤ if isLeap (year + k) then 29 else 28 := by
      intro k
      have hindex : 12 * (year + k * 1) + 2 - 1 = 12 * (year + k) + 1 := by omega
      rw [YearHas, hindex, monthLength_february]
    have hbase : 12 * year + 2 - 1 = 12 * year + 1 := by omega
    rw [hbase, monthLength_february] at h
    by_cases hleap : isLeap year
    · rw [if_pos hleap] at h
      have hfour := (isLeap_iff year).mp hleap
      by_cases hnext : isLeap (year + 4)
      · exact ⟨4, by omega, by omega, (hhas 4).mpr (by rw [Nat.cast_ofNat, if_pos hnext]; exact h)⟩
      · have hlater : isLeap (year + 8) := by
          rw [isLeap_iff] at hnext ⊢
          omega
        exact ⟨8, by omega, by omega, (hhas 8).mpr (by rw [Nat.cast_ofNat, if_pos hlater]; exact h)⟩
    · rw [if_neg hleap] at h
      refine ⟨1, by omega, by omega, (hhas 1).mpr ?_⟩
      split <;> omega
  · refine ⟨1, by omega, by omega, ?_⟩
    have hsame : monthLength (12 * year + inYear - 1) =
        monthLength (12 * (year + ((1 : Nat) : Int) * 1) + inYear - 1) :=
      monthLength_of_inYear (by omega) (by omega)
    rw [YearHas, ← hsame]
    exact h

/-! ### Frequency by frequency -/

section

variable {raw : Json} {fromDate completionDate : String} {rule : Recurrence} {base : Int}
  (hrule : normalizeRecurrence raw = .ok rule)
  (htext : baseOf rule fromDate completionDate = toDateOnly base) (hbase : Dated base)

include hrule htext hbase

theorem skips_weekdays (hfrequency : rule.frequency = some .weekdays) :
    SkipsNothing raw fromDate completionDate rule base := by
  intro next hlater hnext day hday hless hmatches
  rw [nextOccurrence_eq hrule, hfrequency, htext] at hnext
  simp only at hnext
  rw [addDays_toDateOnly hbase, ok_bind] at hnext
  unfold Matches at hmatches
  rw [hfrequency] at hmatches
  by_cases hdated : Dated (base + 1)
  · obtain ⟨first, hfound, hfirst, -⟩ := nextWeekday_spec hdated
    have hlate := hfirst.1
    have hsame := toDateOnly_inj hbase (by omega) hlater (Except.ok.inj (hfound.symm.trans hnext))
    have hrest := hfirst.2.2 day (by omega) (by omega)
    omega
  · obtain ⟨hlow, hhigh⟩ := hbase
    have hlate : monthStart 120000 ≤ base + 1 := by
      by_contra hearly
      exact hdated ⟨by omega, by omega⟩
    rw [nextWeekday, weekdayIso, parse_late hlate] at hnext
    cases hnext

variable (hinterval : rule.interval = some 1)

include hinterval

theorem skips_daily (hfrequency : rule.frequency = some .daily) :
    SkipsNothing raw fromDate completionDate rule base := by
  intro next hlater hnext day hday hless
  rw [nextOccurrence_eq hrule, hfrequency, htext, hinterval] at hnext
  simp only at hnext
  rw [addDays_toDateOnly hbase] at hnext
  have hsame := toDateOnly_inj hbase (by omega) hlater (Except.ok.inj hnext)
  omega

theorem skips_weekly (hfrequency : rule.frequency = some .weekly) :
    SkipsNothing raw fromDate completionDate rule base := by
  intro next hlater hnext day hday hless hmatches
  obtain ⟨days, hdays, hsome, hrange, hsorted⟩ := (regular_of_normalize hrule).weekdays hfrequency
  unfold Matches at hmatches
  rw [hfrequency] at hmatches
  obtain ⟨_, hsame, hchosen⟩ := hmatches
  obtain rfl := Option.some.inj (hdays.symm.trans hsame)
  rw [nextOccurrence_eq hrule, hfrequency, htext, hdays, hinterval] at hnext
  simp only [ok_bind] at hnext
  have hone := weekday_bounds base
  rcases nextWeekly_spec hbase hsome hsorted (some 1) with
    ⟨first, hfirst, hafter, hleast, hfound⟩ | ⟨hnone, first, hfirst, hleast, hfound⟩
  · have hreached := toDateOnly_inj hbase (by omega) hlater (Except.ok.inj (hfound.symm.trans hnext))
    have hseven := hrange first hfirst
    -- The day lies in the base's week, before the first chosen one.
    have hweekday : weekday day = weekday base + (day - base) := by
      simp only [weekday] at hone hafter hreached ⊢
      omega
    have hle := hleast _ hchosen (by omega)
    omega
  · simp only [Option.elim_some] at hfound
    have hseven := hrange first hfirst
    have hreached := toDateOnly_inj hbase (by omega) hlater (Except.ok.inj (hfound.symm.trans hnext))
    have hrest := hnone _ hchosen
    have hle := hleast _ hchosen
    simp only [weekday] at *
    omega

theorem skips_monthly_iff (hfrequency : rule.frequency = some .monthly) :
    SkipsNothing raw fromDate completionDate rule base ↔ Aligned rule base := by
  obtain ⟨number, hnumber, hone, hlast⟩ := (regular_of_normalize hrule).monthDay (.inl hfrequency)
  obtain ⟨month, hmonth, hyears⟩ := hbase.inMonth
  have hfound := nextOccurrence_monthly hrule htext hbase hfrequency hinterval hnumber hmonth
  have hindex : ∀ k : Nat, month + (k : Int) * 1 = month + k := fun k => by omega
  have hday : ∀ k : Nat, MonthHas number 1 month k →
      InMonth (monthStart (month + k) + number - 1) (month + k) := by
    intro k hhas
    rw [MonthHas, hindex] at hhas
    exact inMonth_iff.mpr ⟨number, hone, hhas, rfl⟩
  unfold Aligned SkipsNothing Matches
  rw [hfrequency]
  constructor
  · intro hskips _ _ hsame hmonth' hhas
    obtain rfl := Option.some.inj (hnumber.symm.trans hsame)
    obtain rfl := hmonth.unique hmonth'
    by_contra hahead
    rcases hfound with ⟨k, -, ⟨hpos, hfits, -⟩, hnext⟩ | ⟨hnone, -⟩
    · rw [hindex] at hnext
      have hthere := inMonth_iff.mpr ⟨number, hone, hhas, rfl⟩
      have hlater := hthere.lt (hday k hfits) (by omega)
      exact hskips _ (by omega) hnext _ (by omega) hlater ⟨number, month, hnumber, hthere, rfl⟩
    · have hsoon : ∀ k : Nat, 0 < k → k ≤ 120 → monthLength (month + k) ≠ 31 := by
        intro k hpos hle hlong
        refine hnone k hpos hle ?_
        rw [MonthHas, hindex, hlong]
        exact hlast
      rcases long_month_soon month with hlong | hlong
      · exact hsoon 1 (by omega) (by omega) hlong
      · exact hsoon 2 (by omega) (by omega) hlong
  · rintro haligned next hlater hnext day hafter hbefore ⟨_, dayMonth, hsame, hdayMonth, hchosen⟩
    obtain rfl := Option.some.inj (hnumber.symm.trans hsame)
    have hdayHas : number ≤ monthLength dayMonth := by
      have hinside := hdayMonth.2
      rw [monthStart_succ] at hinside
      omega
    rcases hfound with ⟨k, -, ⟨hpos, hfits, hfirst⟩, hfound⟩ | ⟨-, herror⟩
    · rw [hindex] at hfound
      have hthere := hday k hfits
      have hreached := toDateOnly_inj hbase (hmonth.lt hthere (by omega)) hlater
        (Except.ok.inj (hfound.symm.trans hnext))
      -- The day lies in the base's month, or in one that the search went past.
      have hlow : month ≤ dayMonth := by
        by_contra hless
        have := hdayMonth.lt hmonth (by omega)
        omega
      have hhigh : dayMonth < month + k := by
        by_contra hless
        have hmono := monthStart_le.mpr (Int.not_lt.mp hless)
        omega
      rcases eq_or_lt_of_le hlow with rfl | hskipped
      · have hpast := haligned number month hnumber hmonth hdayHas
        omega
      · refine hfirst (dayMonth - month).toNat (by omega) (by omega) ?_
        have hsum : month + ((dayMonth - month).toNat : Int) = dayMonth := by omega
        rw [MonthHas, hindex, hsum]
        exact hdayHas
    · rw [herror] at hnext
      cases hnext

theorem skips_yearly_iff (hfrequency : rule.frequency = some .yearly) :
    SkipsNothing raw fromDate completionDate rule base ↔ Aligned rule base := by
  obtain ⟨number, hnumber, hone, hlast⟩ := (regular_of_normalize hrule).monthDay (.inr hfrequency)
  obtain ⟨inYear, hinYear, hrange⟩ := (regular_of_normalize hrule).month hfrequency
  obtain ⟨month, hmonth, hyears⟩ := hbase.inMonth
  have hfound := nextOccurrence_yearly hrule htext hbase hfrequency hinterval hnumber hinYear hmonth
  have hindex : ∀ k : Nat, 12 * (month / 12 + (k : Int) * 1) + inYear - 1 =
      12 * (month / 12 + k) + inYear - 1 := fun k => by omega
  have hday : ∀ k : Nat, YearHas number 1 inYear (month / 12) k →
      InMonth (monthStart (12 * (month / 12 + k) + inYear - 1) + number - 1)
        (12 * (month / 12 + k) + inYear - 1) := by
    intro k hhas
    rw [YearHas, hindex] at hhas
    exact inMonth_iff.mpr ⟨number, hone, hhas, rfl⟩
  unfold Aligned SkipsNothing Matches
  rw [hfrequency]
  constructor
  · intro hskips _ _ _ hsame hsameMonth hmonth' hhas
    obtain rfl := Option.some.inj (hnumber.symm.trans hsame)
    obtain rfl := Option.some.inj (hinYear.symm.trans hsameMonth)
    obtain rfl := hmonth.unique hmonth'
    by_contra hahead
    rcases hfound with ⟨k, -, ⟨hpos, hfits, -⟩, hnext⟩ | ⟨hnone, -⟩
    · rw [hindex] at hnext
      have hthere := inMonth_iff.mpr ⟨number, hone, hhas, rfl⟩
      have hlater := hthere.lt (hday k hfits) (by omega)
      exact hskips _ (by omega) hnext _ (by omega) hlater
        ⟨number, inYear, _, hnumber, hinYear, hthere, by omega, rfl⟩
    · obtain ⟨k, hle, hpos, hfits⟩ := long_year_soon hrange hhas
      exact hnone k hpos hle hfits
  · rintro haligned next hlater hnext day hafter hbefore
      ⟨_, _, dayMonth, hsame, hsameMonth, hdayMonth, hdayInYear, hchosen⟩
    obtain rfl := Option.some.inj (hnumber.symm.trans hsame)
    obtain rfl := Option.some.inj (hinYear.symm.trans hsameMonth)
    have hdayHas : number ≤ monthLength dayMonth := by
      have hinside := hdayMonth.2
      rw [monthStart_succ] at hinside
      omega
    rcases hfound with ⟨k, -, ⟨hpos, hfits, hfirst⟩, hfound⟩ | ⟨-, herror⟩
    · rw [hindex] at hfound
      have hthere := hday k hfits
      have hreached := toDateOnly_inj hbase (hmonth.lt hthere (by omega)) hlater
        (Except.ok.inj (hfound.symm.trans hnext))
      -- The day lies in the base's year, or in one that the search went past.
      have hlow : month ≤ dayMonth := by
        by_contra hless
        have := hdayMonth.lt hmonth (by omega)
        omega
      have hhigh : dayMonth < 12 * (month / 12 + k) + inYear - 1 := by
        by_contra hless
        have hmono := monthStart_le.mpr (Int.not_lt.mp hless)
        omega
      obtain ⟨j, hj⟩ : ∃ j : Nat, dayMonth = 12 * (month / 12 + j) + inYear - 1 :=
        ⟨(dayMonth / 12 - month / 12).toNat, by omega⟩
      rcases Nat.eq_zero_or_pos j with rfl | hskipped
      · have hbaseYear : dayMonth = 12 * (month / 12) + inYear - 1 := by omega
        rw [hbaseYear] at hdayHas hchosen
        have hpast := haligned number inYear month hnumber hinYear hmonth hdayHas
        omega
      · refine hfirst j hskipped (by omega) ?_
        rw [YearHas, hindex, ← hj]
        exact hdayHas
    · rw [herror] at hnext
      cases hnext

end

/-- With an interval of one a monthly or yearly rule skips nothing from the bases that do not lie before the chosen day of their month or year, and the other rules from all of them. -/
theorem skipsNothing_iff {raw : Json} {fromDate completionDate : String} {rule : Recurrence} {base : Int}
    (hrule : normalizeRecurrence raw = .ok rule)
    (htext : baseOf rule fromDate completionDate = toDateOnly base) (hbase : Dated base)
    (hinterval : rule.interval = some 1) :
    SkipsNothing raw fromDate completionDate rule base ↔ Aligned rule base := by
  cases hfrequency : rule.frequency with
  | none =>
      refine ⟨fun _ => ?_, fun _ next _ hnext => ?_⟩
      · unfold Aligned
        rw [hfrequency]
        trivial
      · rw [nextOccurrence_eq hrule, hfrequency] at hnext
        cases hnext
  | some frequency =>
      have halways : frequency ≠ .monthly → frequency ≠ .yearly → Aligned rule base := by
        intro hmonthly hyearly
        unfold Aligned
        rw [hfrequency]
        cases frequency <;> trivial
      cases frequency with
      | daily =>
          exact ⟨fun _ => halways nofun nofun,
            fun _ => skips_daily hrule htext hbase hinterval hfrequency⟩
      | weekdays =>
          exact ⟨fun _ => halways nofun nofun, fun _ => skips_weekdays hrule htext hbase hfrequency⟩
      | weekly =>
          exact ⟨fun _ => halways nofun nofun,
            fun _ => skips_weekly hrule htext hbase hinterval hfrequency⟩
      | monthly => exact skips_monthly_iff hrule htext hbase hinterval hfrequency
      | yearly => exact skips_yearly_iff hrule htext hbase hinterval hfrequency

/-- February is skipped, it has no last day of the rule. -/
theorem skipsNothing_march : SkipsNothing endOfMonth "2026-01-31" "" endOfMonthRule 20484 := by
  have hrule : normalizeRecurrence endOfMonth = .ok endOfMonthRule := by decide +kernel
  have htext : baseOf endOfMonthRule "2026-01-31" "" = toDateOnly 20484 := by decide
  have hbase : Dated 20484 := by
    unfold Dated
    decide
  have hinMonth : InMonth 20484 24312 := by
    unfold InMonth
    decide
  refine (skipsNothing_iff hrule htext hbase rfl).mpr ?_
  rintro number month hnumber hmonth -
  cases hnumber
  obtain rfl := hinMonth.unique hmonth
  decide

def middleOfMonth : Json := .obj [("frequency", .str "monthly"), ("monthDay", .num "15")]

/-- From the tenth of January the rule goes to the fifteenth of February. -/
theorem nextOccurrence_skips_january :
    ¬ ∀ (raw : Json) (fromDate completionDate : String) (rule : Recurrence) (base : Int),
      normalizeRecurrence raw = .ok rule → baseOf rule fromDate completionDate = toDateOnly base →
      Dated base → rule.interval = some 1 → SkipsNothing raw fromDate completionDate rule base := by
  intro hall
  have hrule : normalizeRecurrence middleOfMonth = .ok { endOfMonthRule with monthDay := some 15 } := by
    decide +kernel
  have htext : baseOf { endOfMonthRule with monthDay := some 15 } "2026-01-10" "" = toDateOnly 20463 := by
    decide
  have hbase : Dated 20463 := by
    unfold Dated
    decide
  have hnext : nextOccurrence middleOfMonth "2026-01-10" "" = .ok (toDateOnly 20499) := by decide +kernel
  have hjanuary : InMonth 20468 24312 := by
    unfold InMonth
    decide
  have hskips := hall middleOfMonth "2026-01-10" "" _ 20463 hrule htext hbase rfl
  exact hskips 20499 (by decide) hnext 20468 (by decide) (by decide)
    ⟨15, 24312, rfl, hjanuary, by decide⟩

end ShishiTodo.Recurring
