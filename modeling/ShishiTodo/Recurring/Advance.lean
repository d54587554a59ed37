import ShishiTodo.Recurring.Searches

/-!
# The next occurrence comes later and follows the rule

`nextOccurrence` on an accepted rule and the text of a day. A monthly or yearly rule may name a day that none of the months it looks at has, and then it gives up with an error; everywhere else it returns a later date that follows the rule, as long as the calendar has four digits for the year.
-/

namespace ShishiTodo.Recurring

open Lib Lib.Calendar Native

/-! ### Accepted rules -/

/-- What `normalizeRecurrence` sees to. -/
structure Regular (rule : Recurrence) : Prop where
  interval : ∀ interval, rule.interval = some interval → 1 ≤ interval ∧ interval ≤ 365
  weekdays : rule.frequency = some .weekly → ∃ days, rule.weekdays = some days ∧ days ≠ [] ∧
    (∀ day ∈ days, 1 ≤ day ∧ day ≤ 7) ∧ days.Pairwise (· ≤ ·)
  monthDay : rule.frequency = some .monthly ∨ rule.frequency = some .yearly →
    ∃ number, rule.monthDay = some number ∧ 1 ≤ number ∧ number ≤ 31
  month : rule.frequency = some .yearly → ∃ inYear, rule.month = some inYear ∧ 1 ≤ inYear ∧ inYear ≤ 12

theorem intervalOf_bounds {rule : Json} {interval : Int} (h : intervalOf rule = some interval) :
    1 ≤ interval ∧ interval ≤ 365 := by
  unfold intervalOf at h
  split at h
  · cases h
    decide
  · obtain ⟨value, -, rfl⟩ := Option.map_eq_some_iff.mp h
    omega

theorem weekdaysOf_spec {rule : Json} {days : List Int} (h : weekdaysOf rule = .ok days) :
    days ≠ [] ∧ (∀ day ∈ days, 1 ≤ day ∧ day ≤ 7) ∧ days.Pairwise (· ≤ ·) := by
  unfold weekdaysOf at h
  obtain ⟨_, hsome, h⟩ := bind_eq_ok_iff.mp h
  rw [refuseIf_eq_ok_iff] at hsome
  cases h
  refine ⟨fun hnone => hsome (List.isEmpty_iff.mpr hnone), fun day hday => ?_, ?_⟩
  · have hmember := (List.mem_insertionSort _).mp hday
    exact of_decide_eq_true (List.mem_filter.mp hmember).2
  · exact List.pairwise_insertionSort _ _

theorem calendarNumber_spec {rule : Json} {field message : String} {last number : Int} (hlast : 1 ≤ last)
    (h : calendarNumber rule field last message = .ok number) : 1 ≤ number ∧ number ≤ last := by
  unfold calendarNumber at h
  split at h
  · cases h
    exact ⟨Int.le_refl 1, hlast⟩
  · split at h
    · rename_i value hvalue
      cases h
      have hrange := (Option.filter_eq_some_iff.mp hvalue).2
      exact of_decide_eq_true hrange
    · cases h

theorem regular_of_normalize {raw : Json} {rule : Recurrence} (h : normalizeRecurrence raw = .ok rule) :
    Regular rule := by
  have hinterval : ∀ interval, intervalOf raw = some interval → 1 ≤ interval ∧ interval ≤ 365 :=
    fun interval hsome => intervalOf_bounds hsome
  unfold normalizeRecurrence at h
  cases hfrequency : frequencyOf raw with
  | none =>
      simp only [hfrequency] at h
      cases h
      exact ⟨hinterval, nofun, fun hno => hno.elim nofun nofun, nofun⟩
  | some frequency =>
      simp only [hfrequency] at h
      cases frequency with
      | daily =>
          cases h
          exact ⟨hinterval, nofun, fun hno => hno.elim nofun nofun, nofun⟩
      | weekdays =>
          cases h
          exact ⟨hinterval, nofun, fun hno => hno.elim nofun nofun, nofun⟩
      | weekly =>
          obtain ⟨days, hdays, h⟩ := bind_eq_ok_iff.mp h
          cases h
          exact ⟨hinterval, fun _ => ⟨days, rfl, weekdaysOf_spec hdays⟩,
            fun hno => hno.elim nofun nofun, nofun⟩
      | monthly =>
          obtain ⟨number, hnumber, h⟩ := bind_eq_ok_iff.mp h
          cases h
          exact ⟨hinterval, nofun,
            fun _ => ⟨number, rfl, calendarNumber_spec (by decide) hnumber⟩, nofun⟩
      | yearly =>
          obtain ⟨number, hnumber, h⟩ := bind_eq_ok_iff.mp h
          obtain ⟨inYear, hinYear, h⟩ := bind_eq_ok_iff.mp h
          cases h
          exact ⟨hinterval, nofun,
            fun _ => ⟨number, rfl, calendarNumber_spec (by decide) hnumber⟩,
            fun _ => ⟨inYear, rfl, calendarNumber_spec (by decide) hinYear⟩⟩

/-! ### Following a rule -/

/-- The Monday-based week of a day. -/
def week (day : Int) : Int := (day + 3) / 7

/-- `next` is a date that the rule allows after `base`. -/
def Follows (rule : Recurrence) (base next : Int) : Prop :=
  match rule.frequency with
  | some .daily => ∃ interval, rule.interval = some interval ∧ next = base + interval
  | some .weekdays => FirstWorkday (base + 1) next
  | some .weekly => (∃ days, rule.weekdays = some days ∧ weekday next ∈ days) ∧
      (week next = week base ∨ ∃ interval, rule.interval = some interval ∧ week next = week base + interval)
  | some .monthly => ∃ interval number month, ∃ k : Nat, rule.interval = some interval ∧
      rule.monthDay = some number ∧ InMonth base month ∧ 0 < k ∧
      InMonth next (month + k * interval) ∧ next = monthStart (month + k * interval) + number - 1
  | some .yearly => ∃ interval number inYear month, ∃ k : Nat, rule.interval = some interval ∧
      rule.monthDay = some number ∧ rule.month = some inYear ∧ InMonth base month ∧ 0 < k ∧
      InMonth next (12 * (month / 12 + k * interval) + inYear - 1) ∧
      next = monthStart (12 * (month / 12 + k * interval) + inYear - 1) + number - 1
  | none => False

/-- The occurrence that is returned is a later date that follows the rule. -/
def Advances (raw : Json) (fromDate completionDate : String) (rule : Recurrence) (base : Int) : Prop :=
  ∃ next, nextOccurrence raw fromDate completionDate = .ok (toDateOnly next) ∧ Dated next ∧
    base < next ∧ Follows rule base next

/-- The dates that the rule allows are not all out of reach: of the months, or years, that the search looks at one has the day, and none of the four-digit years is left. -/
def InReach (rule : Recurrence) (base : Int) : Prop :=
  match rule.frequency with
  | some .daily => ∃ interval, rule.interval = some interval ∧ Dated (base + interval)
  | some .weekdays => Dated (base + 1)
  | some .weekly => ∃ days, rule.weekdays = some days ∧ ∃ day ∈ days,
      weekday base < day ∧ Dated (base + (day - weekday base)) ∨
        ∃ interval, rule.interval = some interval ∧ Dated (base + (7 * interval - weekday base + day))
  | some .monthly => ∃ interval number month, rule.interval = some interval ∧
      rule.monthDay = some number ∧ InMonth base month ∧
      ∃ k ≤ 120, 0 < k ∧ MonthHas number interval month k ∧ month + k * interval < 120000
  | some .yearly => ∃ interval number inYear month, rule.interval = some interval ∧
      rule.monthDay = some number ∧ rule.month = some inYear ∧ InMonth base month ∧
      ∃ k ≤ 400, 0 < k ∧ YearHas number interval inYear (month / 12) k ∧ month / 12 + k * interval < 10000
  | none => False

/-! ### Weeks -/

theorem weekday_add (base : Int) {day : Int} (h : 1 ≤ day ∧ day ≤ 7) (weeks : Int) :
    weekday (base + (7 * weeks - weekday base + day)) = day ∧
      week (base + (7 * weeks - weekday base + day)) = week base + weeks := by
  simp only [weekday, week]
  omega

theorem weekday_bounds (day : Int) : 1 ≤ weekday day ∧ weekday day ≤ 7 := by
  simp only [weekday]
  omega

/-- The next chosen day of the week, or the first one of a later week. -/
theorem nextWeekly_spec {base : Int} (hbase : Dated base) {days : List Int} (hsome : days ≠ [])
    (hsorted : days.Pairwise (· ≤ ·)) (interval : Option Int) :
    (∃ day ∈ days, weekday base < day ∧ (∀ other ∈ days, weekday base < other → day ≤ other) ∧
      nextWeekly days interval (toDateOnly base) = .ok (toDateOnly (base + (day - weekday base)))) ∨
    (∀ day ∈ days, day ≤ weekday base) ∧ ∃ first ∈ days, (∀ day ∈ days, first ≤ day) ∧
      nextWeekly days interval (toDateOnly base) = .ok (interval.elim notADate fun interval =>
        toDateOnly (base + (7 * interval - weekday base + first))) := by
  have hread : nextWeekly days interval (toDateOnly base) =
      (days.find? fun day => weekday base < day).elim
        (addDays (toDateOnly base) (interval.bind fun interval =>
          days.head?.map fun first => 7 * interval - weekday base + first))
        fun next => addDays (toDateOnly base) (some (next - weekday base)) := by
    unfold nextWeekly
    rw [weekdayIso_toDateOnly hbase]
    dsimp only [bind, Except.bind]
    cases days.find? fun day => weekday base < day <;> rfl
  rw [hread]
  clear hread
  cases hfind : days.find? fun day => weekday base < day with
  | some day =>
      obtain ⟨hlater, before, after, hsplit, hbefore⟩ := List.find?_eq_some_iff_append.mp hfind
      refine .inl ⟨day, ?_, of_decide_eq_true hlater, fun other hother hless => ?_, ?_⟩
      · rw [hsplit]
        exact List.mem_append_right _ List.mem_cons_self
      · rw [hsplit, List.mem_append, List.mem_cons] at hother
        rcases hother with hearlier | rfl | hrest
        · have hnot := hbefore other hearlier
          rw [decide_eq_true hless] at hnot
          cases hnot
        · exact Int.le_refl _
        · rw [hsplit] at hsorted
          exact (List.pairwise_cons.mp (List.pairwise_append.mp hsorted).2.1).1 other hrest
      · exact addDays_toDateOnly hbase _
  | none =>
      obtain ⟨first, rest, rfl⟩ := List.exists_cons_of_ne_nil hsome
      refine .inr ⟨fun day hday => ?_, first, List.mem_cons_self, fun day hday => ?_, ?_⟩
      · have hnot := List.find?_eq_none.mp hfind day hday
        rw [decide_eq_true_eq] at hnot
        omega
      · rcases List.mem_cons.mp hday with rfl | hrest
        · exact Int.le_refl _
        · exact (List.pairwise_cons.mp hsorted).1 day hrest
      · cases interval with
        | none =>
            simp only [Option.bind_none, Option.elim_none]
            exact addDays_nan hbase
        | some interval =>
            simp only [Option.bind_some, List.head?_cons, Option.map_some, Option.elim_some]
            exact addDays_toDateOnly hbase _

/-! ### All rules -/

section

variable {raw : Json} {fromDate completionDate : String} {rule : Recurrence} {base : Int}

/-- `rule.anchorMode === 'completion' && completionDate ? completionDate : fromDate`. -/
def baseOf (rule : Recurrence) (fromDate completionDate : String) : String :=
  if rule.fromCompletion && !completionDate.isEmpty then completionDate else fromDate

/-- After the rule is accepted the frequency decides. -/
theorem nextOccurrence_eq (hrule : normalizeRecurrence raw = .ok rule) :
    nextOccurrence raw fromDate completionDate =
      match rule.frequency with
      | some .daily => addDays (baseOf rule fromDate completionDate) rule.interval
      | some .weekdays => do
          let candidate ← addDays (baseOf rule fromDate completionDate) (some 1)
          nextWeekday 366 candidate
      | some .weekly => do
          let weekdays ← match rule.weekdays with
            | some weekdays => .ok weekdays
            | none => (weekdayIso (baseOf rule fromDate completionDate)).map fun day => [day]
          nextWeekly weekdays rule.interval (baseOf rule fromDate completionDate)
      | some .monthly => nextMonthly
          (rule.monthDay.or (numberAt (baseOf rule fromDate completionDate) 8 2)) rule.interval 120
          (baseOf rule fromDate completionDate)
      | some .yearly =>
          match rule.month.or (numberAt (baseOf rule fromDate completionDate) 5 2),
              rule.monthDay.or (numberAt (baseOf rule fromDate completionDate) 8 2),
              rule.interval, numberAt (baseOf rule fromDate completionDate) 0 4 with
          | some month, some day, some interval, some year =>
              nextYearly month day interval 400 (year + interval)
          | _, _, _, _ => .error (.invalidRecurrence "Unable to find a yearly occurrence")
      | none => .error (.invalidDate "undefined") := by
  unfold nextOccurrence
  rw [hrule]
  rfl

/-- No month, or year, that the search looks at has the day. -/
def OutOfReach (rule : Recurrence) (base : Int) : Prop :=
  match rule.frequency with
  | some .monthly => ∃ interval number month, rule.interval = some interval ∧
      rule.monthDay = some number ∧ InMonth base month ∧
      ∀ k, 0 < k → k ≤ 120 → ¬ MonthHas number interval month k
  | some .yearly => ∃ interval number inYear month, rule.interval = some interval ∧
      rule.monthDay = some number ∧ rule.month = some inYear ∧ InMonth base month ∧
      ∀ k, 0 < k → k ≤ 400 → ¬ YearHas number interval inYear (month / 12) k
  | _ => False

variable (hrule : normalizeRecurrence raw = .ok rule)
  (htext : baseOf rule fromDate completionDate = toDateOnly base) (hbase : Dated base)

include hrule htext hbase

theorem advances_daily (hfrequency : rule.frequency = some .daily) (h : InReach rule base) :
    Advances raw fromDate completionDate rule base := by
  unfold InReach at h
  rw [hfrequency] at h
  obtain ⟨interval, hinterval, hdated⟩ := h
  have hpos := (regular_of_normalize hrule).interval interval hinterval
  refine ⟨base + interval, ?_, hdated, by omega, ?_⟩
  · rw [nextOccurrence_eq hrule, hfrequency, htext, hinterval]
    exact addDays_toDateOnly hbase interval
  · unfold Follows
    rw [hfrequency]
    exact ⟨interval, hinterval, rfl⟩

theorem advances_weekdays (hfrequency : rule.frequency = some .weekdays) (h : InReach rule base) :
    Advances raw fromDate completionDate rule base := by
  unfold InReach at h
  rw [hfrequency] at h
  obtain ⟨next, hnext, hfirst, hdated⟩ := nextWeekday_spec h
  have hlater := hfirst.1
  refine ⟨next, ?_, hdated, by omega, ?_⟩
  · rw [nextOccurrence_eq hrule, hfrequency, htext]
    simp only
    rw [addDays_toDateOnly hbase, ok_bind]
    exact hnext
  · unfold Follows
    rw [hfrequency]
    exact hfirst

theorem advances_weekly (hfrequency : rule.frequency = some .weekly) (h : InReach rule base) :
    Advances raw fromDate completionDate rule base := by
  obtain ⟨days, hdays, hsome, hrange, hsorted⟩ := (regular_of_normalize hrule).weekdays hfrequency
  have hweek := weekday_bounds base
  have hread : nextOccurrence raw fromDate completionDate =
      nextWeekly days rule.interval (toDateOnly base) := by
    rw [nextOccurrence_eq hrule, hfrequency, htext, hdays]
    simp only [ok_bind]
  unfold InReach at h
  rw [hfrequency] at h
  obtain ⟨_, hsame, chosen, hchosen, hreach⟩ := h
  obtain rfl := Option.some.inj (hdays.symm.trans hsame)
  rcases nextWeekly_spec hbase hsome hsorted rule.interval with
    ⟨day, hday, hlater, hleast, hnext⟩ | ⟨hnone, first, hfirst, hleast, hnext⟩
  · -- A chosen day comes later in the same week.
    obtain ⟨hweekday, hsameWeek⟩ := weekday_add base (hrange day hday) 0
    have hsum : base + (7 * 0 - weekday base + day) = base + (day - weekday base) := by omega
    rw [hsum] at hweekday hsameWeek
    have hdated : Dated (base + (day - weekday base)) := by
      obtain ⟨hlow, -⟩ := hbase
      have hpast : ∃ reached, Dated reached ∧ base + (day - weekday base) ≤ reached := by
        rcases hreach with ⟨hless, hdated⟩ | ⟨interval, hinterval, hdated⟩
        · exact ⟨_, hdated, by have := hleast chosen hchosen hless; omega⟩
        · have hpos := (regular_of_normalize hrule).interval interval hinterval
          have hone := hrange chosen hchosen
          have hseven := hrange day hday
          exact ⟨_, hdated, by omega⟩
      obtain ⟨reached, ⟨-, hhigh⟩, hle⟩ := hpast
      exact ⟨by omega, by omega⟩
    refine ⟨base + (day - weekday base), hread.trans hnext, hdated, by omega, ?_⟩
    unfold Follows
    rw [hfrequency]
    refine ⟨⟨days, hdays, ?_⟩, .inl ?_⟩
    · rw [hweekday]
      exact hday
    · omega
  · -- None does: the first chosen day of a later week.
    rcases hreach with ⟨hless, -⟩ | ⟨interval, hinterval, hdated⟩
    · have hnot := hnone chosen hchosen
      omega
    · have hpos := (regular_of_normalize hrule).interval interval hinterval
      have hone := hrange first hfirst
      obtain ⟨hweekday, hlaterWeek⟩ := weekday_add base hone interval
      simp only [hinterval, Option.elim_some] at hnext hread
      refine ⟨base + (7 * interval - weekday base + first), hread.trans hnext, ?_, by omega, ?_⟩
      · have hle := hleast chosen hchosen
        obtain ⟨hlow, hhigh⟩ := hdated
        obtain ⟨hfirstDay, -⟩ := hbase
        exact ⟨by omega, by omega⟩
      · unfold Follows
        rw [hfrequency]
        refine ⟨⟨days, hdays, ?_⟩, .inr ⟨interval, hinterval, hlaterWeek⟩⟩
        rw [hweekday]
        exact hfirst

theorem nextOccurrence_monthly (hfrequency : rule.frequency = some .monthly) {interval number month : Int}
    (hinterval : rule.interval = some interval) (hnumber : rule.monthDay = some number)
    (hmonth : InMonth base month) :
    (∃ k ≤ 120, FirstAfter (MonthHas number interval month) 0 k ∧
      nextOccurrence raw fromDate completionDate =
        .ok (toDateOnly (monthStart (month + k * interval) + number - 1))) ∨
      (∀ k, 0 < k → k ≤ 120 → ¬ MonthHas number interval month k) ∧
        nextOccurrence raw fromDate completionDate =
          .error (.invalidRecurrence "Unable to find a monthly occurrence") := by
  obtain ⟨_, hsame, hone, -⟩ := (regular_of_normalize hrule).monthDay (.inl hfrequency)
  obtain rfl := Option.some.inj (hnumber.symm.trans hsame)
  have hbounds := (regular_of_normalize hrule).interval interval hinterval
  have hread : nextOccurrence raw fromDate completionDate =
      nextMonthly (some number) (some interval) 120 (toDateOnly base) := by
    rw [nextOccurrence_eq hrule, hfrequency, htext, hnumber, hinterval]
    simp only [Option.some_or]
  rw [hread]
  exact nextMonthly_spec hone hbounds hmonth ((dated_iff hmonth).mp hbase)

theorem nextOccurrence_yearly (hfrequency : rule.frequency = some .yearly)
    {interval number inYear month : Int} (hinterval : rule.interval = some interval)
    (hnumber : rule.monthDay = some number) (hinYear : rule.month = some inYear)
    (hmonth : InMonth base month) :
    (∃ k ≤ 400, FirstAfter (YearHas number interval inYear (month / 12)) 0 k ∧
      nextOccurrence raw fromDate completionDate =
        .ok (toDateOnly (monthStart (12 * (month / 12 + k * interval) + inYear - 1) + number - 1))) ∨
      (∀ k, 0 < k → k ≤ 400 → ¬ YearHas number interval inYear (month / 12) k) ∧
        nextOccurrence raw fromDate completionDate =
          .error (.invalidRecurrence "Unable to find a yearly occurrence") := by
  obtain ⟨_, hsame, hone, -⟩ := (regular_of_normalize hrule).monthDay (.inr hfrequency)
  obtain ⟨_, hsameMonth, hrange⟩ := (regular_of_normalize hrule).month hfrequency
  obtain rfl := Option.some.inj (hnumber.symm.trans hsame)
  obtain rfl := Option.some.inj (hinYear.symm.trans hsameMonth)
  have hbounds := (regular_of_normalize hrule).interval interval hinterval
  obtain ⟨hlow, hhigh⟩ := (dated_iff hmonth).mp hbase
  have hread : nextOccurrence raw fromDate completionDate =
      nextYearly inYear number interval 400 (month / 12 + interval) := by
    rw [nextOccurrence_eq hrule, hfrequency, htext, hnumber, hinYear, hinterval,
      numberAt_year hmonth ⟨hlow, hhigh⟩]
    simp only [Option.some_or]
  rw [hread]
  exact nextYearly_spec hone hbounds hrange (by omega)

theorem advances_monthly (hfrequency : rule.frequency = some .monthly) (h : InReach rule base) :
    Advances raw fromDate completionDate rule base := by
  unfold InReach at h
  rw [hfrequency] at h
  obtain ⟨interval, number, month, hinterval, hnumber, hmonth, k, hle, hpos, hhas, hlast⟩ := h
  obtain ⟨_, hsame, hone, -⟩ := (regular_of_normalize hrule).monthDay (.inl hfrequency)
  obtain rfl := Option.some.inj (hnumber.symm.trans hsame)
  have hbounds := (regular_of_normalize hrule).interval interval hinterval
  obtain ⟨hlow, -⟩ := (dated_iff hmonth).mp hbase
  rcases nextOccurrence_monthly hrule htext hbase hfrequency hinterval hnumber hmonth with
    ⟨first, -, ⟨hfirst, hfits, hbefore⟩, hnext⟩ | ⟨hnone, -⟩
  · have hearlier : first ≤ k := by
      by_contra hlate
      exact hbefore k hpos (by omega) hhas
    have hreached : InMonth (monthStart (month + first * interval) + number - 1) (month + first * interval) :=
      inMonth_iff.mpr ⟨number, hone, hfits, rfl⟩
    have hstep := multiple_mono hbounds.1 hearlier
    have hforward := le_multiple hbounds.1 hfirst
    refine ⟨_, hnext, (dated_iff hreached).mpr ⟨by omega, by omega⟩,
      hmonth.lt hreached (by omega), ?_⟩
    unfold Follows
    rw [hfrequency]
    exact ⟨interval, number, month, first, hinterval, hnumber, hmonth, hfirst, hreached, rfl⟩
  · exact absurd hhas (hnone k hpos hle)

theorem advances_yearly (hfrequency : rule.frequency = some .yearly) (h : InReach rule base) :
    Advances raw fromDate completionDate rule base := by
  unfold InReach at h
  rw [hfrequency] at h
  obtain ⟨interval, number, inYear, month, hinterval, hnumber, hinYear, hmonth, k, hle, hpos, hhas,
    hlast⟩ := h
  obtain ⟨_, hsame, hone, -⟩ := (regular_of_normalize hrule).monthDay (.inr hfrequency)
  obtain ⟨_, hsameMonth, hrange⟩ := (regular_of_normalize hrule).month hfrequency
  obtain rfl := Option.some.inj (hnumber.symm.trans hsame)
  obtain rfl := Option.some.inj (hinYear.symm.trans hsameMonth)
  have hbounds := (regular_of_normalize hrule).interval interval hinterval
  obtain ⟨hlow, -⟩ := (dated_iff hmonth).mp hbase
  rcases nextOccurrence_yearly hrule htext hbase hfrequency hinterval hnumber hinYear hmonth with
    ⟨first, -, ⟨hfirst, hfits, hbefore⟩, hnext⟩ | ⟨hnone, -⟩
  · have hearlier : first ≤ k := by
      by_contra hlate
      exact hbefore k hpos (by omega) hhas
    have hreached : InMonth (monthStart (12 * (month / 12 + first * interval) + inYear - 1) + number - 1)
        (12 * (month / 12 + first * interval) + inYear - 1) :=
      inMonth_iff.mpr ⟨number, hone, hfits, rfl⟩
    have hstep := multiple_mono hbounds.1 hearlier
    have hforward := le_multiple hbounds.1 hfirst
    refine ⟨_, hnext, (dated_iff hreached).mpr ⟨by omega, by omega⟩,
      hmonth.lt hreached (by omega), ?_⟩
    unfold Follows
    rw [hfrequency]
    exact ⟨interval, number, inYear, month, first, hinterval, hnumber, hinYear, hmonth, hfirst, hreached, rfl⟩
  · exact absurd hhas (hnone k hpos hle)

theorem advances_of_inReach (h : InReach rule base) : Advances raw fromDate completionDate rule base := by
  cases hfrequency : rule.frequency with
  | none =>
      unfold InReach at h
      rw [hfrequency] at h
      exact h.elim
  | some frequency =>
      cases frequency with
      | daily => exact advances_daily hrule htext hbase hfrequency h
      | weekdays => exact advances_weekdays hrule htext hbase hfrequency h
      | weekly => exact advances_weekly hrule htext hbase hfrequency h
      | monthly => exact advances_monthly hrule htext hbase hfrequency h
      | yearly => exact advances_yearly hrule htext hbase hfrequency h

theorem throws_of_outOfReach (h : OutOfReach rule base) :
    ∃ message, nextOccurrence raw fromDate completionDate = .error (.invalidRecurrence message) := by
  unfold OutOfReach at h
  split at h
  · rename_i hfrequency
    obtain ⟨interval, number, month, hinterval, hnumber, hmonth, hnone⟩ := h
    rcases nextOccurrence_monthly hrule htext hbase hfrequency hinterval hnumber hmonth with
      ⟨k, hle, ⟨hpos, hhas, -⟩, -⟩ | ⟨-, herror⟩
    · exact absurd hhas (hnone k hpos hle)
    · exact ⟨_, herror⟩
  · rename_i hfrequency
    obtain ⟨interval, number, inYear, month, hinterval, hnumber, hinYear, hmonth, hnone⟩ := h
    rcases nextOccurrence_yearly hrule htext hbase hfrequency hinterval hnumber hinYear hmonth with
      ⟨k, hle, ⟨hpos, hhas, -⟩, -⟩ | ⟨-, herror⟩
    · exact absurd hhas (hnone k hpos hle)
    · exact ⟨_, herror⟩
  · exact h.elim

end

/-- An accepted rule is followed from every date, unless the months or years that are searched do not have its day; then there is an error. -/
theorem nextOccurrence_advances {raw : Json} {fromDate completionDate : String} {rule : Recurrence}
    {base : Int} (hrule : normalizeRecurrence raw = .ok rule)
    (htext : baseOf rule fromDate completionDate = toDateOnly base) (hbase : Dated base) :
    (InReach rule base → Advances raw fromDate completionDate rule base) ∧
      (OutOfReach rule base →
        ∃ message, nextOccurrence raw fromDate completionDate = .error (.invalidRecurrence message)) :=
  ⟨advances_of_inReach hrule htext hbase, throws_of_outOfReach hrule htext hbase⟩

def endOfMonth : Json := .obj [("frequency", .str "monthly"), ("monthDay", .num "31")]

def endOfMonthRule : Recurrence where
  frequency := some .monthly
  interval := some 1
  weekdays := none
  monthDay := some 31
  month := none
  fromCompletion := false

/-- From the end of January to the end of March. -/
theorem nextOccurrence_advances_march : Advances endOfMonth "2026-01-31" "" endOfMonthRule 20484 := by
  have hrule : normalizeRecurrence endOfMonth = .ok endOfMonthRule := by decide +kernel
  have htext : baseOf endOfMonthRule "2026-01-31" "" = toDateOnly 20484 := by decide
  have hbase : Dated 20484 := by
    unfold Dated
    decide
  refine (nextOccurrence_advances hrule htext hbase).1 ⟨1, 31, 24312, rfl, rfl, ?_, 2, ?_⟩
  · unfold InMonth
    decide
  · unfold MonthHas
    decide

def thirtiethOfFebruary : Json :=
  .obj [("frequency", .str "yearly"), ("month", .num "2"), ("monthDay", .num "30")]

def thirtiethOfFebruaryRule : Recurrence where
  frequency := some .yearly
  interval := some 1
  weekdays := none
  monthDay := some 30
  month := some 2
  fromCompletion := false

/-- February is never long enough. -/
theorem nextOccurrence_refuses_february :
    ¬ ∀ (raw : Json) (fromDate completionDate : String) (rule : Recurrence) (base : Int),
      normalizeRecurrence raw = .ok rule → baseOf rule fromDate completionDate = toDateOnly base →
      Dated base → Advances raw fromDate completionDate rule base := by
  intro hall
  have hrule : normalizeRecurrence thirtiethOfFebruary = .ok thirtiethOfFebruaryRule := by decide +kernel
  have htext : baseOf thirtiethOfFebruaryRule "2026-01-31" "" = toDateOnly 20484 := by decide
  have hbase : Dated 20484 := by
    unfold Dated
    decide
  have hmonth : InMonth 20484 24312 := by
    unfold InMonth
    decide
  have hnever : OutOfReach thirtiethOfFebruaryRule 20484 := by
    refine ⟨1, 30, 2, 24312, rfl, rfl, rfl, hmonth, fun k _ _ hhas => ?_⟩
    have hfebruary : (12 * (24312 / 12 + (k : Int) * 1) + 2 - 1) % 12 = 1 := by omega
    rw [YearHas, monthLength, if_pos hfebruary] at hhas
    split at hhas <;> omega
  obtain ⟨message, herror⟩ := throws_of_outOfReach hrule htext hbase hnever
  obtain ⟨next, hnext, -⟩ := hall thirtiethOfFebruary "2026-01-31" "" thirtiethOfFebruaryRule 20484
    hrule htext hbase
  rw [herror] at hnext
  cases hnext

end ShishiTodo.Recurring
