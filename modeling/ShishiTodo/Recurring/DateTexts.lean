import ShishiTodo.Recurring.Calendar

/-!
# Dates as texts

A text that `isDateOnly` accepts is the one that `toDateOnly` gives for its day, and its parts are the fields of the day.
-/

namespace ShishiTodo.Recurring

open Lib Lib.Calendar

/-! ### Padded numbers -/

theorem padStart_toList (width n : Nat) :
    (padStart width (toString (n : Int))).toList
      = List.replicate (width - (Nat.toDigits 10 n).length) '0' ++ Nat.toDigits 10 n := by
  have htext : toString (n : Int) = String.ofList (Nat.toDigits 10 n) := rfl
  rw [padStart, htext, String.toList_ofList, String.toList_ofList, String.length_ofList]

theorem digitChar_eq {n : Nat} (h : n < 10) : Codecs.digitChar n = n.digitChar := by
  interval_cases n <;> rfl

theorem digitChars_zero (width : Nat) : Codecs.digitChars 10 width 0 = List.replicate width '0' := by
  induction width with
  | zero => rfl
  | succ width ih =>
      rw [Codecs.digitChars, ih, List.replicate_succ']
      rfl

theorem padded_eq_digitChars {width n : Nat} (h : n < 10 ^ (width + 1)) :
    List.replicate (width + 1 - (Nat.toDigits 10 n).length) '0' ++ Nat.toDigits 10 n
      = Codecs.digitChars 10 (width + 1) n := by
  induction width generalizing n with
  | zero =>
      have hdigit : n < 10 := by simpa using h
      rw [Nat.toDigits_of_lt_base hdigit, Codecs.digitChars, Nat.mod_eq_of_lt hdigit, digitChar_eq hdigit]
      rfl
  | succ width ih =>
      have hlast : n % 10 < 10 := Nat.mod_lt n (by decide)
      rw [Codecs.digitChars, digitChar_eq hlast]
      rcases Nat.lt_or_ge n 10 with hdigit | hmore
      · rw [Nat.toDigits_of_lt_base hdigit, Nat.div_eq_of_lt hdigit, digitChars_zero,
          Nat.mod_eq_of_lt hdigit]
        rfl
      · have hquotient : n / 10 < 10 ^ (width + 1) := Nat.div_lt_of_lt_mul (by rwa [Nat.pow_succ'] at h)
        rw [Nat.toDigits_of_base_le (by decide) hmore, ← ih hquotient, List.length_append,
          List.length_singleton, Nat.add_sub_add_right, List.append_assoc]

theorem padStart_eq_digitChars {width n : Nat} (h : n < 10 ^ (width + 1)) :
    (padStart (width + 1) (toString (n : Int))).toList = Codecs.digitChars 10 (width + 1) n := by
  rw [padStart_toList, padded_eq_digitChars h]

theorem isDigit_of_mem_padStart {width n : Nat} {c : Char}
    (hc : c ∈ (padStart width (toString (n : Int))).toList) : isDigit c = true := by
  rw [padStart_toList, List.mem_append] at hc
  rcases hc with hzero | hdigit
  · rw [List.eq_of_mem_replicate hzero]
    decide
  · have hchar := Nat.isDigit_of_mem_toDigits (by decide) (by decide) hdigit
    simp only [Char.isDigit, Bool.and_eq_true, decide_eq_true_eq] at hchar
    simp only [isDigit, Bool.and_eq_true, decide_eq_true_eq]
    exact hchar

/-- A padded number is read back. -/
theorem jsNumber_padStart (width n : Nat) :
    jsNumber (padStart width (toString (n : Int))).toList = some (n : Int) := by
  have hall : (padStart width (toString (n : Int))).toList.all isDigit = true :=
    List.all_eq_true.mpr fun c hc => isDigit_of_mem_padStart hc
  rw [jsNumber, if_pos hall, padStart_toList, Nat.ofDigitChars_append,
    Nat.ofDigitChars_replicate_zero, Nat.mul_zero, Nat.ofDigitChars_ten_toDigits]

/-! ### The text of a date -/

theorem spelled_toList (year month day : Nat) :
    (spelled year month day).toList = (padStart 4 (toString (year : Int))).toList ++
      '-' :: ((padStart 2 (toString (month : Int))).toList ++
        '-' :: (padStart 2 (toString (day : Int))).toList) := by
  simp [spelled, toString]

theorem hyphen_not_mem_padStart (width n : Nat) :
    '-' ∉ (padStart width (toString (n : Int))).toList :=
  fun hmem => absurd (isDigit_of_mem_padStart hmem) (by decide)

theorem dateNumbers_spelled (year month day : Nat) :
    dateNumbers (spelled year month day) = [some (year : Int), some (month : Int), some (day : Int)] := by
  have hparts : (spelled year month day).toList = ['-'].intercalate
      [(padStart 4 (toString (year : Int))).toList, (padStart 2 (toString (month : Int))).toList,
        (padStart 2 (toString (day : Int))).toList] := by
    rw [spelled_toList]
    simp [List.intercalate]
  rw [dateNumbers, hparts, List.splitOn_intercalate]
  · simp only [List.map_cons, List.map_nil, jsNumber_padStart]
  · intro part hpart
    simp only [List.mem_cons, List.not_mem_nil, or_false] at hpart
    rcases hpart with hyear | hmonth | hday
    · rw [hyear]
      exact hyphen_not_mem_padStart 4 year
    · rw [hmonth]
      exact hyphen_not_mem_padStart 2 month
    · rw [hday]
      exact hyphen_not_mem_padStart 2 day
  · exact List.cons_ne_nil _ _

theorem readDate_digitChars {year month day : Nat} (hyear : year < 10000) (hmonth : month < 100)
    (hday : day < 100) :
    Codecs.readDate (Codecs.digitChars 10 4 year ++
        '-' :: (Codecs.digitChars 10 2 month ++ '-' :: Codecs.digitChars 10 2 day)) =
      if Codecs.civil ⟨Codecs.daysFromCivil year month day⟩ = ((year : Int), month, day) then
        some ⟨Codecs.daysFromCivil year month day⟩
      else none := by
  have hread : ∀ width n, n < 10 ^ width →
      Codecs.readDigits 10 (Codecs.digitChars 10 width n) = some n := by
    intro width n hn
    rw [Codecs.readDigits_digitChars (by decide) (by decide), Nat.mod_eq_of_lt hn]
  have hy := hread 4 year hyear
  have hm := hread 2 month hmonth
  have hd := hread 2 day hday
  obtain ⟨y₁, y₂, y₃, y₄, hyears⟩ : ∃ y₁ y₂ y₃ y₄, Codecs.digitChars 10 4 year = [y₁, y₂, y₃, y₄] :=
    ⟨_, _, _, _, rfl⟩
  obtain ⟨m₁, m₂, hmonths⟩ : ∃ m₁ m₂, Codecs.digitChars 10 2 month = [m₁, m₂] := ⟨_, _, rfl⟩
  obtain ⟨d₁, d₂, hdays⟩ : ∃ d₁ d₂, Codecs.digitChars 10 2 day = [d₁, d₂] := ⟨_, _, rfl⟩
  rw [hyears] at hy
  rw [hmonths] at hm
  rw [hdays] at hd
  rw [hyears, hmonths, hdays]
  simp only [List.cons_append, List.nil_append, Codecs.readDate, hy, hm, hd, Option.bind_eq_bind,
    Option.bind_some]

theorem spelled_eq_digitChars {year month day : Nat} (hyear : year < 10000) (hmonth : month < 100)
    (hday : day < 100) :
    (spelled year month day).toList = Codecs.digitChars 10 4 year ++
      '-' :: (Codecs.digitChars 10 2 month ++ '-' :: Codecs.digitChars 10 2 day) := by
  rw [spelled_toList, padStart_eq_digitChars (show year < 10 ^ (3 + 1) from hyear),
    padStart_eq_digitChars (show month < 10 ^ (1 + 1) from hmonth),
    padStart_eq_digitChars (show day < 10 ^ (1 + 1) from hday)]

theorem digitChar_of_digitValue {c : Char} {digit : Nat} (h : Codecs.digitValue c = some digit)
    (hdigit : digit < 10) : c = Codecs.digitChar digit := by
  simp only [Codecs.digitValue] at h
  split at h
  · cases h
    rw [Codecs.digitChar, if_pos hdigit, Nat.add_sub_cancel' (by omega), Char.ofNat_toNat]
  · split at h
    · cases h
      omega
    · split at h
      · cases h
        omega
      · cases h

/-- Digits that are read are those of the number. -/
theorem digitChars_of_readDigits {chars : List Char} :
    ∀ {n : Nat}, Codecs.readDigits 10 chars = some n → chars = Codecs.digitChars 10 chars.length n := by
  induction chars using List.reverseRecOn with
  | nil => exact fun _ => rfl
  | append_singleton chars c ih =>
      intro n h
      obtain ⟨value, digit, hvalue, hdigit, hsmall, rfl⟩ := Codecs.readDigits_concat h
      have hquotient : (10 * value + digit) / 10 = value := by omega
      have hrest : (10 * value + digit) % 10 = digit := by omega
      rw [List.length_append, List.length_singleton, Codecs.digitChars, hquotient, hrest,
        ← ih hvalue, ← digitChar_of_digitValue hdigit hsmall]

/-- What is read as a date is spelled as `toDateOnly` spells it. -/
theorem eq_spelled_of_readDate {text : String} {date : NaiveDate}
    (h : Codecs.readDate text.toList = some date) :
    ∃ year month day : Nat, year < 10000 ∧ month < 100 ∧ day < 100 ∧
      Codecs.civil date = ((year : Int), month, day) ∧ date = ⟨Codecs.daysFromCivil year month day⟩ ∧
      text = spelled year month day := by
  generalize htext : text.toList = chars at h
  unfold Codecs.readDate at h
  split at h
  · obtain ⟨year, hyear, h⟩ := Option.bind_eq_some_iff.mp h
    obtain ⟨month, hmonth, h⟩ := Option.bind_eq_some_iff.mp h
    obtain ⟨day, hday, h⟩ := Option.bind_eq_some_iff.mp h
    have hyears := (Codecs.readDigits_sound hyear).2
    have hmonths := (Codecs.readDigits_sound hmonth).2
    have hdays := (Codecs.readDigits_sound hday).2
    have hyearChars := digitChars_of_readDigits hyear
    have hmonthChars := digitChars_of_readDigits hmonth
    have hdayChars := digitChars_of_readDigits hday
    simp only [List.length_cons, List.length_nil, Nat.zero_add, Nat.reduceAdd] at *
    split at h
    · rename_i hcivil
      cases h
      refine ⟨year, month, day, hyears, hmonths, hdays, hcivil, rfl, String.toList_inj.mp ?_⟩
      rw [spelled_eq_digitChars hyears hmonths hdays, ← hyearChars, ← hmonthChars, ← hdayChars, htext]
      rfl
    · cases h
  · cases h

/-! ### Days and their texts -/

/-- The months from January 100 to December 9999: the texts of other years are no dates. -/
def FourDigits (month : Int) : Prop := 1200 ≤ month ∧ month < 120000

section

variable {day month : Int}

theorem toDateOnly_eq (h : InMonth day month) (hmonth : 0 ≤ month) :
    toDateOnly day = spelled ((month / 12).toNat : Nat) ((month % 12).toNat + 1 : Nat)
      ((day - monthStart month + 1).toNat : Nat) := by
  have hyear : ((month / 12).toNat : Int) = month / 12 := Int.toNat_of_nonneg (by omega)
  simp only [toDateOnly, civil_eq h, hyear]

theorem dateNumbers_toDateOnly (h : InMonth day month) (hmonth : 0 ≤ month) :
    dateNumbers (toDateOnly day) =
      [some (month / 12), some (month % 12 + 1), some (day - monthStart month + 1)] := by
  have hfirst := h.1
  have hyear : ((month / 12).toNat : Int) = month / 12 := Int.toNat_of_nonneg (by omega)
  have hinYear : (((month % 12).toNat + 1 : Nat) : Int) = month % 12 + 1 := by omega
  have hinMonth : ((day - monthStart month + 1).toNat : Int) = day - monthStart month + 1 :=
    Int.toNat_of_nonneg (by omega)
  rw [toDateOnly_eq h hmonth, dateNumbers_spelled, hyear, hinYear, hinMonth]

/-- The text of a day up to the year 9999 is read back. -/
theorem readDate_toDateOnly (h : InMonth day month) (hmonth : 0 ≤ month) (hlast : month < 120000) :
    Codecs.readDate (toDateOnly day).toList = some ⟨day⟩ := by
  have hyear : ((month / 12).toNat : Int) = month / 12 := Int.toNat_of_nonneg (by omega)
  have hlength := monthLength_pos month
  have hinMonth : ((day - monthStart month + 1).toNat : Int) = day - monthStart month + 1 :=
    Int.toNat_of_nonneg (by have := h.1; omega)
  have hshort : (day - monthStart month + 1).toNat < 100 := by
    have := h.2
    rw [monthStart_succ] at this
    omega
  have hcount := daysFromCivil_eq month (day - monthStart month + 1).toNat
  have hday : monthStart month + (day - monthStart month + 1) - 1 = day := by omega
  rw [hinMonth, hday] at hcount
  rw [toDateOnly_eq h hmonth, spelled_eq_digitChars (by omega) (by omega) hshort,
    readDate_digitChars (by omega) (by omega) hshort, hyear, hcount, civil_eq h, if_pos rfl]

theorem readDate_toDateOnly_late (h : InMonth day month) (hlast : 120000 ≤ month) :
    Codecs.readDate (toDateOnly day).toList = none := by
  cases hread : Codecs.readDate (toDateOnly day).toList with
  | none => rfl
  | some date =>
      obtain ⟨year, number, inMonth, hyear, -, -, -, -, htext⟩ := eq_spelled_of_readDate hread
      have hnumbers := dateNumbers_toDateOnly h (by omega)
      rw [htext, dateNumbers_spelled] at hnumbers
      have hsame := Option.some.inj (List.cons.inj hnumbers).1
      omega

theorem firstDay_eq : Codecs.daysFromCivil 100 1 1 = monthStart 1200 := by
  decide

/-- Every text that `isDateOnly` accepts is the text of a day. -/
theorem day_of_isDateOnly {text : String} (h : Web.isDateOnly text = true) :
    ∃ day month, InMonth day month ∧ FourDigits month ∧ text = toDateOnly day := by
  obtain ⟨date, hread, hfirst⟩ := (Option.any_eq_true _ _).mp h
  obtain ⟨year, number, inMonth, hyear, -, -, hcivil, -, htext⟩ := eq_spelled_of_readDate hread
  obtain ⟨month, hmonth⟩ := exists_inMonth date.days
  refine ⟨date.days, month, hmonth, ⟨?_, ?_⟩, ?_⟩
  · rw [decide_eq_true_eq, firstDay_eq] at hfirst
    have hlate := monthStart_lt.mp (Int.lt_of_le_of_lt hfirst hmonth.2)
    omega
  · have hfields := civil_eq hmonth
    rw [hcivil] at hfields
    have hsame := congrArg Prod.fst hfields
    simp only at hsame
    omega
  · rw [htext, toDateOnly, hcivil]

theorem isDateOnly_toDateOnly (h : InMonth day month) (hfirst : 1200 ≤ month) :
    Web.isDateOnly (toDateOnly day) = true ↔ month < 120000 := by
  constructor
  · intro hvalid
    by_contra hlate
    rw [Web.isDateOnly, readDate_toDateOnly_late h (Int.not_lt.mp hlate)] at hvalid
    cases hvalid
  · intro hlast
    have hday : monthStart 1200 ≤ day := Int.le_trans (monthStart_le.mpr hfirst) h.1
    rw [Web.isDateOnly, readDate_toDateOnly h (by omega) hlast, Option.any_some, firstDay_eq]
    exact decide_eq_true hday

theorem parseDateOnly_toDateOnly (h : InMonth day month) (hmonth : FourDigits month) :
    parseDateOnly (toDateOnly day) = .ok day := by
  have hvalid := (isDateOnly_toDateOnly h hmonth.1).mpr hmonth.2
  have hpos : 0 ≤ month := Int.le_trans (by decide) hmonth.1
  rw [parseDateOnly, readDate_toDateOnly h hpos hmonth.2, Option.filter_some]
  simp only [hvalid, if_true]

theorem parseDateOnly_late (h : InMonth day month) (hlast : 120000 ≤ month) :
    parseDateOnly (toDateOnly day) = .error (.invalidDate (toDateOnly day)) := by
  rw [parseDateOnly, readDate_toDateOnly_late h hlast]
  rfl

end

/-- A day whose text is a date. -/
def Dated (day : Int) : Prop := monthStart 1200 ≤ day ∧ day < monthStart 120000

section

variable {day month : Int}

theorem dated_iff (h : InMonth day month) : Dated day ↔ FourDigits month := by
  constructor
  · rintro ⟨hfirst, hlast⟩
    have hlate := monthStart_lt.mp (Int.lt_of_le_of_lt hfirst h.2)
    have hearly := monthStart_lt.mp (Int.lt_of_le_of_lt h.1 hlast)
    exact ⟨by omega, hearly⟩
  · rintro ⟨hfirst, hlast⟩
    exact ⟨Int.le_trans (monthStart_le.mpr hfirst) h.1,
      Int.lt_of_lt_of_le h.2 (monthStart_le.mpr hlast)⟩

theorem Dated.inMonth (h : Dated day) : ∃ month, InMonth day month ∧ FourDigits month := by
  obtain ⟨month, hmonth⟩ := exists_inMonth day
  exact ⟨month, hmonth, (dated_iff hmonth).mp h⟩

theorem Dated.parse (h : Dated day) : parseDateOnly (toDateOnly day) = .ok day := by
  obtain ⟨month, hmonth, hyears⟩ := h.inMonth
  exact parseDateOnly_toDateOnly hmonth hyears

theorem isDateOnly_iff (text : String) :
    Web.isDateOnly text = true ↔ ∃ day, Dated day ∧ text = toDateOnly day := by
  constructor
  · intro h
    obtain ⟨day, month, hmonth, hyears, htext⟩ := day_of_isDateOnly h
    exact ⟨day, (dated_iff hmonth).mpr hyears, htext⟩
  · rintro ⟨day, hday, rfl⟩
    obtain ⟨month, hmonth, hyears⟩ := hday.inMonth
    exact (isDateOnly_toDateOnly hmonth hyears.1).mpr hyears.2

/-- After the year 9999 the text of a day is no date. -/
theorem parse_late (h : monthStart 120000 ≤ day) :
    parseDateOnly (toDateOnly day) = .error (.invalidDate (toDateOnly day)) := by
  obtain ⟨month, hmonth⟩ := exists_inMonth day
  have hlate := monthStart_lt.mp (Int.lt_of_le_of_lt h hmonth.2)
  exact parseDateOnly_late hmonth (by omega)

/-! ### Arithmetic -/

theorem addDays_toDateOnly (h : Dated day) (amount : Int) :
    addDays (toDateOnly day) (some amount) = .ok (toDateOnly (day + amount)) := by
  rw [addDays, h.parse]
  rfl

theorem addDays_nan (h : Dated day) : addDays (toDateOnly day) none = .ok notADate := by
  rw [addDays, h.parse]
  rfl

/-- Monday is 1 and Sunday is 7. -/
def weekday (day : Int) : Int := (day + 3) % 7 + 1

theorem weekdayIso_toDateOnly (h : Dated day) : weekdayIso (toDateOnly day) = .ok (weekday day) := by
  rw [weekdayIso, h.parse]
  have hvalue : (if (day + 4).fmod 7 = 0 then (7 : Int) else (day + 4).fmod 7) = weekday day := by
    rw [Int.fmod_eq_emod_of_nonneg _ (by decide), weekday]
    split <;> omega
  exact congrArg Except.ok hvalue

theorem utc_eq {year : Int} (hyear : 100 ≤ year) (month day : Int)
    (hlow : -100000000 ≤ monthStart (12 * year + month) + day - 1)
    (hhigh : monthStart (12 * year + month) + day - 1 ≤ 100000000) :
    utc year month day = some (monthStart (12 * year + month) + day - 1) := by
  have hplain : fullYear year = year := by
    rw [fullYear, if_neg (by omega)]
  have hcount := daysFromCivil_eq (12 * year + month) 1
  have hquotient : (12 * year + month) / 12 = year + month.fdiv 12 := by
    rw [Int.fdiv_eq_ediv_of_nonneg _ (by decide)]
    omega
  have hrest : (12 * year + month) % 12 = month.fmod 12 := by
    rw [Int.fmod_eq_emod_of_nonneg _ (by decide)]
    omega
  rw [hquotient, hrest] at hcount
  simp only [utc, hplain, hcount]
  have hsum : monthStart (12 * year + month) + ((1 : Nat) : Int) - 1 + day - 1
      = monthStart (12 * year + month) + day - 1 := by
    omega
  rw [hsum, if_pos ⟨hlow, hhigh⟩]

/-- `Date` holds the days of a hundred and sixty thousand years. -/
theorem monthStart_fits (month : Int) (hlow : 0 ≤ month) (hhigh : month ≤ 1920000) :
    -800000 ≤ monthStart month ∧ monthStart month ≤ 60000000 := by
  have hfirst : monthStart 0 ≤ monthStart month := monthStart_le.mpr hlow
  have hzero : monthStart 0 = -719528 := by decide
  have hlast := monthStart_le_mul hlow
  omega

theorem lastDay_eq {year number : Int} (hyear : 100 ≤ year) (hlast : year ≤ 159999)
    (hnumber : 1 ≤ number ∧ number ≤ 12) :
    lastDay year number = some (monthLength (12 * year + number - 1)) := by
  have hfits := monthStart_fits (12 * year + number) (by omega) (by omega)
  have hlength := monthLength_pos (12 * year + number - 1)
  have hnext : 12 * year + number - 1 + 1 = 12 * year + number := by omega
  have hsucc := monthStart_succ (12 * year + number - 1)
  rw [hnext] at hsucc
  have hmonth : InMonth (monthStart (12 * year + number) + 0 - 1) (12 * year + number - 1) := by
    rw [InMonth, hnext]
    omega
  have hdays : monthStart (12 * year + number) + 0 - 1 - monthStart (12 * year + number - 1) + 1
      = monthLength (12 * year + number - 1) := by
    omega
  rw [lastDay, utc_eq hyear number 0 (by omega) (by omega), Option.map_some, civil_eq hmonth, hdays]
  exact congrArg some (Int.toNat_of_nonneg (Int.le_trans (by decide) hlength.1))

/-- The text of a day that is given by its month. -/
theorem spelled_eq (hmonth : 0 ≤ month) {number : Int} (hfirst : 1 ≤ number)
    (hlast : number ≤ monthLength month) :
    spelled (month / 12) (month % 12 + 1) number = toDateOnly (monthStart month + number - 1) := by
  have hday : InMonth (monthStart month + number - 1) month :=
    inMonth_iff.mpr ⟨number, hfirst, hlast, rfl⟩
  have hyear : ((month / 12).toNat : Int) = month / 12 := Int.toNat_of_nonneg (by omega)
  have hinYear : (((month % 12).toNat + 1 : Nat) : Int) = month % 12 + 1 := by omega
  have hnumber : monthStart month + number - 1 - monthStart month + 1 = number := by omega
  have hcast : (number.toNat : Int) = number := Int.toNat_of_nonneg (by omega)
  rw [toDateOnly_eq hday hmonth, hyear, hinYear, hnumber, hcast]

/-- The day of the month stays, or becomes the last of a shorter month. -/
theorem addMonthsClamped_toDateOnly (h : InMonth day month) (hmonth : 1200 ≤ month) {amount : Int}
    (hpos : 0 ≤ amount) (hlast : month + amount < 1919988) :
    addMonthsClamped (toDateOnly day) (some amount) = toDateOnly (monthStart (month + amount) +
      min (day - monthStart month + 1) (monthLength (month + amount)) - 1) := by
  have hfits := monthStart_fits (month + amount) (by omega) (by omega)
  have hsum : 12 * (month / 12) + (month % 12 + 1 - 1 + amount) = month + amount := by omega
  have htarget : utc (month / 12) (month % 12 + 1 - 1 + amount) 1 = some (monthStart (month + amount)) := by
    have hyear : 100 ≤ month / 12 := by omega
    have hutc := utc_eq hyear (month % 12 + 1 - 1 + amount) 1
    rw [hsum, Int.add_sub_cancel] at hutc
    exact hutc (by omega) (by omega)
  have hlength := monthLength_pos (month + amount)
  have hfirst : InMonth (monthStart (month + amount)) (month + amount) := by
    rw [InMonth, monthStart_succ]
    omega
  have hlastDay : lastDay ((month + amount) / 12) (((month + amount) % 12).toNat + 1 : Nat) =
      some (monthLength (month + amount)) := by
    have hnumber : (((month + amount) % 12).toNat + 1 : Nat) = (month + amount) % 12 + 1 := by omega
    have hindex : 12 * ((month + amount) / 12) + ((month + amount) % 12 + 1) - 1 = month + amount := by
      omega
    rw [hnumber, lastDay_eq (by omega) (by omega) (by omega), hindex]
  unfold addMonthsClamped
  rw [dateNumbers_toDateOnly h (by omega)]
  simp only
  rw [htarget, Option.bind_eq_bind, Option.bind_some, civil_eq hfirst]
  simp only
  rw [hlastDay, Option.bind_some]
  exact Option.getD_some

end

end ShishiTodo.Recurring
