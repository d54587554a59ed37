import ShishiTodo.Export.Events

/-!
# The values of an event

The date of an event is read back from its eight digits, and what stands in the lines of the dates cannot be taken for anything else. A title loses the white space at its end.
-/

namespace ShishiTodo.Export

open Lib Tasks Recurring

/-! ### Dates -/

def unitsOfChar (c : Char) : JsText :=
  if c.toNat < 0x10000 then [c.toNat]
  else [0xD800 + (c.toNat - 0x10000) / 0x400, 0xDC00 + (c.toNat - 0x10000) % 0x400]

theorem units_eq (text : String) : units text = text.toList.flatMap unitsOfChar := rfl

theorem unitsOfChar_digit {c : Char} (h : isDigit c = true) :
    unitsOfChar c = [c.toNat] ∧ isDigitUnit c.toNat = true := by
  simp only [isDigit, Bool.and_eq_true, decide_eq_true_eq] at h
  refine ⟨if_pos (by omega), ?_⟩
  simp [isDigitUnit, h]

theorem units_digits {chars : List Char} (h : ∀ c ∈ chars, isDigit c = true) :
    chars.flatMap unitsOfChar = chars.map Char.toNat ∧ ∀ unit ∈ chars.map Char.toNat, isDigitUnit unit = true := by
  induction chars with
  | nil => exact ⟨rfl, nofun⟩
  | cons c rest ih =>
      obtain ⟨hunit, hdigit⟩ := unitsOfChar_digit (h c List.mem_cons_self)
      obtain ⟨hrest, hdigits⟩ := ih fun other hother => h other (List.mem_cons_of_mem _ hother)
      refine ⟨by rw [List.flatMap_cons, hunit, hrest]; rfl, fun unit hmem => ?_⟩
      rcases List.mem_cons.mp hmem with rfl | hmem
      · exact hdigit
      · exact hdigits unit hmem

theorem unitsOfChar_hyphen : unitsOfChar '-' = [0x2D] := rfl

/-- The units of a padded number. -/
theorem padStart_units (width n : Nat) : ∃ digits : JsText,
    (padStart width (toString (n : Int))).toList.flatMap unitsOfChar = digits ∧
      (∀ unit ∈ digits, isDigitUnit unit = true) ∧ digits.length = (padStart width (toString (n : Int))).toList.length := by
  obtain ⟨hunits, hdigits⟩ := units_digits fun c (hc : c ∈ (padStart width (toString (n : Int))).toList) =>
    isDigit_of_mem_padStart hc
  exact ⟨_, hunits, hdigits, List.length_map _⟩

theorem length_padStart {width n : Nat} (h : n < 10 ^ (width + 1)) :
    (padStart (width + 1) (toString (n : Int))).toList.length = width + 1 := by
  rw [padStart_eq_digitChars h, Codecs.length_digitChars]

/-- Eight digits with two hyphens between them. -/
theorem dueOn_units (date : ReferenceDate) : ∃ year month day : JsText,
    (year.length = 4 ∧ month.length = 2 ∧ day.length = 2) ∧
      (∀ unit ∈ year ++ (month ++ day), isDigitUnit unit = true) ∧
      units date.text = year ++ 0x2D :: (month ++ 0x2D :: day) := by
  have hvalid : Web.isDateOnly date.text = true := (isDateOnly_iff _).mpr ⟨date.day, date.dated, rfl⟩
  obtain ⟨parsed, hread, -⟩ := (Option.any_eq_true _ _).mp hvalid
  obtain ⟨year, month, day, hyear, hmonth, hday, -, -, htext⟩ := eq_spelled_of_readDate hread
  obtain ⟨yearUnits, hyearUnits, hyearDigits, hyearLength⟩ := padStart_units 4 year
  obtain ⟨monthUnits, hmonthUnits, hmonthDigits, hmonthLength⟩ := padStart_units 2 month
  obtain ⟨dayUnits, hdayUnits, hdayDigits, hdayLength⟩ := padStart_units 2 day
  refine ⟨yearUnits, monthUnits, dayUnits, ⟨hyearLength.trans (length_padStart hyear),
    hmonthLength.trans (length_padStart hmonth), hdayLength.trans (length_padStart hday)⟩, ?_, ?_⟩
  · intro unit hunit
    rcases List.mem_append.mp hunit with hunit | hunit
    · exact hyearDigits unit hunit
    · rcases List.mem_append.mp hunit with hunit | hunit
      · exact hmonthDigits unit hunit
      · exact hdayDigits unit hunit
  · rw [units_eq, htext, spelled_toList, List.flatMap_append, List.flatMap_cons, List.flatMap_append,
      List.flatMap_cons, hyearUnits, hmonthUnits, hdayUnits, unitsOfChar_hyphen]
    rfl

theorem filter_hyphen_digits {text : JsText} (h : ∀ unit ∈ text, isDigitUnit unit = true) :
    withoutHyphens text = text := by
  rw [withoutHyphens, List.filter_eq_self]
  intro unit hunit
  have hdigit := h unit hunit
  rw [decide_eq_true_iff]
  rintro rfl
  cases hdigit

theorem isSpace_of_digit {unit : Nat} (h : isDigitUnit unit = true) : JsText.isSpace unit = false := by
  simp only [isDigitUnit, Bool.and_eq_true, decide_eq_true_eq] at h
  have hsmall : unit ≤ 0x39 := h.2
  interval_cases unit <;> first | rfl | omega

theorem trim_of_unspaced {text : JsText} (h : ∀ unit ∈ text, JsText.isSpace unit = false) :
    JsText.trim text = text := by
  have hbegins : text.dropWhile JsText.isSpace = text := by
    rw [List.dropWhile_eq_self_iff]
    intro hsome
    rw [h _ (List.getElem_mem hsome)]
    decide
  rw [trim_of_begins hbegins, List.rdropWhile_eq_self_iff]
  intro hsome
  rw [h _ (List.getLast_mem hsome)]
  decide

/-- The date of an event is read back. -/
theorem datedText_dueOn (date : ReferenceDate) :
    datedText (JsText.trim (withoutHyphens (units date.text))) = units date.text := by
  obtain ⟨year, month, day, ⟨hyear, hmonth, hday⟩, hdigits, hunits⟩ := dueOn_units date
  have hplain : withoutHyphens (units date.text) = year ++ (month ++ day) := by
    have hparts := filter_hyphen_digits hdigits
    rw [hunits, ← hparts]
    simp [withoutHyphens]
  have htrim : JsText.trim (year ++ (month ++ day)) = year ++ (month ++ day) :=
    trim_of_unspaced fun unit hunit => isSpace_of_digit (hdigits unit hunit)
  have hall : ((year ++ (month ++ day)).take 8).all isDigitUnit = true :=
    List.all_eq_true.mpr fun unit hunit => hdigits unit (List.mem_of_mem_take hunit)
  have hlength : 8 ≤ (year ++ (month ++ day)).length := by
    simp only [List.length_append]
    omega
  rw [hplain, htrim, datedText, if_pos ⟨hlength, hall⟩, hunits]
  rw [List.take_left' hyear, List.drop_left' hyear, List.take_left' hmonth]
  have hlate : (year ++ (month ++ day)).drop 6 = day := by
    rw [← List.append_assoc, List.drop_left' (by rw [List.length_append]; omega)]
  rw [hlate, List.take_of_length_le (Nat.le_of_eq hday)]
  simp

/-- The units of a padded number are digits. -/
theorem digit_of_padStart {width n : Nat} {c : Char} (hc : c ∈ (padStart width (toString (n : Int))).toList) :
    isDigit c = true ∨ c = '+' ∨ c = '-' :=
  Or.inl (isDigit_of_mem_padStart hc)

theorem isoYear_chars (year : Int) : ∀ c ∈ (if 0 ≤ year ∧ year ≤ 9999 then padStart 4 (toString year)
    else (if year < 0 then "-" else "+") ++ padStart 6 (toString (year.natAbs : Int))).toList,
    isDigit c = true ∨ c = '+' ∨ c = '-' := by
  intro c hc
  split at hc
  · rename_i hyear
    obtain ⟨n, rfl⟩ := Int.eq_ofNat_of_zero_le hyear.1
    exact digit_of_padStart hc
  · rw [String.toList_append] at hc
    rcases List.mem_append.mp hc with hsign | hdigits
    · split at hsign
      · exact Or.inr (Or.inr (List.mem_singleton.mp hsign))
      · exact Or.inr (Or.inl (List.mem_singleton.mp hsign))
    · exact digit_of_padStart hdigits

theorem le_length_padStart (width n : Nat) : width ≤ (padStart width (toString (n : Int))).toList.length := by
  rw [padStart_toList, List.length_append, List.length_replicate]
  omega

theorem isoYear_length (year : Int) : 4 ≤ (if 0 ≤ year ∧ year ≤ 9999 then padStart 4 (toString year)
    else (if year < 0 then "-" else "+") ++ padStart 6 (toString (year.natAbs : Int))).toList.length := by
  split
  · rename_i hyear
    obtain ⟨n, rfl⟩ := Int.eq_ofNat_of_zero_le hyear.1
    exact le_length_padStart 4 n
  · have hlong := le_length_padStart 6 year.natAbs
    rw [String.toList_append, List.length_append]
    omega

/-- The characters of a date in the calendar: a year after 9999 has a sign. -/
theorem isoDate_chars (days : Int) : ∀ c ∈ (isoDate days).toList, isDigit c = true ∨ c = '+' ∨ c = '-' := by
  rcases hcivil : Codecs.civil ⟨days⟩ with ⟨year, month, day⟩
  rw [isoDate, hcivil, String.toList_ofList]
  have hchars := isoYear_chars year
  have hlength := isoYear_length year
  generalize (if 0 ≤ year ∧ year ≤ 9999 then padStart 4 (toString year)
    else (if year < 0 then "-" else "+") ++ padStart 6 (toString (year.natAbs : Int))) = yearText at hchars hlength ⊢
  have hmonth := le_length_padStart 2 month
  have hday := le_length_padStart 2 day
  have htext : (s!"{yearText}-{padStart 2 (toString (month : Int))}-{padStart 2 (toString (day : Int))}T00:00:00.000Z").toList =
      (yearText.toList ++ '-' :: ((padStart 2 (toString (month : Int))).toList ++
        '-' :: (padStart 2 (toString (day : Int))).toList)) ++ "T00:00:00.000Z".toList := by
    simp [toString]
  rw [htext, List.take_append_of_le_length
    (by simp only [List.length_append, List.length_cons]; omega)]
  intro c hc
  rcases List.mem_append.mp (List.mem_of_mem_take hc) with hyear | hrest
  · exact hchars c hyear
  · rcases List.mem_cons.mp hrest with rfl | hrest
    · exact Or.inr (Or.inr rfl)
    · rcases List.mem_append.mp hrest with hmonthChar | hrest
      · exact digit_of_padStart hmonthChar
      · rcases List.mem_cons.mp hrest with rfl | hdayChar
        · exact Or.inr (Or.inr rfl)
        · exact digit_of_padStart hdayChar

theorem nextDay_units (date : ReferenceDate) : ∀ unit ∈ nextDay date, isDigitUnit unit = true ∨ unit = 0x2B := by
  intro unit hunit
  obtain ⟨hmem, hhyphen⟩ := List.mem_filter.mp hunit
  rw [units_eq] at hmem
  obtain ⟨c, hc, hunit⟩ := List.mem_flatMap.mp hmem
  rcases isoDate_chars _ c hc with hdigit | rfl | rfl
  · obtain ⟨hone, hdigits⟩ := unitsOfChar_digit hdigit
    rw [hone, List.mem_singleton] at hunit
    exact Or.inl (hunit ▸ hdigits)
  · exact Or.inr (List.mem_singleton.mp hunit)
  · exact absurd (List.mem_singleton.mp hunit) (of_decide_eq_true hhyphen)

/-! ### Trimmed titles -/

theorem escapeUnit_of_space {unit : Nat} (hfeed : unit ≠ 0x0A) (h : JsText.isSpace unit = true) :
    escapeUnit unit = [unit] := by
  refine escapeUnit_of_plain hfeed ?_
  rw [Bool.eq_false_iff]
  intro hspecial
  simp only [isSpecial, Bool.or_eq_true, beq_iff_eq] at hspecial
  rcases hspecial with (rfl | rfl) | rfl <;> cases h

theorem dropWhile_escaped {value : JsText} (hfeed : 0x0A ∉ value) :
    (value.flatMap escapeUnit).dropWhile JsText.isSpace = (value.dropWhile JsText.isSpace).flatMap escapeUnit := by
  induction value with
  | nil => rfl
  | cons unit rest ih =>
      rw [List.mem_cons, not_or] at hfeed
      cases hspace : JsText.isSpace unit with
      | true =>
          rw [List.flatMap_cons, escapeUnit_of_space (Ne.symm hfeed.1) hspace, List.singleton_append,
            List.dropWhile_cons_of_pos hspace, List.dropWhile_cons_of_pos hspace, ih hfeed.2]
      | false =>
          rw [List.dropWhile_cons_of_neg (by rw [hspace]; decide), List.flatMap_cons]
          rcases escapeUnit_cases unit with hunit | ⟨second, hunit, -⟩
          · rw [hunit, List.singleton_append, List.dropWhile_cons_of_neg (by rw [hspace]; decide)]
          · rw [hunit, List.cons_append, List.dropWhile_cons_of_neg (by decide)]

theorem rdropWhile_escaped {value : JsText} (hfeed : 0x0A ∉ value) :
    (value.flatMap escapeUnit).rdropWhile JsText.isSpace = (value.rdropWhile JsText.isSpace).flatMap escapeUnit := by
  induction value using List.reverseRecOn with
  | nil => rfl
  | append_singleton rest unit ih =>
      rw [List.mem_append, not_or, List.mem_singleton] at hfeed
      cases hspace : JsText.isSpace unit with
      | true =>
          rw [List.flatMap_append, List.flatMap_singleton, escapeUnit_of_space (Ne.symm hfeed.2) hspace,
            List.rdropWhile_concat_pos _ _ _ hspace, List.rdropWhile_concat_pos _ _ _ hspace, ih hfeed.1]
      | false =>
          rw [List.rdropWhile_concat_neg _ _ _ (by rw [hspace]; decide), List.flatMap_append, List.flatMap_singleton]
          have hlast : ∃ front, escapeUnit unit = front ++ [unit] := by
            by_cases hspecial : isSpecial unit = true
            · exact ⟨[0x5C], escapeUnit_of_special hspecial⟩
            · exact ⟨[], escapeUnit_of_plain (Ne.symm hfeed.2) (Bool.eq_false_iff.mpr hspecial)⟩
          obtain ⟨front, hfront⟩ := hlast
          rw [hfront, ← List.append_assoc, List.rdropWhile_concat_neg _ _ _ (by rw [hspace]; decide)]

theorem trim_escapeText {value : JsText} (hfeed : 0x0A ∉ value) (hreturn : 0x0D ∉ value) :
    JsText.trim (escapeText value) = escapeText (JsText.trim value) := by
  have htrimmed : 0x0D ∉ JsText.trim value := fun h => hreturn ((trim_part value).subset h)
  have hbegin : 0x0A ∉ value.dropWhile JsText.isSpace :=
    fun h => hfeed ((List.dropWhile_suffix _).subset h)
  rw [escapeText_eq, escapeText_eq, withoutReturns_of_plain hreturn, withoutReturns_of_plain htrimmed, JsText.trim,
    dropWhile_escaped hfeed, rdropWhile_escaped hbegin]
  rfl

end ShishiTodo.Export
