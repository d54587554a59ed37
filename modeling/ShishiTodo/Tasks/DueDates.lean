import ShishiTodo.Tasks.NaturalDate
import ShishiTodo.Recurring.Skips

/-!
# What the phrases mean

The date that a phrase means, and the title that is left without it. `parseNaturalDate` takes every day after the 28th of a next month for the 28th, writes no date after the year 9999, and takes the text of a phrase out where it occurs first, which may be before the phrase.
-/

namespace ShishiTodo.Tasks

open Lib Lib.Calendar Recurring

/-! ### The words of the phrases -/

def spellsWeekday (words : WeekdayWords) (word : List Char) : Prop :=
  ∃ name ∈ weekdayNames, words.weekday ∈ weekdayChars ∧
    word = (if words.every then ['每'] else []) ++ ((if words.next then ['下'] else []) ++
      (name ++ [words.weekday]))

def spellsMonth (day : Int) (word : List Char) : Prop :=
  ∃ digits suffix, digits ≠ [] ∧ (∀ c ∈ digits, isDigit c = true) ∧ digits.length ≤ 2 ∧
    suffix ∈ [['号'], ['日'], []] ∧ day = (Nat.ofDigitChars 10 digits 0 : Int) ∧
    word = ['下', '月'] ++ (digits ++ suffix)

theorem mem_weekdayBody {chars rest : List Char} {words : WeekdayWords} :
    (words, rest) ∈ weekdayBody chars ↔ ∃ word, spellsWeekday words word ∧ chars = word ++ rest := by
  simp only [weekdayBody, List.mem_flatMap, List.mem_map, Prod.exists, mem_optional, mem_anyOf, mem_oneOf,
    Prod.mk.injEq]
  constructor
  · rintro ⟨every, second, rfl, next, third, rfl, fourth, ⟨name, hname, rfl⟩, weekday, fifth,
      ⟨hweekday, rfl⟩, rfl, rfl⟩
    exact ⟨_, ⟨name, hname, hweekday, rfl⟩, by simp⟩
  · rintro ⟨_, ⟨name, hname, hweekday, rfl⟩, rfl⟩
    exact ⟨words.every, _, by rw [List.append_assoc], words.next, _, by rw [List.append_assoc], _,
      ⟨name, hname, List.append_assoc name [words.weekday] rest⟩, words.weekday, rest, ⟨hweekday, rfl⟩, rfl, rfl⟩

theorem reads_weekdayBody : Reads weekdayBody spellsWeekday where
  mem_iff _ _ _ := mem_weekdayBody
  word_ne_nil := by
    rintro words _ ⟨name, -, -, rfl⟩ hnone
    simp at hnone
  word_solid := by
    rintro ⟨every, next, weekday⟩ _ ⟨name, hname, hweekday, rfl⟩ c hc
    have hnames : (weekdayNames.flatten ++ weekdayChars ++ ['每', '下']).all (fun c => !isSpace c) = true := by
      decide
    have hmem : c ∈ weekdayNames.flatten ++ weekdayChars ++ ['每', '下'] := by
      rcases List.mem_append.mp hc with hevery | hc
      · cases every
        · cases hevery
        · rw [List.mem_singleton.mp hevery]
          exact List.mem_append_right _ List.mem_cons_self
      · rcases List.mem_append.mp hc with hnext | hc
        · cases next
          · cases hnext
          · rw [List.mem_singleton.mp hnext]
            exact List.mem_append_right _ (List.mem_cons_of_mem _ List.mem_cons_self)
        · rcases List.mem_append.mp hc with hname' | hlast
          · exact List.mem_append_left _ (List.mem_append_left _ (List.mem_flatten.mpr ⟨name, hname, hname'⟩))
          · rw [List.mem_singleton.mp hlast]
            exact List.mem_append_left _ (List.mem_append_right _ hweekday)
    simpa using List.all_eq_true.mp hnames c hmem

theorem mem_oneOrTwoDigits {chars digits rest : List Char} :
    (digits, rest) ∈ oneOrTwoDigits chars ↔ digits ≠ [] ∧ (∀ c ∈ digits, isDigit c = true) ∧
      digits.length ≤ 2 ∧ chars = digits ++ rest := by
  constructor
  · intro hmem
    cases chars with
    | nil => cases hmem
    | cons c others =>
        rw [oneOrTwoDigits.eq_def] at hmem
        simp only at hmem
        split at hmem
        · rename_i hc
          rcases List.mem_append.mp hmem with htwo | hone
          · cases others with
            | nil => cases htwo
            | cons d others =>
                simp only at htwo
                split at htwo
                · rename_i hd
                  cases List.mem_singleton.mp htwo
                  exact ⟨by simp, by simp [hc, hd], Nat.le_refl 2, rfl⟩
                · cases htwo
          · cases List.mem_singleton.mp hone
            exact ⟨by simp, by simp [hc], by simp, rfl⟩
        · cases hmem
  · rintro ⟨hsome, hdigits, hlength, rfl⟩
    match digits, hlength with
    | [], _ => exact absurd rfl hsome
    | [c], _ =>
        rw [List.singleton_append, oneOrTwoDigits.eq_def]
        simp only [if_pos (hdigits c List.mem_cons_self)]
        exact List.mem_append_right _ List.mem_cons_self
    | [c, d], _ =>
        have hc := hdigits c List.mem_cons_self
        have hd := hdigits d (List.mem_cons_of_mem c List.mem_cons_self)
        simp [oneOrTwoDigits, hc, hd]
    | _ :: _ :: _ :: _, hlong => exact absurd hlong (by simp)

theorem not_isSpace_of_isDigit {c : Char} (h : isDigit c = true) : isSpace c = false := by
  simp only [isDigit, Bool.and_eq_true, decide_eq_true_eq] at h
  obtain ⟨hlow, hhigh⟩ := h
  simp only [isSpace]
  generalize c.toNat = n at *
  interval_cases n <;> rfl

theorem reads_monthBody : Reads monthBody spellsMonth where
  mem_iff chars day rest := by
    simp only [monthBody, List.mem_flatMap, List.mem_map, Prod.exists, mem_literal, mem_oneOrTwoDigits,
      mem_anyOf, Prod.mk.injEq]
    constructor
    · rintro ⟨second, rfl, digits, third, ⟨hsome, hdigits, hlength, rfl⟩, fourth, ⟨suffix, hsuffix, rfl⟩,
        rfl, rfl⟩
      exact ⟨_, ⟨digits, suffix, hsome, hdigits, hlength, hsuffix, rfl, rfl⟩, by simp⟩
    · rintro ⟨_, ⟨digits, suffix, hsome, hdigits, hlength, hsuffix, rfl, rfl⟩, rfl⟩
      exact ⟨digits ++ suffix ++ rest, by simp, digits, suffix ++ rest, ⟨hsome, hdigits, hlength, by simp⟩,
        rest, ⟨suffix, hsuffix, rfl⟩, rfl, rfl⟩
  word_ne_nil := by
    rintro day _ ⟨digits, suffix, -, -, -, -, -, rfl⟩ hnone
    simp at hnone
  word_solid := by
    rintro day _ ⟨digits, suffix, -, hdigits, -, hsuffix, -, rfl⟩ c hc
    have hplain : ['下', '月', '号', '日'].all (fun c => !isSpace c) = true := by decide
    have hcases : c ∈ ['下', '月', '号', '日'] ∨ isDigit c = true := by
      rcases List.mem_append.mp hc with hfront | hc
      · exact .inl (List.mem_append_left ['号', '日'] hfront)
      · rcases List.mem_append.mp hc with hdigit | hlast
        · exact .inr (hdigits c hdigit)
        · simp only [List.mem_cons, List.not_mem_nil, or_false] at hsuffix
          rcases hsuffix with rfl | rfl | rfl
          · rw [List.mem_singleton.mp hlast]
            exact .inl (by decide)
          · rw [List.mem_singleton.mp hlast]
            exact .inl (by decide)
          · cases hlast
    rcases hcases with hmem | hdigit
    · simpa using List.all_eq_true.mp hplain c hmem
    · exact not_isSpace_of_isDigit hdigit

/-! ### The text of a date -/

theorem civil_month {day month : Int} (h : InMonth day month) :
    getUTCMonth day = month % 12 := by
  rw [getUTCMonth, civil_eq h]
  simp only
  omega

theorem setUTCMonth_eq {day month : Int} (h : InMonth day month) (number : Int) :
    setUTCMonth day (getUTCMonth day + 1) number = monthStart (month + 1) + number - 1 := by
  have hcount := daysFromCivil_eq (month + 1) 1
  have hyear : (month + 1) / 12 = month / 12 + (month % 12 + 1).fdiv 12 := by
    rw [Int.fdiv_eq_ediv_of_nonneg _ (by decide)]
    omega
  have hinYear : (month + 1) % 12 = (month % 12 + 1).fmod 12 := by
    rw [Int.fmod_eq_emod_of_nonneg _ (by decide)]
    omega
  rw [hyear, hinYear] at hcount
  rw [setUTCMonth, civil_month h, civil_eq h]
  simp only
  rw [hcount]
  omega

/-- Up to the year 9999 the first ten characters are the date. -/
theorem isoDate_eq {day month : Int} (h : InMonth day month) (hmonth : FourDigits month) :
    isoDate day = toDateOnly day := by
  obtain ⟨hfirst, hlast⟩ := hmonth
  obtain ⟨number, hone, hlong, hday⟩ := inMonth_iff.mp h
  have hlength := monthLength_pos month
  have hyear : ((month / 12).toNat : Int) = month / 12 := Int.toNat_of_nonneg (by omega)
  have hten : (toDateOnly day).toList.length = 10 := by
    rw [toDateOnly_eq h (by omega), spelled_eq_digitChars (by omega) (by omega) (by omega)]
    simp only [List.length_append, List.length_cons, Codecs.length_digitChars]
  have htext : (toDateOnly day ++ "T00:00:00.000Z").toList.take 10 = (toDateOnly day).toList := by
    rw [String.toList_append, ← hten, List.take_left]
  have hrange : 0 ≤ month / 12 ∧ month / 12 ≤ 9999 := by omega
  conv_rhs => rw [← String.ofList_toList (s := toDateOnly day), ← htext, toDateOnly, civil_eq h]
  rw [isoDate, civil_eq h]
  simp only [if_pos hrange]
  congr 3

theorem plus_not_mem_toDateOnly {day month : Int} (h : InMonth day month) (hmonth : 0 ≤ month) :
    '+' ∉ (toDateOnly day).toList := by
  have hnone : ∀ width n : Nat, '+' ∉ (padStart width (toString (n : Int))).toList := fun width n hmem =>
    absurd (isDigit_of_mem_padStart hmem) (by decide)
  rw [toDateOnly_eq h hmonth, spelled_toList]
  intro hmem
  rcases List.mem_append.mp hmem with hyear | hmem
  · exact hnone _ _ hyear
  · rcases List.mem_append.mp ((List.mem_cons.mp hmem).resolve_left (by decide)) with hinYear | hmem
    · exact hnone _ _ hinYear
    · exact hnone _ _ ((List.mem_cons.mp hmem).resolve_left (by decide))

/-- After that year they begin with a sign. -/
theorem isoDate_ne {day month other otherMonth : Int} (h : InMonth day month) (hmonth : 120000 ≤ month)
    (hother : InMonth other otherMonth) (hpos : 0 ≤ otherMonth) : isoDate day ≠ toDateOnly other := by
  intro hsame
  refine plus_not_mem_toDateOnly hother hpos ?_
  have hlate : ¬ (0 ≤ month / 12 ∧ month / 12 ≤ 9999) := by omega
  have hpositive : ¬ month / 12 < 0 := by omega
  rw [← hsame, isoDate, civil_eq h]
  simp only [if_neg hlate, if_neg hpositive, String.toList_ofList]
  simp [toString]

/-! ### What the phrases mean -/

/-- The phrase that `parseNaturalDate` takes. -/
inductive Phrase where
  | weekday (found : Found WeekdayWords)
  | month (found : Found Int)
  | plain (found : Found Unit)
  deriving DecidableEq

def plainPhrases : List (List Char) :=
  [['今', '天'], ['明', '天'], ['后', '天'], ['每', '天'], ['每', '个', '工', '作', '日']]

def phraseOf (title : List Char) : Option Phrase :=
  ((exec weekdayBody title).map Phrase.weekday).or
    ((((exec monthBody title).filter fun found => 1 ≤ found.value ∧ found.value ≤ 31).map Phrase.month).or
      ((plainPhrases.findSome? fun text => exec (literalBody text) title).map Phrase.plain))

/-- The title with the phrase, where it was found, replaced by a space. -/
def Phrase.rest : Phrase → List Char
  | .weekday found => tidy (found.before ++ ' ' :: found.after)
  | .month found => tidy (found.before ++ ' ' :: found.after)
  | .plain found => tidy (found.before ++ ' ' :: found.after)

/-- The date that a phrase means; the claim is silent about the others. -/
def Means (phrase : Phrase) (today : Int) (dueOn : Option String) : Prop :=
  match phrase with
  | .weekday found => ∃ day, dueOn = some (toDateOnly day) ∧
      weekday day = weekdayTarget found.value.weekday ∧
      if found.value.next then week day = week today + 1
      else today ≤ day ∧ ∀ earlier, today ≤ earlier → earlier < day →
        weekday earlier ≠ weekdayTarget found.value.weekday
  | .month found => ∃ month, InMonth today month ∧ dueOn =
      some (toDateOnly (monthStart (month + 1) + min found.value (monthLength (month + 1)) - 1))
  | .plain _ => True

/-- The date and the title are what the words of the text say. Without a phrase the title stays. -/
def Understood (text : String) (today : ReferenceDate) : Prop :=
  ∃ result, parseNaturalDate text today = .ok result ∧
    match phraseOf (trimText text.toList) with
    | none => result.title = String.ofList (trimText text.toList)
    | some phrase => Means phrase today.day result.dueOn ∧ result.title = String.ofList phrase.rest

/-- The day that the words of a weekday mean. -/
def weekdayOf (today : Int) (words : WeekdayWords) : Int :=
  if words.next then today - weekday today + 7 + weekdayTarget words.weekday
  else today + (weekdayTarget words.weekday - weekday today) % 7

/-- The text of a weekday's or a month's phrase does not occur before it, its date is before the year 10000, and of a next month with more than 28 days none after the 28th is meant. -/
def Simple (text : String) (today : ReferenceDate) : Prop :=
  match phraseOf (trimText text.toList) with
  | some (.weekday found) => found.First ∧ weekdayOf today.day found.value < monthStart 120000
  | some (.month found) => found.First ∧ ∀ month, InMonth today.day month →
      month + 1 < 120000 ∧ (found.value ≤ 28 ∨ monthLength (month + 1) = 28)
  | _ => True

/-! ### The date of a weekday -/

theorem weekdayTarget_bounds {c : Char} (h : c ∈ weekdayChars) :
    1 ≤ weekdayTarget c ∧ weekdayTarget c ≤ 7 := by
  have hall : weekdayChars.all (fun c => 1 ≤ weekdayTarget c && weekdayTarget c ≤ 7) = true := by decide
  have hboth := List.all_eq_true.mp hall c h
  simpa using hboth

theorem weekdayOf_iff (today day : Int) {words : WeekdayWords} (h : words.weekday ∈ weekdayChars) :
    (weekday day = weekdayTarget words.weekday ∧
      if words.next then week day = week today + 1
      else today ≤ day ∧ ∀ earlier, today ≤ earlier → earlier < day →
        weekday earlier ≠ weekdayTarget words.weekday) ↔ day = weekdayOf today words := by
  obtain ⟨hone, hseven⟩ := weekdayTarget_bounds h
  simp only [weekdayOf]
  generalize weekdayTarget words.weekday = target at *
  cases words.next with
  | true =>
      simp only [if_true, weekday, week]
      omega
  | false =>
      simp only [Bool.false_eq_true, if_false]
      constructor
      · rintro ⟨hweekday, hlate, hfirst⟩
        -- Of the seven days from today on only one has this weekday.
        have hbound : ¬ today + (target - weekday today) % 7 < day := fun hless =>
          hfirst _ (by omega) hless (by simp only [weekday]; omega)
        simp only [weekday] at hweekday hbound ⊢
        omega
      · rintro rfl
        refine ⟨by simp only [weekday]; omega, by omega, fun earlier hlate hless hsame => ?_⟩
        simp only [weekday] at hless hsame
        omega

/-- The offset that the code adds. -/
theorem offset_eq (today : Int) {words : WeekdayWords} (h : words.weekday ∈ weekdayChars) :
    today + (if words.next then
        if 7 - weekday today + weekdayTarget words.weekday ≤ 0 then
          7 - weekday today + weekdayTarget words.weekday + 7
        else 7 - weekday today + weekdayTarget words.weekday
      else (weekdayTarget words.weekday - weekday today + 7).tmod 7) = weekdayOf today words := by
  obtain ⟨hone, hseven⟩ := weekdayTarget_bounds h
  have hbounds := weekday_bounds today
  simp only [weekdayOf]
  generalize weekdayTarget words.weekday = target at *
  cases words.next with
  | true =>
      simp only [if_true]
      rw [if_neg (by omega)]
      omega
  | false =>
      simp only [Bool.false_eq_true, if_false]
      rw [Int.tmod_eq_emod_of_nonneg (by omega)]
      omega

theorem weekdayOf_late (today : Int) {words : WeekdayWords} (h : words.weekday ∈ weekdayChars) :
    today ≤ weekdayOf today words ∧ weekdayOf today words ≤ today + 14 := by
  obtain ⟨hone, hseven⟩ := weekdayTarget_bounds h
  have hbounds := weekday_bounds today
  simp only [weekdayOf]
  split <;> omega

/-! ### The branches -/

section

variable {text : String} {today : ReferenceDate}

theorem parse_weekday {found : Found WeekdayWords} (h : exec weekdayBody (trimText text.toList) = some found) :
    ∃ recurrence, parseNaturalDate text today =
      .ok ⟨removeText found.matched (trimText text.toList), some (isoDate (weekdayOf today.day found.value)),
        recurrence⟩ := by
  obtain ⟨-, ⟨lead, word, trail, ⟨name, hname, hweekday, hword⟩, -⟩, -⟩ := exec_some reads_weekdayBody h
  obtain ⟨hone, -⟩ := weekdayTarget_bounds hweekday
  have hsome : ¬ weekdayTarget found.value.weekday = 0 := by omega
  unfold parseNaturalDate
  simp only [h, if_neg hsome]
  rw [ReferenceDate.text, weekdayIso_toDateOnly today.dated, ok_bind]
  simp only [offsetDate, offset_eq today.day hweekday]
  exact ⟨_, rfl⟩

theorem parse_next (h : exec weekdayBody (trimText text.toList) = none) :
    parseNaturalDate text today = .ok (nextMonth (trimText text.toList) today) := by
  unfold parseNaturalDate
  simp only [h]
  rfl

theorem nextMonth_some {title : List Char} {found : Found Int} (h : exec monthBody title = some found)
    (hday : 1 ≤ found.value ∧ found.value ≤ 31) {month : Int} (hmonth : InMonth today.day month) :
    ∃ recurrence, nextMonth title today = ⟨removeText found.matched title,
      some (isoDate (monthStart (month + 1) + min found.value 28 - 1)), recurrence⟩ := by
  simp only [nextMonth, h, if_pos hday, setUTCMonth_eq hmonth]
  exact ⟨_, rfl⟩

theorem nextMonth_plain {title : List Char}
    (h : (exec monthBody title).filter (fun found => 1 ≤ found.value ∧ found.value ≤ 31) = none) :
    nextMonth title today = relativeDay title today rules := by
  unfold nextMonth
  cases hexec : exec monthBody title with
  | none => rfl
  | some found =>
      rw [hexec, Option.filter_some] at h
      simp only [decide_eq_true_eq] at h
      split at h
      · cases h
      · rename_i hday
        simp only [if_neg hday]

theorem relativeDay_title (title : List Char) :
    (relativeDay title today rules).title =
      match plainPhrases.findSome? fun text => exec (literalBody text) title with
      | some found => removeFound found
      | none => String.ofList title := by
  simp only [rules, relativeDay, everyDay, plainPhrases, List.findSome?_cons, List.findSome?_nil]
  cases exec (literalBody ['今', '天']) title with
  | some found => rfl
  | none =>
    cases exec (literalBody ['明', '天']) title with
    | some found => rfl
    | none =>
      cases exec (literalBody ['后', '天']) title with
      | some found => rfl
      | none =>
        cases exec (literalBody ['每', '天']) title with
        | some found => rfl
        | none => cases exec (literalBody ['每', '个', '工', '作', '日']) title <;> rfl

/-- The date that is written is the one that is meant, of a day before the year 10000. -/
theorem isoDate_eq_iff {written meant : Int} (hwritten : monthStart 1200 ≤ written)
    (hmeant : monthStart 1200 ≤ meant) :
    isoDate written = toDateOnly meant ↔ written = meant ∧ written < monthStart 120000 := by
  obtain ⟨month, hmonth⟩ := exists_inMonth written
  obtain ⟨meantMonth, hmeantMonth⟩ := exists_inMonth meant
  have hlow := monthStart_lt.mp (Int.lt_of_le_of_lt hwritten hmonth.2)
  have hmeantLow := monthStart_lt.mp (Int.lt_of_le_of_lt hmeant hmeantMonth.2)
  by_cases hlate : month < 120000
  · have hearly : written < monthStart 120000 := Int.lt_of_lt_of_le hmonth.2 (monthStart_le.mpr hlate)
    rw [isoDate_eq hmonth ⟨by omega, hlate⟩]
    constructor
    · intro hsame
      have hread := readDate_toDateOnly hmonth (by omega) hlate
      rw [hsame] at hread
      by_cases hmeantLate : 120000 ≤ meantMonth
      · rw [readDate_toDateOnly_late hmeantMonth hmeantLate] at hread
        cases hread
      · rw [readDate_toDateOnly hmeantMonth (by omega) (by omega)] at hread
        cases hread
        exact ⟨rfl, hearly⟩
    · rintro ⟨rfl, -⟩
      rfl
  · constructor
    · intro hsame
      exact absurd hsame (isoDate_ne hmonth (Int.not_lt.mp hlate) hmeantMonth (by omega))
    · rintro ⟨-, hearly⟩
      exact absurd (monthStart_lt.mp (Int.lt_of_le_of_lt hmonth.1 hearly)) hlate

theorem understood_iff {result : NaturalDate} {phrase : Phrase}
    (hparse : parseNaturalDate text today = .ok result)
    (hphrase : phraseOf (trimText text.toList) = some phrase) :
    Understood text today ↔
      Means phrase today.day result.dueOn ∧ result.title = String.ofList phrase.rest := by
  unfold Understood
  rw [hparse, hphrase]
  constructor
  · rintro ⟨_, hresult, h⟩
    cases hresult
    exact h
  · exact fun h => ⟨result, rfl, h⟩

theorem understood_weekday {found : Found WeekdayWords}
    (h : exec weekdayBody (trimText text.toList) = some found) :
    Understood text today ↔ found.First ∧ weekdayOf today.day found.value < monthStart 120000 := by
  obtain ⟨-, ⟨lead, word, trail, ⟨name, hname, hweekday, hword⟩, -⟩, -⟩ := exec_some reads_weekdayBody h
  obtain ⟨recurrence, hparse⟩ := @parse_weekday text today found h
  have hphrase : phraseOf (trimText text.toList) = some (.weekday found) := by
    simp only [phraseOf, h, Option.map_some, Option.some_or]
  have hlate := weekdayOf_late today.day hweekday
  have hfirst := today.dated.1
  have hwritten : isoDate (weekdayOf today.day found.value) = toDateOnly (weekdayOf today.day found.value) ↔
      weekdayOf today.day found.value < monthStart 120000 := by
    rw [isoDate_eq_iff (by omega) (by omega)]
    exact and_iff_right rfl
  have htitle : removeText found.matched (trimText text.toList) =
      String.ofList (tidy (found.before ++ ' ' :: found.after)) ↔ found.First := by
    rw [removeText, String.ofList_inj, tidy_replaceFirst_iff reads_weekdayBody h]
  rw [understood_iff hparse hphrase]
  constructor
  · rintro ⟨⟨day, hdue, hmeant⟩, hrest⟩
    rw [(weekdayOf_iff today.day day hweekday).mp hmeant] at hdue
    exact ⟨htitle.mp hrest, hwritten.mp (Option.some.inj hdue)⟩
  · rintro ⟨hfound, hearly⟩
    refine ⟨⟨weekdayOf today.day found.value, ?_, ?_⟩, htitle.mpr hfound⟩
    · exact congrArg some (hwritten.mpr hearly)
    · exact (weekdayOf_iff today.day _ hweekday).mpr rfl

theorem understood_month (hnone : exec weekdayBody (trimText text.toList) = none) {found : Found Int}
    (h : exec monthBody (trimText text.toList) = some found) (hday : 1 ≤ found.value ∧ found.value ≤ 31) :
    Understood text today ↔ found.First ∧ ∀ month, InMonth today.day month →
      month + 1 < 120000 ∧ (found.value ≤ 28 ∨ monthLength (month + 1) = 28) := by
  obtain ⟨month, hmonth, hyears⟩ := today.dated.inMonth
  obtain ⟨recurrence, hparse⟩ := nextMonth_some h hday hmonth
  have hphrase : phraseOf (trimText text.toList) = some (.month found) := by
    simp only [phraseOf, hnone, h, Option.map_none, Option.none_or, Option.filter_some, hday, and_self,
      decide_true, if_true, Option.map_some, Option.some_or]
  have hlength := monthLength_pos (month + 1)
  have hstart : monthStart 1200 ≤ monthStart (month + 1) := monthStart_le.mpr (by have := hyears.1; omega)
  have hinside : InMonth (monthStart (month + 1) + min found.value 28 - 1) (month + 1) :=
    inMonth_iff.mpr ⟨min found.value 28, by omega, by omega, rfl⟩
  have hyear : monthStart (month + 1) + min found.value 28 - 1 < monthStart 120000 ↔ month + 1 < 120000 := by
    constructor
    · exact fun hearly => monthStart_lt.mp (Int.lt_of_le_of_lt hinside.1 hearly)
    · exact fun hearly => Int.lt_of_lt_of_le hinside.2 (monthStart_le.mpr hearly)
  have hwritten : isoDate (monthStart (month + 1) + min found.value 28 - 1) =
        toDateOnly (monthStart (month + 1) + min found.value (monthLength (month + 1)) - 1) ↔
      month + 1 < 120000 ∧ (found.value ≤ 28 ∨ monthLength (month + 1) = 28) := by
    rw [isoDate_eq_iff (by omega) (by omega), hyear]
    omega
  have htitle : removeText found.matched (trimText text.toList) =
      String.ofList (tidy (found.before ++ ' ' :: found.after)) ↔ found.First := by
    rw [removeText, String.ofList_inj, tidy_replaceFirst_iff reads_monthBody h]
  rw [understood_iff (by rw [parse_next hnone, hparse]) hphrase]
  constructor
  · rintro ⟨⟨other, hother, hdue⟩, hrest⟩
    obtain rfl := hother.unique hmonth
    refine ⟨htitle.mp hrest, fun other' hother' => ?_⟩
    obtain rfl := hother'.unique hmonth
    exact hwritten.mp (Option.some.inj hdue)
  · rintro ⟨hfound, hall⟩
    exact ⟨⟨month, hmonth, congrArg some (hwritten.mpr (hall month hmonth))⟩, htitle.mpr hfound⟩

theorem understood_plain (hnone : exec weekdayBody (trimText text.toList) = none)
    (h : (exec monthBody (trimText text.toList)).filter
      (fun found => 1 ≤ found.value ∧ found.value ≤ 31) = none) : Understood text today := by
  have htitle := @relativeDay_title today (trimText text.toList)
  unfold Understood phraseOf
  rw [parse_next hnone, nextMonth_plain h, hnone, h, Option.map_none, Option.map_none, Option.none_or,
    Option.none_or]
  refine ⟨_, rfl, ?_⟩
  generalize plainPhrases.findSome? (fun text => exec (literalBody text) _) = found at htitle
  cases found with
  | none => exact htitle
  | some found => exact ⟨trivial, htitle⟩

/-- For every text and reference date the title and the date are what the words say exactly in the simple cases. -/
theorem parseNaturalDate_understood_iff (text : String) (today : ReferenceDate) :
    Understood text today ↔ Simple text today := by
  cases hweekday : exec weekdayBody (trimText text.toList) with
  | some found =>
      have hphrase : phraseOf (trimText text.toList) = some (.weekday found) := by
        simp only [phraseOf, hweekday, Option.map_some, Option.some_or]
      rw [understood_weekday hweekday, Simple, hphrase]
  | none =>
      cases hmonth : (exec monthBody (trimText text.toList)).filter
          (fun found => 1 ≤ found.value ∧ found.value ≤ 31) with
      | some found =>
          have hphrase : phraseOf (trimText text.toList) = some (.month found) := by
            simp only [phraseOf, hweekday, hmonth, Option.map_none, Option.none_or, Option.map_some,
              Option.some_or]
          obtain ⟨hexec, hday⟩ := Option.filter_eq_some_iff.mp hmonth
          rw [understood_month hweekday hexec (of_decide_eq_true hday), Simple, hphrase]
      | none =>
          refine iff_of_true (understood_plain hweekday hmonth) ?_
          rw [Simple, phraseOf, hweekday, hmonth, Option.map_none, Option.map_none, Option.none_or,
            Option.none_or]
          generalize plainPhrases.findSome? (fun text => exec (literalBody text) _) = found
          cases found <;> exact trivial

end

/-- Saturday, 2026-06-20. -/
def saturday : ReferenceDate := ⟨20624, by unfold Dated; decide⟩

/-- The 31st of July becomes the 28th, and of two equal texts the wrong one is taken out. -/
theorem parseNaturalDate_misunderstands :
    ¬ Understood "交租 下月31号" saturday ∧ ¬ Understood "买 周一早 周一" saturday := by
  constructor
  · have hparse : parseNaturalDate "交租 下月31号" saturday = .ok ⟨"交租", some "2026-07-28",
        some (.obj [("frequency", .str "monthly"), ("interval", .num "1"), ("monthDay", .num "31")])⟩ := by
      rfl
    have hphrase : phraseOf (trimText "交租 下月31号".toList) =
        some (.month ⟨['交', '租'], [' ', '下', '月', '3', '1', '号'], [], 31⟩) := by
      decide
    have hjune : InMonth saturday.day 24317 := by
      unfold InMonth
      decide
    have hmeant : toDateOnly (monthStart (24317 + 1) + min 31 (monthLength (24317 + 1)) - 1) = "2026-07-31" := by
      decide
    rw [understood_iff hparse hphrase]
    rintro ⟨⟨month, hmonth, hdue⟩, -⟩
    obtain rfl := hmonth.unique hjune
    rw [hmeant] at hdue
    exact absurd hdue (by decide)
  · have hparse : parseNaturalDate "买 周一早 周一" saturday =
        .ok ⟨"买 早 周一", some "2026-06-22", none⟩ := by
      rfl
    have hphrase : phraseOf (trimText "买 周一早 周一".toList) =
        some (.weekday ⟨['买', ' ', '周', '一', '早'], [' ', '周', '一'], [], ⟨false, false, '一'⟩⟩) := by
      decide
    rw [understood_iff hparse hphrase]
    rintro ⟨-, htitle⟩
    exact absurd htitle (by decide)

end ShishiTodo.Tasks
