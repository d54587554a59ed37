import ShishiTodo.Tasks.NaturalDate
import ShishiTodo.Web.Operations

/-!
# The quick add

`parseQuickAdd` of `tasks.ts`: the list, the tags, the mark of importance, the date and the time are taken out of a title one after another. A rule comes only with a date.
-/

namespace ShishiTodo.Tasks

open Lib Native Recurring

/-! ### Marked names -/

/-- `m([^\s m]+)`, for a mark `m`: the name, and what follows it. -/
def nameAt (mark : Char) : List Char → Option (List Char × List Char)
  | [] => none
  | c :: rest =>
      let name := rest.takeWhile fun d => !isSpace d && d != mark
      if c = mark ∧ name ≠ [] then some (name, rest.drop name.length) else none

/-- `(?:^|\s)m([^\s m]+)`; the flag tells whether this is the beginning of the text. -/
def markAt (mark : Char) (start : Bool) (chars : List Char) : Option (List Char × List Char) :=
  (if start then nameAt mark chars else none).or
    (match chars with
    | [] => none
    | c :: rest => if isSpace c then nameAt mark rest else none)

/-- `exec`, of a marked name. -/
def execMark (mark : Char) (before chars : List Char) : Option (Found (List Char)) :=
  match markAt mark before.isEmpty chars with
  | some (name, after) => some ⟨before, chars.take (chars.length - after.length), after, name⟩
  | none =>
      match chars with
      | [] => none
      | c :: rest => execMark mark (before ++ [c]) rest

/-- The matches of the global pattern among the characters that belong to none, with at most so many steps. -/
def marks (mark : Char) : Nat → Bool → List Char → List (Char ⊕ List Char)
  | 0, _, _ => []
  | steps + 1, start, chars =>
      match markAt mark start chars with
      | some (name, after) => .inr name :: marks mark steps false after
      | none =>
          match chars with
          | [] => []
          | c :: rest => .inl c :: marks mark steps false rest

/-- `matchAll`, of the names. -/
def markedNames (mark : Char) (chars : List Char) : List (List Char) :=
  (marks mark (chars.length + 1) true chars).filterMap Sum.getRight?

/-- `replace(…, ' ')`, of every match. -/
def withoutMarks (mark : Char) (chars : List Char) : List Char :=
  (marks mark (chars.length + 1) true chars).map (Sum.elim id fun _ => ' ')

/-! ### Importance -/

/-- `!(?:重要)?` -/
def importantBody : Body Unit := fun chars =>
  (Lib.literal ['!'] chars).flatMap fun rest =>
    (anyOf [['重', '要'], []] rest).map fun rest => ((), rest)

/-- `!(?:重要)?(?=\s|$)`: what follows, which is not taken. -/
def bangAt (chars : List Char) : Option (List Char) :=
  ((importantBody chars).find? fun (_, rest) => rest.head?.all isSpace).map Prod.snd

/-- `replace(/(?:^|\s)!(?:重要)?(?=\s|$)/g, ' ')`, with at most so many steps. -/
def withoutBangs : Nat → Bool → List Char → List Char
  | 0, _, chars => chars
  | _ + 1, _, [] => []
  | steps + 1, start, c :: rest =>
      match (if start then bangAt (c :: rest) else none).or (if isSpace c then bangAt rest else none) with
      | some after => ' ' :: withoutBangs steps false after
      | none => c :: withoutBangs steps false rest

/-! ### The time of day -/

structure TimeWords where
  period : Option (List Char)
  hour : List Char
  minute : Option (List Char)
  deriving DecidableEq, Repr

def periods : List (List Char) :=
  [['凌', '晨'], ['早', '上'], ['上', '午'], ['中', '午'], ['下', '午'], ['傍', '晚'], ['晚', '上']]

/-- A group that may be missing, tried first as present. -/
def perhaps {α : Type} (body : Body α) : Body (Option α) := fun chars =>
  (body chars).map (fun (value, rest) => (some value, rest)) ++ [(none, chars)]

def periodBody : Body (List Char) := fun chars =>
  periods.flatMap fun period => (Lib.literal period chars).map fun rest => (period, rest)

/-- `(凌晨|早上|上午|中午|下午|傍晚|晚上)?\s*(\d{1,2})(?::|点|时)(\d{1,2})?`; fewer spaces never help, a digit has to follow. -/
def timeBody : Body TimeWords := fun chars =>
  (perhaps periodBody chars).flatMap fun (period, rest) =>
    (oneOrTwoDigits (rest.dropWhile isSpace)).flatMap fun (hour, rest) =>
      (anyOf [[':'], ['点'], ['时']] rest).flatMap fun rest =>
        (perhaps oneOrTwoDigits rest).map fun (minute, rest) => (⟨period, hour, minute⟩, rest)

def numberOf (digits : List Char) : Nat := Nat.ofDigitChars 10 digits 0

/-- The hour of the day that the words mean. -/
def hourOf (words : TimeWords) : Nat :=
  let hour := numberOf words.hour
  if words.period = some ['下', '午'] ∨ words.period = some ['傍', '晚'] ∨ words.period = some ['晚', '上'] then
    if hour < 12 then hour + 12 else hour
  else if words.period = some ['中', '午'] ∧ hour < 11 then hour + 12
  else if words.period = some ['凌', '晨'] ∧ hour = 12 then 0
  else hour

def minuteOf (words : TimeWords) : Nat := (words.minute.map numberOf).getD 0

/-! ### The input of a new task -/

/-- The title, the date and the reminder after the time of day was read. -/
structure Timed where
  title : String
  dueOn : Option String
  remindAt : Option String
  deriving DecidableEq, Repr

section

variable (texts : Texts)
  /- `zonedDateTimeToUtc` with the zone of the user, or nothing where it throws. -/
  (toUtc : String → Option String)

def parseTime (natural : NaturalDate) (today : ReferenceDate) : Timed :=
  match exec timeBody natural.title.toList with
  | none => ⟨natural.title, natural.dueOn, none⟩
  | some found =>
      let hour := hourOf found.value
      let minute := minuteOf found.value
      if hour ≤ 23 ∧ minute ≤ 59 then
        let dueOn := natural.dueOn.getD today.text
        let localDateTime :=
          s!"{dueOn}T{padStart 2 (toString (hour : Int))}:{padStart 2 (toString (minute : Int))}"
        ⟨removeText found.matched natural.title.toList, some dueOn, toUtc localDateTime⟩
      else ⟨natural.title, natural.dueOn, none⟩

def parseQuickAdd (text : String) (today : ReferenceDate) (lists : List TaskList)
    (fallbackListId : Option String) (timeZone : String) : Thrown NewTask := do
  let listNamed (name : List Char) := lists.find? fun list => list.name = String.ofList name
  let (title, listId) := match execMark '@' [] text.toList with
    | some found =>
        match listNamed found.value with
        | some list => (tidy (replaceFirst found.matched text.toList), some list.id)
        | none => (text.toList, fallbackListId)
    | none => (text.toList, fallbackListId)
  let names := markedNames '#' title
  let listId := names.foldl (fun listId name => ((listNamed name).map TaskList.id).or listId) listId
  let tags := Web.normalizeTags texts
    ((names.filter fun name => (listNamed name).isNone).map String.ofList)
  let title := withoutMarks '#' title
  let important := (exec importantBody title).isSome
  let title := tidy (withoutBangs (title.length + 1) true title)
  let natural ← parseNaturalDate (String.ofList title) today
  let timed := parseTime toUtc natural today
  return {
    title := timed.title
    listId := listId
    note := none
    tags := tags
    important := some important
    dueOn := timed.dueOn
    remindAt := timed.remindAt
    remindTimezone := timed.remindAt.map fun _ => timeZone
    recurrence := natural.recurrence
    rank := none
    planDate := none }

end

/-! ### A rule comes with a date -/

/-- Whether there is a due date: an empty text is none. -/
def hasDate (dueOn : Option String) : Bool := dueOn.any fun dueOn => !dueOn.isEmpty

theorem hasDate_isoDate (days : Int) : hasDate (some (isoDate days)) = true := by
  simp [hasDate, isoDate, toString]

theorem hasDate_of_isDateOnly {text : String} (h : Web.isDateOnly text = true) : hasDate (some text) = true := by
  have hnone : Web.isDateOnly "" = false := by decide
  by_contra hempty
  rw [hasDate, Option.any_some, Bool.not_eq_true, Bool.not_eq_false', String.isEmpty_iff] at hempty
  rw [hempty, hnone] at h
  cases h

theorem hasDate_today (today : ReferenceDate) : hasDate (some today.text) = true :=
  hasDate_of_isDateOnly ((isDateOnly_iff today.text).mpr ⟨today.day, today.dated, rfl⟩)

theorem hasDate_everyDay (title : List Char) (today : ReferenceDate) :
    (everyDay title today).recurrence.isSome → hasDate (everyDay title today).dueOn = true := by
  unfold everyDay
  split
  · exact fun _ => hasDate_today today
  · split
    · exact fun _ => hasDate_today today
    · exact nofun

theorem hasDate_relativeDay (title : List Char) (today : ReferenceDate) (patterns : List (List Char × Int)) :
    (relativeDay title today patterns).recurrence.isSome →
      hasDate (relativeDay title today patterns).dueOn = true := by
  induction patterns with
  | nil => exact hasDate_everyDay title today
  | cons pattern rest ih =>
      obtain ⟨pattern, offset⟩ := pattern
      rw [relativeDay]
      split
      · exact nofun
      · exact ih

theorem hasDate_nextMonth (title : List Char) (today : ReferenceDate) :
    (nextMonth title today).recurrence.isSome → hasDate (nextMonth title today).dueOn = true := by
  unfold nextMonth
  split
  · dsimp only
    split
    · exact fun _ => hasDate_isoDate _
    · exact hasDate_relativeDay title today rules
  · exact hasDate_relativeDay title today rules

/-- Every phrase that gives a rule gives a date. -/
theorem hasDate_parseNaturalDate {text : String} {today : ReferenceDate} {natural : NaturalDate}
    (h : parseNaturalDate text today = .ok natural) (hrule : natural.recurrence.isSome) :
    hasDate natural.dueOn = true := by
  unfold parseNaturalDate at h
  dsimp only at h
  split at h
  · split at h
    · rw [← Except.ok.inj h] at hrule ⊢
      exact hasDate_nextMonth _ _ hrule
    · obtain ⟨current, -, h⟩ := bind_eq_ok_iff.mp h
      rw [← Except.ok.inj h]
      exact hasDate_isoDate _
  · rw [← Except.ok.inj h] at hrule ⊢
    exact hasDate_nextMonth _ _ hrule

/-- The time of day keeps a date that is there. -/
theorem hasDate_parseTime (toUtc : String → Option String) {natural : NaturalDate} {today : ReferenceDate}
    (h : hasDate natural.dueOn = true) : hasDate (parseTime toUtc natural today).dueOn = true := by
  unfold parseTime
  split
  · exact h
  · dsimp only
    split
    · cases hdue : natural.dueOn with
      | none => exact hasDate_today today
      | some dueOn =>
          rw [hdue] at h
          exact h
    · exact h

theorem hasDate_parseQuickAdd {texts : Texts} {toUtc : String → Option String} {text timeZone : String}
    {today : ReferenceDate} {lists : List TaskList} {fallbackListId : Option String} {input : NewTask}
    (h : parseQuickAdd texts toUtc text today lists fallbackListId timeZone = .ok input)
    (hrule : input.recurrence.isSome) : hasDate input.dueOn = true := by
  unfold parseQuickAdd at h
  obtain ⟨natural, hnatural, h⟩ := bind_eq_ok_iff.mp h
  cases h
  exact hasDate_parseTime toUtc (hasDate_parseNaturalDate hnatural hrule)

end ShishiTodo.Tasks
