import ShishiTodo.Lib.Phrases
import ShishiTodo.Recurring.DateTexts

/-!
# Dates in the words of a title

`parseNaturalDate` of `tasks.ts`: the phrases that give a new task its date, and its rule, are looked for in the title and taken out of it. The phrase of a weekday comes first, then that of a day of the next month, then the others.
-/

namespace ShishiTodo.Tasks

open Lib Lib.Calendar Recurring

/-! ### Dates -/

/-- A date that `isDateOnly` accepts. -/
structure ReferenceDate where
  day : Int
  dated : Dated day

def ReferenceDate.text (today : ReferenceDate) : String := toDateOnly today.day

/-- `date.toISOString().slice(0, 10)`: a year beyond 9999 is written with a sign and six digits. -/
def isoDate (days : Int) : String :=
  let (year, month, day) := Codecs.civil ⟨days⟩
  let yearText :=
    if 0 ≤ year ∧ year ≤ 9999 then padStart 4 (toString year)
    else (if year < 0 then "-" else "+") ++ padStart 6 (toString (year.natAbs : Int))
  String.ofList ((s!"{yearText}-{padStart 2 (toString (month : Int))}-{padStart 2 (toString (day : Int))}T00:00:00.000Z").toList.take 10)

/-- `date.setUTCMonth(month, day)`: the month counts from zero and may run out of its range. -/
def setUTCMonth (days month day : Int) : Int :=
  let (year, _, _) := Codecs.civil ⟨days⟩
  Codecs.daysFromCivil (year + month.fdiv 12) ((month.fmod 12).toNat + 1) 1 + day - 1

/-- `date.getUTCMonth()`. -/
def getUTCMonth (days : Int) : Int := ((Codecs.civil ⟨days⟩).2.1 : Int) - 1

def offsetDate (today : ReferenceDate) (offset : Int) : String := isoDate (today.day + offset)

/-! ### Phrases -/

structure WeekdayWords where
  every : Bool
  next : Bool
  weekday : Char
  deriving DecidableEq, Repr

def weekdayNames : List (List Char) := [['周'], ['星', '期'], ['礼', '拜']]

def weekdayChars : List Char := ['一', '二', '三', '四', '五', '六', '日', '天']

/-- `(每)?(下)?(?:周|星期|礼拜)([一二三四五六日天])` -/
def weekdayBody : Body WeekdayWords := fun chars =>
  (optional '每' chars).flatMap fun (every, rest) =>
    (optional '下' rest).flatMap fun (next, rest) =>
      (anyOf weekdayNames rest).flatMap fun rest =>
        (oneOf weekdayChars rest).map fun (weekday, rest) => (⟨every, next, weekday⟩, rest)

def weekdayTarget : Char → Int
  | '一' => 1
  | '二' => 2
  | '三' => 3
  | '四' => 4
  | '五' => 5
  | '六' => 6
  | '日' => 7
  | '天' => 7
  | _ => 0

/-- `\d{1,2}` -/
def oneOrTwoDigits : Body (List Char)
  | [] => []
  | c :: rest =>
      if isDigit c then
        (match rest with
          | [] => []
          | d :: others => if isDigit d then [([c, d], others)] else []) ++ [([c], rest)]
      else []

/-- `下月(\d{1,2})(?:号|日)?`; the value is what `Number.parseInt` reads. -/
def monthBody : Body Int := fun chars =>
  (literal ['下', '月'] chars).flatMap fun rest =>
    (oneOrTwoDigits rest).flatMap fun (digits, rest) =>
      (anyOf [['号'], ['日'], []] rest).map fun rest => ((Nat.ofDigitChars 10 digits 0 : Int), rest)

/-! ### The title and its date -/

structure NaturalDate where
  title : String
  dueOn : Option String
  recurrence : Option Json
  deriving DecidableEq

/-- `remove`, of a text. -/
def removeText (matched title : List Char) : String := String.ofList (tidy (replaceFirst matched title))

/-- `remove`, of the pattern that was found. -/
def removeFound {α : Type} (found : Found α) : String :=
  String.ofList (tidy (found.before ++ ' ' :: found.after))

/-- The branches `每天` and `每个工作日`. -/
def everyDay (title : List Char) (today : ReferenceDate) : NaturalDate :=
  match exec (literalBody ['每', '天']) title with
  | some found =>
      ⟨removeFound found, some today.text, some (.obj [("frequency", .str "daily"), ("interval", .num "1")])⟩
  | none =>
      match exec (literalBody ['每', '个', '工', '作', '日']) title with
      | some found =>
          ⟨removeFound found, some today.text,
            some (.obj [("frequency", .str "weekdays"), ("interval", .num "1")])⟩
      | none => ⟨String.ofList title, none, none⟩

def rules : List (List Char × Int) := [(['今', '天'], 0), (['明', '天'], 1), (['后', '天'], 2)]

/-- The loop over `rules`. -/
def relativeDay (title : List Char) (today : ReferenceDate) : List (List Char × Int) → NaturalDate
  | [] => everyDay title today
  | (pattern, offset) :: rest =>
      match exec (literalBody pattern) title with
      | some found => ⟨removeFound found, some (offsetDate today offset), none⟩
      | none => relativeDay title today rest

/-- From `monthMatch` on. -/
def nextMonth (title : List Char) (today : ReferenceDate) : NaturalDate :=
  match exec monthBody title with
  | some found =>
      let day := found.value
      if 1 ≤ day ∧ day ≤ 31 then
        let base := setUTCMonth today.day (getUTCMonth today.day + 1) (min day 28)
        ⟨removeText found.matched title, some (isoDate base),
          some (.obj [("frequency", .str "monthly"), ("interval", .num "1"),
            ("monthDay", .num (toString day))])⟩
      else relativeDay title today rules
  | none => relativeDay title today rules

def parseNaturalDate (text : String) (today : ReferenceDate) : Thrown NaturalDate := do
  let title := trimText text.toList
  match exec weekdayBody title with
  | some found =>
      let target := weekdayTarget found.value.weekday
      if target = 0 then return nextMonth title today
      let current ← weekdayIso today.text
      let ahead := 7 - current + target
      let offset :=
        if found.value.next then if ahead ≤ 0 then ahead + 7 else ahead
        else (target - current + 7).tmod 7
      let weekly : Json := .obj [("frequency", .str "weekly"), ("interval", .num "1"),
        ("weekdays", .arr [.num (toString target)])]
      return ⟨removeText found.matched title, some (offsetDate today offset),
        if found.value.every then some weekly else none⟩
  | none => return nextMonth title today

end ShishiTodo.Tasks
