import ShishiTodo.Codecs
import ShishiTodo.Lib.Except
import ShishiTodo.Web.Outbox

/-!
# Calendar dates in the client

`dates.ts`: the text of a date, and arithmetic on it through the UTC calendar of JavaScript. A day is counted from 1970-01-01; the parts of a text that spell no number are `NaN`, and so is everything computed from them.
-/

namespace ShishiTodo.Recurring

open Lib

structure DomainError where
  code : String
  message : String
  deriving DecidableEq, Repr

namespace DomainError

def invalidDate (value : String) : DomainError :=
  ⟨"INVALID_DATE", s!"Invalid calendar date: {value}"⟩

def invalidRecurrence (message : String) : DomainError := ⟨"INVALID_RECURRENCE", message⟩

end DomainError

abbrev Thrown (α : Type) := Except DomainError α

/-! ### Numbers -/

def isDigit (c : Char) : Bool := 48 ≤ c.toNat && c.toNat ≤ 57

/-- `Number(text)`, of digits; the empty text is zero. -/
def jsNumber (chars : List Char) : Option Int :=
  if chars.all isDigit then some (Nat.ofDigitChars 10 chars 0) else none

/-- `value.split('-').map(Number)`. -/
def dateNumbers (value : String) : List (Option Int) := (value.toList.splitOn '-').map jsNumber

/-- `text.padStart(width, '0')`. -/
def padStart (width : Nat) (text : String) : String :=
  String.ofList (List.replicate (width - text.length) '0' ++ text.toList)

/-! ### The UTC calendar -/

/-- `Date.UTC` takes a year below 100 for one of the twentieth century. -/
def fullYear (year : Int) : Int := if 0 ≤ year ∧ year ≤ 99 then 1900 + year else year

/-- `Date.UTC`: the month counts from zero, and both month and day may run out of their range. -/
def utc (year month day : Int) : Option Int :=
  let days := Codecs.daysFromCivil (fullYear year + month.fdiv 12) ((month.fmod 12).toNat + 1) 1 + day - 1
  if -100000000 ≤ days ∧ days ≤ 100000000 then some days else none

/-- `new Date(Date.UTC(year, month, 0)).getUTCDate()`: the last day of the month before. -/
def lastDay (year month : Int) : Option Int :=
  (utc year month 0).map fun days => ((Codecs.civil ⟨days⟩).2.2 : Int)

def spelled (year month day : Int) : String :=
  s!"{padStart 4 (toString year)}-{padStart 2 (toString month)}-{padStart 2 (toString day)}"

def toDateOnly (days : Int) : String :=
  let (year, month, day) := Codecs.civil ⟨days⟩
  spelled year month day

/-- What `toDateOnly` makes of an invalid date. -/
def notADate : String := "NaN-NaN-NaN"

def parseDateOnly (value : String) : Thrown Int :=
  match (Codecs.readDate value.toList).filter fun _ => Web.isDateOnly value with
  | some date => .ok date.days
  | none => .error (.invalidDate value)

/-- The amount may be `NaN`. -/
def addDays (value : String) (amount : Option Int) : Thrown String := do
  let days ← parseDateOnly value
  return amount.elim notADate fun amount => toDateOnly (days + amount)

/-- The last day of a shorter month stands for the day. The text is not checked first. -/
def addMonthsClamped (value : String) (amount : Option Int) : String :=
  match dateNumbers value, amount with
  | some year :: some month :: some day :: _, some amount =>
      let moved := do
        let target ← utc year (month - 1 + amount) 1
        let (targetYear, targetMonth, _) := Codecs.civil ⟨target⟩
        let lastDay ← lastDay targetYear targetMonth
        return toDateOnly (target + min day lastDay - 1)
      moved.getD notADate
  | _, _ => notADate

/-- Monday is 1 and Sunday is 7. -/
def weekdayIso (value : String) : Thrown Int := do
  let days ← parseDateOnly value
  let day := (days + 4).fmod 7
  return if day = 0 then 7 else day

example : addMonthsClamped "2026-01-31" (some 1) = "2026-02-28" := by decide

end ShishiTodo.Recurring
