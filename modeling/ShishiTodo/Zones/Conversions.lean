import ShishiTodo.Recurring.DateTexts
import ShishiTodo.Lib.Offsets

/-!
# Local times and instants

`dates.ts`: `zonedDateTimeToUtc` takes a local time for one in UTC, sees what the zone shows at that instant, and corrects the guess by the difference, three times at most. `instantToLocalInput` goes the other way. The zone is what `Intl.DateTimeFormat` makes of its name: an offset for each instant.
-/

namespace ShishiTodo.Zones

open Lib Lib.Calendar Lib.Offsets Recurring

/-! ### Zones -/

def msPerDay : Int := 86400000

/-- A time zone. Instants are time values in milliseconds, offsets are in seconds. -/
structure Zone where
  offset : Int → Int
  lessThanDay : ∀ t, -86400 < offset t ∧ offset t < 86400
  smallJumps : ∀ t, |offset t - offset (t - 1)| < 86400
  apart : ∀ s t, s < t → Jumps offset s → Jumps offset t → s + 2 * msPerDay < t

namespace Zone

variable (zone : Zone)

/-- What the clocks of the zone show, as a time value of UTC. -/
def wall (t : Int) : Int := t + 1000 * zone.offset t

end Zone

/-! ### The parts of a local time -/

/-- The numbers that `formatToParts` shows. -/
structure Parts where
  year : Int
  month : Int
  day : Int
  hour : Int
  minute : Int
  second : Int
  deriving DecidableEq, Repr

/-- The years before the first are counted backwards. -/
def shownYear (year : Int) : Int := if year ≤ 0 then 1 - year else year

def formatToParts (zone : Zone) (t : Int) : Parts :=
  let wall := zone.wall t
  let (year, month, day) := Codecs.civil ⟨wall / msPerDay⟩
  { year := shownYear year
    month := month
    day := day
    hour := wall % msPerDay / 3600000
    minute := wall % msPerDay / 60000 % 60
    second := wall % msPerDay / 1000 % 60 }

/-- `Date.UTC` with a time of the day; none for `NaN`. -/
def utcTime (year month day hour minute second : Int) : Option Int := do
  let days ← utc year month day
  let time := days * msPerDay + hour * 3600000 + minute * 60000 + second * 1000
  if -8640000000000000 ≤ time ∧ time ≤ 8640000000000000 then some time else none

/-! ### The two conversions -/

/-- `/^(\d{4})-(\d{2})-(\d{2})T(\d{2}):(\d{2})$/` -/
def readLocal : List Char → Option (Int × Int × Int × Int × Int)
  | y₁ :: y₂ :: y₃ :: y₄ :: '-' :: m₁ :: m₂ :: '-' :: d₁ :: d₂ :: 'T' :: h₁ :: h₂ :: ':' :: n₁ :: n₂ :: [] => do
      let year ← jsNumber [y₁, y₂, y₃, y₄]
      let month ← jsNumber [m₁, m₂]
      let day ← jsNumber [d₁, d₂]
      let hour ← jsNumber [h₁, h₂]
      let minute ← jsNumber [n₁, n₂]
      return (year, month, day, hour, minute)
  | _ => none

/-- The loop; an invalid date throws. -/
def corrections (zone : Zone) (utcGuess : Int) : Nat → Int → Option Int
  | 0, timestamp => some timestamp
  | left + 1, timestamp => do
      let parts := formatToParts zone timestamp
      let represented ← utcTime parts.year (parts.month - 1) parts.day parts.hour parts.minute parts.second
      let corrected := utcGuess - (represented - timestamp)
      if |utcGuess - represented| < 1000 then some corrected else corrections zone utcGuess left corrected

inductive ZoneError where
  | domain (error : DomainError)
  | rangeError

def zonedDateTimeToUtc (localDateTime : String) (zone : Zone) : Except ZoneError Int :=
  match readLocal localDateTime.toList with
  | none => .error (.domain ⟨"INVALID_DATE", "Expected YYYY-MM-DDTHH:mm"⟩)
  | some (y, mo, d, h, mi) =>
      match (utcTime y (mo - 1) d h mi 0).bind fun utcGuess => corrections zone utcGuess 3 utcGuess with
      | none => .error .rangeError
      | some instant => .ok instant

/-- `numeric` is not padded, `2-digit` is. -/
def localText (parts : Parts) : String :=
  s!"{parts.year}-{padStart 2 (toString parts.month)}-{padStart 2 (toString parts.day)}T{padStart 2 (toString parts.hour)}:{padStart 2 (toString parts.minute)}"

/-- None stands for `null` and for an invalid date. -/
def instantToLocalInput (zone : Zone) : Option Int → String
  | none => ""
  | some instant => localText (formatToParts zone instant)

end ShishiTodo.Zones
