import ShishiTodo.Recurring.Dates
import ShishiTodo.Native.Models
import Mathlib.Data.Rat.Floor
import Mathlib.Data.List.Sort

/-!
# Recurrence rules

`recurrence.ts`: a rule as it stands in a task, made regular, and the occurrence that follows a completed one. The rule is JSON, and a member of another type than the one its name has counts as `NaN`.
-/

namespace ShishiTodo.Recurring

open Lib Native

/-! ### Numbers of a rule -/

/-- The exponent of a number, with its sign. -/
def exponent : List Char → Option Int
  | [] => some 0
  | e :: '-' :: digits => if e = 'e' ∨ e = 'E' then (jsNumber digits).map Int.neg else none
  | e :: '+' :: digits => if e = 'e' ∨ e = 'E' then jsNumber digits else none
  | e :: digits => if e = 'e' ∨ e = 'E' then jsNumber digits else none

/-- The number that a literal of JSON stands for. -/
def decimal (literal : String) : Option Rat := do
  let (sign, chars) := match literal.toList with
    | '-' :: rest => ((-1 : Rat), rest)
    | chars => (1, chars)
  let whole := chars.takeWhile isDigit
  let rest := chars.dropWhile isDigit
  let (fraction, rest) := match rest with
    | '.' :: rest => (rest.takeWhile isDigit, rest.dropWhile isDigit)
    | rest => ([], rest)
  let digits ← jsNumber (whole ++ fraction)
  let exponent ← exponent rest
  return sign * digits * (10 : Rat) ^ (exponent - fraction.length)

/-- A member of an object, unless it is `null`. -/
def given (rule : Json) (field : String) : Option Json :=
  (rule.get field).filter fun value => value ≠ .null

def number : Json → Option Rat
  | .num literal => decimal literal
  | _ => none

/-- The value, when `Number.isInteger` holds of it. -/
def integer (value : Json) : Option Int :=
  ((number value).filter fun value => value.den = 1).map Rat.num

/-! ### Rules -/

inductive RecurrenceFrequency where
  | daily | weekdays | weekly | monthly | yearly
  deriving DecidableEq, Repr

def RecurrenceFrequency.parse : String → Option RecurrenceFrequency
  | "daily" => some .daily
  | "weekdays" => some .weekdays
  | "weekly" => some .weekly
  | "monthly" => some .monthly
  | "yearly" => some .yearly
  | _ => none

/-- A rule that `normalizeRecurrence` lets through. No interval is `NaN`, and no frequency is one that `switch` does not know. -/
structure Recurrence where
  frequency : Option RecurrenceFrequency
  interval : Option Int
  /-- The last day of the week comes last. -/
  weekdays : Option (List Int)
  monthDay : Option Int
  month : Option Int
  fromCompletion : Bool
  deriving DecidableEq, Repr

def frequencyOf (rule : Json) : Option RecurrenceFrequency :=
  match rule.get "frequency" with
  | some (.str text) => RecurrenceFrequency.parse text
  | _ => none

/-- `anchorMode === 'completion'`. -/
def fromCompletion (rule : Json) : Bool := rule.get "anchorMode" = some (.str "completion")

/-- `Math.max(1, Math.min(365, Math.floor(input.interval ?? 1)))`. -/
def intervalOf (rule : Json) : Option Int :=
  match given rule "interval" with
  | none => some 1
  | some value => (number value).map fun interval => max 1 (min 365 interval.floor)

def weekdaysOf (rule : Json) : Thrown (List Int) := do
  let days : List Int := match given rule "weekdays" with
    | some (.arr items) => items.filterMap integer
    | _ => []
  let weekdays := (days.dedup.filter fun day => 1 ≤ day ∧ day ≤ 7).insertionSort
    fun left right => left ≤ right
  refuseIf weekdays.isEmpty (.invalidRecurrence "Weekly rules need at least one weekday")
  return weekdays

/-- `input.monthDay ?? 1` and `input.month ?? 1`, in their range. -/
def calendarNumber (rule : Json) (field : String) (last : Int) (message : String) : Thrown Int :=
  match given rule field with
  | none => .ok 1
  | some value =>
      match (integer value).filter fun value => 1 ≤ value ∧ value ≤ last with
      | some value => .ok value
      | none => .error (.invalidRecurrence message)

def monthDayOf (rule : Json) : Thrown Int :=
  calendarNumber rule "monthDay" 31 "Month day must be between 1 and 31"

def monthOf (rule : Json) : Thrown Int :=
  calendarNumber rule "month" 12 "Month must be between 1 and 12"

def normalizeRecurrence (rule : Json) : Thrown Recurrence := do
  let recurrence : Recurrence := {
    frequency := frequencyOf rule
    interval := intervalOf rule
    weekdays := none
    monthDay := none
    month := none
    fromCompletion := fromCompletion rule }
  match recurrence.frequency with
  | some .weekly => do
      let weekdays ← weekdaysOf rule
      return { recurrence with weekdays := some weekdays }
  | some .monthly => do
      let monthDay ← monthDayOf rule
      return { recurrence with monthDay := some monthDay }
  | some .yearly => do
      let monthDay ← monthDayOf rule
      let month ← monthOf rule
      return { recurrence with monthDay := some monthDay, month := some month }
  | some .daily | some .weekdays | none => return recurrence

/-! ### The next occurrence -/

/-- `Number(text.slice(start, end))`. -/
def numberAt (text : String) (start length : Nat) : Option Int :=
  jsNumber ((text.toList.drop start).take length)

/-- The first working day from the candidate on. -/
def nextWeekday : Nat → String → Thrown String
  | 0, _ => .error (.invalidRecurrence "Unable to find a weekday")
  | left + 1, candidate => do
      let day ← weekdayIso candidate
      if day ≤ 5 then return candidate
      else do
        let candidate ← addDays candidate (some 1)
        nextWeekday left candidate

/-- Interval after interval, the first month that has the day. -/
def nextMonthly (day interval : Option Int) : Nat → String → Thrown String
  | 0, _ => .error (.invalidRecurrence "Unable to find a monthly occurrence")
  | left + 1, candidate =>
      let candidate := addMonthsClamped candidate interval
      match dateNumbers candidate, day with
      | some year :: some month :: _, some day =>
          if (lastDay year month).any fun lastDay => day ≤ lastDay then
            .ok (spelled year month day)
          else nextMonthly (some day) interval left candidate
      | _, day => nextMonthly day interval left candidate

/-- Interval after interval, the first year whose month has the day. -/
def nextYearly (month day interval : Int) : Nat → Int → Thrown String
  | 0, _ => .error (.invalidRecurrence "Unable to find a yearly occurrence")
  | left + 1, year =>
      if (lastDay year month).any fun lastDay => day ≤ lastDay then .ok (spelled year month day)
      else nextYearly month day interval left (year + interval)

/-- The next of the weekdays, in the same week or `interval` weeks on. -/
def nextWeekly (weekdays : List Int) (interval : Option Int) (base : String) : Thrown String := do
  let current ← weekdayIso base
  match weekdays.find? fun day => current < day with
  | some next => addDays base (some (next - current))
  | none => addDays base (interval.bind fun interval =>
      weekdays.head?.map fun first => 7 * interval - current + first)

def nextOccurrence (rawRule : Json) (fromDate completionDate : String) : Thrown String := do
  let rule ← normalizeRecurrence rawRule
  let base := if rule.fromCompletion && !completionDate.isEmpty then completionDate else fromDate
  match rule.frequency with
  | some .daily => addDays base rule.interval
  | some .weekdays => do
      let candidate ← addDays base (some 1)
      nextWeekday 366 candidate
  | some .weekly => do
      let weekdays ← match rule.weekdays with
        | some weekdays => .ok weekdays
        | none => (weekdayIso base).map fun day => [day]
      nextWeekly weekdays rule.interval base
  | some .monthly => nextMonthly (rule.monthDay.or (numberAt base 8 2)) rule.interval 120 base
  | some .yearly =>
      match rule.month.or (numberAt base 5 2), rule.monthDay.or (numberAt base 8 2),
          rule.interval, numberAt base 0 4 with
      | some month, some day, some interval, some year =>
          nextYearly month day interval 400 (year + interval)
      | _, _, _, _ => .error (.invalidRecurrence "Unable to find a yearly occurrence")
  -- Nothing is returned, and `occurrenceKeyFor` refuses it.
  | none => .error (.invalidDate "undefined")

/-- The key of an occurrence is its date. -/
def occurrenceKeyFor (dueOn : String) : Thrown String := do
  let _ ← parseDateOnly dueOn
  return dueOn

/-- The next instance of a task that is completed, if it repeats. -/
def nextRecurringTask (task : Task) (completedAt id now : String) : Thrown (Option Task) :=
  match task.recurrence, task.dueOn with
  | none, _ | some .null, _ | _, none => .ok none
  | some rule, some due =>
      if due.isEmpty ∨ task.status ≠ .completed then .ok none
      else do
        let anchor := if fromCompletion rule then completedAt else due
        let dueOn ← nextOccurrence rule anchor completedAt
        let occurrenceKey ← occurrenceKeyFor dueOn
        return some { task with
          id := id
          status := .open
          completedAt := none
          dueOn := some dueOn
          remindAt := none
          occurrenceKey := some occurrenceKey
          seriesId := some (task.seriesId.getD task.id)
          createdAt := now
          updatedAt := now
          deletedAt := none }

/-- The next instance has the identifier it was given and belongs to the series of the task. -/
theorem nextRecurringTask_eq_some {task next : Task} {completedAt id now : String}
    (h : nextRecurringTask task completedAt id now = .ok (some next)) :
    next.id = id ∧ next.seriesId = some (task.seriesId.getD task.id) ∧
      next.occurrenceKey = next.dueOn ∧ next.dueOn.isSome := by
  unfold nextRecurringTask at h
  split at h
  · cases h
  · cases h
  · cases h
  · split at h
    · cases h
    · obtain ⟨dueOn, -, h⟩ := bind_eq_ok_iff.mp h
      obtain ⟨occurrenceKey, hkey, h⟩ := bind_eq_ok_iff.mp h
      obtain ⟨_, -, hkey⟩ := bind_eq_ok_iff.mp hkey
      cases hkey
      cases h
      exact ⟨rfl, rfl, rfl, rfl⟩

example : nextOccurrence (.obj [("frequency", .str "monthly"), ("monthDay", .num "31")]) "2026-01-31"
    "2026-02-03" = .ok "2026-03-31" := by
  decide +kernel

end ShishiTodo.Recurring
