import ShishiTodo.Json

/-!
# Domain values

The values that columns hold and JSON text spells: identifiers, calendar dates, instants, the enumerations of `domain.rs`, and the text tests of the validators. Parsing and printing belong to crates and to PostgreSQL, so they come in through `Env`.
-/

namespace ShishiTodo

structure Uuid where
  bits : BitVec 128
  deriving DecidableEq, Repr

namespace Uuid

def nil : Uuid := ⟨0⟩

def isNil (id : Uuid) : Bool := id.bits == 0

/-- PostgreSQL compares identifiers by their bytes, the most significant first. -/
def lt (left right : Uuid) : Bool := left.bits.toNat < right.bits.toNat

end Uuid

/-- A calendar date, as days from 1970-01-01. -/
structure NaiveDate where
  days : Int
  deriving DecidableEq, Repr

/-- The proleptic Gregorian year of a date. -/
def NaiveDate.year (date : NaiveDate) : Int :=
  let shifted := date.days + 719468
  let era := shifted.fdiv 146097
  let dayOfEra := shifted - era * 146097
  let yearOfEra := (dayOfEra - dayOfEra / 1460 + dayOfEra / 36524 - dayOfEra / 146096) / 365
  let dayOfYear := dayOfEra - (365 * yearOfEra + yearOfEra / 4 - yearOfEra / 100)
  -- The shifted year starts in March, so January and February belong to the next one.
  yearOfEra + era * 400 + (if (5 * dayOfYear + 2) / 153 < 10 then 0 else 1)

/-- An instant, as nanoseconds from 1970-01-01T00:00:00Z. -/
structure Instant where
  nanos : Int
  deriving DecidableEq, Repr

namespace Instant

def dateNaive (instant : Instant) : NaiveDate := ⟨instant.nanos.fdiv 86400000000000⟩

/-- 2000-01-01T00:00:00Z, from which PostgreSQL counts. -/
def columnEpoch : Int := 946684800000000000

/-- What a `TIMESTAMPTZ` column keeps of an instant: whole microseconds from its epoch, the rest cut off towards it. -/
def toColumn (instant : Instant) : Instant :=
  ⟨columnEpoch + (instant.nanos - columnEpoch).tdiv 1000 * 1000⟩

theorem toColumn_toColumn (instant : Instant) : instant.toColumn.toColumn = instant.toColumn := by
  have hmul : ((instant.nanos - columnEpoch).tdiv 1000 * 1000).tdiv 1000 =
      (instant.nanos - columnEpoch).tdiv 1000 := Int.mul_tdiv_cancel _ (by decide)
  simp only [toColumn]
  rw [show columnEpoch + (instant.nanos - columnEpoch).tdiv 1000 * 1000 - columnEpoch =
    (instant.nanos - columnEpoch).tdiv 1000 * 1000 by omega, hmul]

end Instant

inductive EntityType where
  | list | task | step | dayPlan
  deriving DecidableEq, Repr

def EntityType.asStr : EntityType → String
  | .list => "list"
  | .task => "task"
  | .step => "step"
  | .dayPlan => "day_plan"

def EntityType.parse : String → Option EntityType
  | "list" => some .list
  | "task" => some .task
  | "step" => some .step
  | "day_plan" => some .dayPlan
  | _ => none

@[simp] theorem EntityType.parse_asStr (entity : EntityType) :
    EntityType.parse entity.asStr = some entity := by
  cases entity <;> rfl

/-- Where an entity is found: its type and its id. -/
abbrev EntityKey := EntityType × Uuid

inductive MutationKind where
  | create | patch | delete | restore
  deriving DecidableEq, Repr

def MutationKind.asStr : MutationKind → String
  | .create => "create"
  | .patch => "patch"
  | .delete => "delete"
  | .restore => "restore"

inductive TaskStatus where
  | open | completed
  deriving DecidableEq, Repr

def TaskStatus.asStr : TaskStatus → String
  | .open => "open"
  | .completed => "completed"

def TaskStatus.parse : String → Option TaskStatus
  | "open" => some .open
  | "completed" => some .completed
  | _ => none

@[simp] theorem TaskStatus.parse_asStr (status : TaskStatus) :
    TaskStatus.parse status.asStr = some status := by
  cases status <;> rfl

/-- How a type is read from JSON text and written to it. -/
structure Codec (α : Type) where
  parse : String → Option α
  render : α → String

/-- What is printed is read back. -/
def Codec.RoundTrips {α : Type} (codec : Codec α) : Prop :=
  ∀ value, codec.parse (codec.render value) = some value

/-- What the code takes from crates, from PostgreSQL and from the Unicode tables. -/
structure Env where
  /-- The `uuid` crate; PostgreSQL prints an identifier the same way. -/
  uuid : Codec Uuid
  /-- `chrono`'s reading and printing of a date. -/
  date : Codec NaiveDate
  /-- `chrono`'s reading and printing of an instant. -/
  instant : Codec Instant
  /-- How `jsonb_build_object` prints a `DATE`. -/
  dateColumn : NaiveDate → String
  /-- How `jsonb_build_object` prints a `TIMESTAMPTZ`. -/
  instantColumn : Instant → String
  /-- Whether `chrono_tz` knows the name. -/
  isTimezone : String → Bool
  /-- `str::to_lowercase`. -/
  toLowercase : String → String

/-! ### Text -/

/-- `char::is_whitespace`: the Unicode property `White_Space`. -/
def isWhitespace (c : Char) : Bool :=
  let n := c.toNat
  (9 ≤ n && n ≤ 13) || n == 0x20 || n == 0x85 || n == 0xA0 || n == 0x1680 ||
    (0x2000 ≤ n && n ≤ 0x200A) || n == 0x2028 || n == 0x2029 || n == 0x202F || n == 0x205F ||
    n == 0x3000

def trimChars (chars : List Char) : List Char :=
  ((chars.dropWhile isWhitespace).reverse.dropWhile isWhitespace).reverse

/-- `str::trim`. -/
def trim (text : String) : String := String.ofList (trimChars text.toList)

def containsNul (text : String) : Bool := text.toList.any fun c => c.toNat == 0

end ShishiTodo
