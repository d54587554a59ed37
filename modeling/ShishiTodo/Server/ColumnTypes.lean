import ShishiTodo.Server.Sync

/-!
# Column types

What PostgreSQL's types hold, and the sync endpoint over typed statements: a statement that binds a value outside its column's type fails, before any constraint is looked at, with an error of no integrity class. Such an error ends the request, and every later attempt at the same batch.
-/

namespace ShishiTodo

open Lib

/-! ### Ranges -/

/-- `TEXT` holds every character but NUL. -/
def fitsText (text : String) : Bool := !containsNul text

/-- `VARCHAR(maxChars)`. -/
def fitsVarchar (maxChars : Nat) (text : String) : Bool :=
  fitsText text && decide (text.length ≤ maxChars)

/-- The last `DATE` is 5874897-12-31. -/
def NaiveDate.beforeEnd (date : NaiveDate) : Bool := decide (date.days < 2145042906)

/-- `DATE`, from 4714-11-24 BC on. -/
def fitsDate (date : NaiveDate) : Bool := decide (-2440588 ≤ date.days) && date.beforeEnd

/-- The last `TIMESTAMPTZ` is in the year 294276. -/
def Instant.beforeEnd (instant : Instant) : Bool :=
  decide (instant.toColumn.nanos < 106762940 * 86400000000000)

/-- `TIMESTAMPTZ`, from 4714-11-24 BC on, in whole microseconds. -/
def fitsTimestamptz (instant : Instant) : Bool :=
  decide (-2440588 * 86400000000000 ≤ instant.toColumn.nanos) && instant.beforeEnd

/-- `JSONB` has no NUL in a string or a key. Its numbers hold every number of `serde_json`. -/
def fitsJsonb (value : Json) : Bool := !jsonContainsNul value

def ListValues.fits (values : ListValues) : Bool :=
  fitsVarchar 120 values.name && values.color.all fitsText && values.icon.all fitsText &&
    fitsVarchar 128 values.rank

def TaskValues.fits (values : TaskValues) : Bool :=
  fitsVarchar 1000 values.title && fitsText values.note && fitsVarchar 12 values.status.asStr &&
    values.tags.all fitsText && values.dueOn.all fitsDate && values.remindAt.all fitsTimestamptz &&
    values.remindTimezone.all fitsText && fitsVarchar 128 values.rank &&
    values.occurrenceKey.all (fitsVarchar 64) && values.recurrence.all fitsJsonb &&
    values.completedAt.all fitsTimestamptz

def StepValues.fits (values : StepValues) : Bool :=
  fitsVarchar 1000 values.title && fitsVarchar 128 values.rank

def DayPlanValues.fits (values : DayPlanValues) : Bool :=
  fitsDate values.localDate && fitsVarchar 128 values.rank

/-! ### Typed statements -/

namespace EntitySpec

variable {V : Type} (spec : EntitySpec V)

/-- What the statement of an operation binds, once the checks before it are passed. A delete binds no value of the client. -/
def bound (entities : Entities) (userId : Uuid) (mutation : Mutation) (now : Instant) :
    Applied (Option V) :=
  match mutation.kind with
  | .create => do
      orReject (requirePresentFields mutation.patch spec.required)
      refuseIf (spec.selectRow entities userId mutation.entityId).isSome (.reject .alreadyExists)
      let values ← orReject (spec.patched mutation.patch true (spec.blank now.dateNaive))
      orReject (spec.createCheck values)
      orReject (spec.validate values)
      orReject (spec.ensureParent entities userId values)
      return some values
  | .patch =>
      match spec.selectRow entities userId mutation.entityId with
      | none => .error (.reject .notFound)
      | some row => do
          refuseIf row.deletedAt.isSome (.reject .tombstoned)
          let values ← orReject (spec.patched mutation.patch false row.values)
          orReject (spec.validate values)
          orReject (spec.ensureParent entities userId values)
          return some values
  | .delete => .ok none
  | .restore =>
      match spec.selectRow entities userId mutation.entityId with
      | none => .error (.reject .notFound)
      | some row => do
          refuseIf row.deletedAt.isNone (.reject (.invalidState "entity is not deleted"))
          let values ← orReject (spec.patched mutation.patch true row.values)
          orReject (spec.validate values)
          orReject (spec.ensureParent entities userId values)
          return some values

/-- `apply`, whose statement fails when a bound value does not fit its column. -/
def typedApply (fits : V → Bool) (entities : Entities) (userId : Uuid) (mutation : Mutation)
    (serverSeq : Int) (now : Instant) : Applied (Json × Entities) := do
  let values ← spec.bound entities userId mutation now
  refuseIf (values.any fun values => !fits values) (.database .other)
  spec.apply entities userId mutation serverSeq now

end EntitySpec

def typedApplyMutation (env : Env) (entities : Entities) (userId : Uuid) (mutation : Mutation)
    (serverSeq : Int) (now : Instant) : Applied (Json × Entities) :=
  match mutation.entity with
  | .list => listSpec.typedApply ListValues.fits entities userId mutation serverSeq now
  | .task => (taskSpec env).typedApply TaskValues.fits entities userId mutation serverSeq now
  | .step => (stepSpec env).typedApply StepValues.fits entities userId mutation serverSeq now
  | .dayPlan =>
      (dayPlanSpec env).typedApply DayPlanValues.fits entities userId mutation serverSeq now

/-- `decideOp` over typed statements; the log keeps the patch as `JSONB`. -/
def typedDecideOp (env : Env) (batch : Batch) (state : LoopState) (mutation : Mutation) :
    ApiResult LoopState :=
  match typedApplyMutation env state.db.entities batch.auth.userId mutation state.nextServerSeq
      batch.now with
  | .ok (patch, entities) =>
      if fitsJsonb patch then commitApplied batch state mutation patch entities else .error .database
  | .error (.reject rejection) => commitRejected batch state mutation rejection.code
  | .error (.database .constraint) => commitRejected batch state mutation "CONSTRAINT_VIOLATION"
  | .error (.database .other) => .error .database

/-! ### What is decoded -/

/-- `serde_json` keeps one member for each key of an object. -/
def Json.Distinct (value : Json) : Prop :=
  ∀ members, value.asObject = some members → (members.map Prod.fst).Nodup

/-- `NaiveDate::MAX` of `chrono`, 262142-12-31. -/
def chronoMaxDays : Int := 95026236

/-- What `uuid` and `chrono` read and print: text without NUL, and dates that `chrono` has. -/
structure Env.Crates (env : Env) : Prop where
  uuidText : ∀ text id, env.uuid.parse text = some id → containsNul text = false
  dateText : ∀ text date, env.date.parse text = some date → containsNul text = false
  instantText : ∀ text instant, env.instant.parse text = some instant → containsNul text = false
  uuidPrint : ∀ id, containsNul (env.uuid.render id) = false
  datePrint : ∀ date, containsNul (env.date.render date) = false
  instantPrint : ∀ instant, containsNul (env.instant.render instant) = false
  dateMax : ∀ text date, env.date.parse text = some date → date.days ≤ chronoMaxDays
  instantMax : ∀ text instant, env.instant.parse text = some instant →
    instant.dateNaive.days ≤ chronoMaxDays

end ShishiTodo
