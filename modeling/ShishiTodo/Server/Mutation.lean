import ShishiTodo.Domain
import ShishiTodo.Lib.Except
import Mathlib.Algebra.GroupWithZero.Nat

/-!
# Mutations

`mutation.rs`: the column values of the four entities, the patches a client may send for them, and the validators between the two. A patch field is absent, an explicit `null`, or a value.
-/

namespace ShishiTodo

open Lib

structure MutationError where
  code : String
  detail : String
  deriving DecidableEq, Repr

namespace MutationError

def validation (detail : String) : MutationError := ⟨"VALIDATION_FAILED", detail⟩

def notFound : MutationError :=
  ⟨"ENTITY_NOT_FOUND", "entity does not exist under this account"⟩

def tombstoned : MutationError :=
  ⟨"ENTITY_TOMBSTONED", "entity is deleted; an explicit restore is required"⟩

def alreadyExists : MutationError := ⟨"ENTITY_ALREADY_EXISTS", "entity id already exists"⟩

def invalidState (detail : String) : MutationError := ⟨"INVALID_STATE", detail⟩

def invalidParent (detail : String) : MutationError := ⟨"INVALID_PARENT", detail⟩

end MutationError

/-- The result of a validator or of a patch. -/
abbrev Checked (α : Type) := Except MutationError α

/-! ### Text and value checks -/

def rejectNul (field value : String) : Checked Unit :=
  refuseIf (containsNul value) (.validation s!"field \"{field}\" may not contain NUL characters")

def requiredText (field value : String) (maxChars : Nat) : Checked Unit := do
  rejectNul field value
  refuseIf (trim value).isEmpty (.validation s!"field \"{field}\" may not be empty")
  refuseIf (value.length > maxChars) (.validation s!"field \"{field}\" exceeds {maxChars} characters")

def optionalText (field : String) (value : Option String) (maxChars : Nat) : Checked Unit :=
  match value with
  | none => .ok ()
  | some value => do
      rejectNul field value
      refuseIf (value.length > maxChars)
        (.validation s!"field \"{field}\" exceeds {maxChars} characters")

/-- PostgreSQL dates start in 4714 BC; earlier years are refused before they reach a column. -/
def minStorableYear : Int := -4712

def storableDate (field : String) (value : NaiveDate) : Checked Unit :=
  refuseIf (value.year < minStorableYear)
    (.validation s!"field \"{field}\" is before the supported date range")

def storableTimestamp (field : String) : Option Instant → Checked Unit
  | some value => storableDate field value.dateNaive
  | none => .ok ()

mutual

def jsonContainsNul : Json → Bool
  | .str text => containsNul text
  | .arr items => itemsContainNul items
  | .obj members => membersContainNul members
  | .null | .bool _ | .num _ => false

def itemsContainNul : List Json → Bool
  | [] => false
  | item :: rest => jsonContainsNul item || itemsContainNul rest

def membersContainNul : List (String × Json) → Bool
  | [] => false
  | (key, value) :: rest => containsNul key || jsonContainsNul value || membersContainNul rest

end

/-- The bytes `serde_json` writes for one character of a string. -/
def escapedSize (c : Char) : Nat :=
  if c == '"' || c == '\\' then 2
  else if c.toNat == 8 || c.toNat == 9 || c.toNat == 10 || c.toNat == 12 || c.toNat == 13 then 2
  else if c.toNat < 32 then 6
  else c.utf8Size

def stringTextSize (text : String) : Nat :=
  2 + (text.toList.map escapedSize).sum

mutual

/-- The length in bytes of the compact JSON text of a value. -/
def jsonTextSize : Json → Nat
  | .null => 4
  | .bool true => 4
  | .bool false => 5
  | .num literal => literal.utf8ByteSize
  | .str text => stringTextSize text
  | .arr items => 2 + itemsTextSize items
  | .obj members => 2 + membersTextSize members

def itemsTextSize : List Json → Nat
  | [] => 0
  | [item] => jsonTextSize item
  | item :: rest => jsonTextSize item + 1 + itemsTextSize rest

def membersTextSize : List (String × Json) → Nat
  | [] => 0
  | [(key, value)] => stringTextSize key + 1 + jsonTextSize value
  | (key, value) :: rest => stringTextSize key + 1 + jsonTextSize value + 1 + membersTextSize rest

end

/-! ### Tags -/

def maxTags : Nat := 20

def maxTagLength : Nat := 32

/-- The loop of `clean_tag`: whitespace between words becomes one space, before the first word and after the last none. `cleaned` is reversed. -/
def collapseSpaces : List Char → List Char → Bool → List Char
  | [], cleaned, _ => cleaned.reverse
  | c :: rest, cleaned, pendingSpace =>
      if isWhitespace c then collapseSpaces rest cleaned (pendingSpace || !cleaned.isEmpty)
      else if pendingSpace && !cleaned.isEmpty then collapseSpaces rest (c :: ' ' :: cleaned) false
      else collapseSpaces rest (c :: cleaned) false

def cleanTag (value : String) : String :=
  let cleaned := collapseSpaces value.toList [] false
  String.ofList <| trimChars <|
    match trimChars cleaned with
    | '#' :: rest => rest
    | _ => cleaned

/-- One tag of `normalize_tags`, cleaned and checked. -/
def checkTag (raw : String) : Checked String := do
  let tag := cleanTag raw
  rejectNul "tags" tag
  refuseIf tag.isEmpty (.validation "tags may not contain empty strings")
  refuseIf (tag.length > maxTagLength)
    (.validation s!"each tag must be at most {maxTagLength} characters")
  return tag

/-- The loop of `normalize_tags`, from the keys seen and the tags kept. -/
def normalizeTagsFrom (env : Env) : List String → List String → List String → Checked (List String)
  | [], _, result => .ok result
  | raw :: rest, seen, result => do
      let tag ← checkTag raw
      let key := env.toLowercase tag
      if seen.contains key then normalizeTagsFrom env rest seen result
      else if result.length + 1 > maxTags then
        .error (.validation s!"a task may have at most {maxTags} tags")
      else normalizeTagsFrom env rest (key :: seen) (result ++ [tag])

def normalizeTags (env : Env) (tags : List String) : Checked (List String) :=
  normalizeTagsFrom env tags [] []

/-! ### Column values -/

structure ListValues where
  name : String
  color : Option String
  icon : Option String
  rank : String
  deriving DecidableEq, Repr

namespace ListValues

def empty : ListValues := { name := "", color := none, icon := none, rank := "a0" }

def validate (values : ListValues) : Checked Unit := do
  requiredText "name" values.name 120
  optionalText "color" values.color 64
  optionalText "icon" values.icon 128
  requiredText "rank" values.rank 128

def changePatch (values : ListValues) : Json :=
  .obj [
    ("name", .str values.name),
    ("color", .ofOption .str values.color),
    ("icon", .ofOption .str values.icon),
    ("rank", .str values.rank)]

end ListValues

structure TaskValues where
  listId : Option Uuid
  title : String
  note : String
  status : TaskStatus
  important : Bool
  tags : List String
  dueOn : Option NaiveDate
  remindAt : Option Instant
  remindTimezone : Option String
  rank : String
  seriesId : Option Uuid
  occurrenceKey : Option String
  recurrence : Option Json
  completedAt : Option Instant
  deriving DecidableEq, Repr

namespace TaskValues

def empty : TaskValues where
  listId := none
  title := ""
  note := ""
  status := .open
  important := false
  tags := []
  dueOn := none
  remindAt := none
  remindTimezone := none
  rank := "a0"
  seriesId := none
  occurrenceKey := none
  recurrence := none
  completedAt := none

def validateTags (env : Env) (tags : List String) : Checked Unit := do
  let normalizedTags ← normalizeTags env tags
  refuseIf (normalizedTags ≠ tags) (.validation "tags must be normalized before storage")

def validateTimezone (env : Env) : Option String → Checked Unit
  | none => .ok ()
  | some timezone => do
      requiredText "remind_timezone" timezone 64
      refuseIf (!env.isTimezone timezone)
        (.validation "remind_timezone must be a valid IANA timezone name")

def validateOccurrenceKey : Option String → Checked Unit
  | none => .ok ()
  | some key => requiredText "occurrence_key" key 64

def validateRecurrence : Option Json → Checked Unit
  | none => .ok ()
  | some recurrence => do
      refuseIf (!recurrence.isObject) (.validation "recurrence must be a JSON object")
      refuseIf (jsonTextSize recurrence > 16 * 1024) (.validation "recurrence is too large")
      refuseIf (jsonContainsNul recurrence)
        (.validation "recurrence may not contain NUL characters")

def validateDueOn : Option NaiveDate → Checked Unit
  | none => .ok ()
  | some dueOn => storableDate "due_on" dueOn

def validate (env : Env) (values : TaskValues) : Checked Unit := do
  requiredText "title" values.title 1000
  optionalText "note" (some values.note) 100000
  requiredText "rank" values.rank 128
  validateTags env values.tags
  validateTimezone env values.remindTimezone
  validateOccurrenceKey values.occurrenceKey
  validateRecurrence values.recurrence
  validateDueOn values.dueOn
  storableTimestamp "remind_at" values.remindAt
  storableTimestamp "completed_at" values.completedAt

def changePatch (env : Env) (values : TaskValues) : Json :=
  .obj [
    ("list_id", .ofOption (.str ∘ env.uuid.render) values.listId),
    ("title", .str values.title),
    ("note", .str values.note),
    ("status", .str values.status.asStr),
    ("important", .bool values.important),
    ("tags", .arr (values.tags.map .str)),
    ("due_on", .ofOption (.str ∘ env.date.render) values.dueOn),
    ("remind_at", .ofOption (.str ∘ env.instant.render) values.remindAt),
    ("remind_timezone", .ofOption .str values.remindTimezone),
    ("rank", .str values.rank),
    ("series_id", .ofOption (.str ∘ env.uuid.render) values.seriesId),
    ("occurrence_key", .ofOption .str values.occurrenceKey),
    ("recurrence", .ofOption id values.recurrence),
    ("completed_at", .ofOption (.str ∘ env.instant.render) values.completedAt)]

end TaskValues

structure StepValues where
  taskId : Uuid
  title : String
  isCompleted : Bool
  rank : String
  deriving DecidableEq, Repr

namespace StepValues

def empty (taskId : Uuid) : StepValues :=
  { taskId := taskId, title := "", isCompleted := false, rank := "a0" }

def validate (values : StepValues) : Checked Unit := do
  requiredText "title" values.title 1000
  requiredText "rank" values.rank 128

def changePatch (env : Env) (values : StepValues) : Json :=
  .obj [
    ("task_id", .str (env.uuid.render values.taskId)),
    ("title", .str values.title),
    ("is_completed", .bool values.isCompleted),
    ("rank", .str values.rank)]

end StepValues

structure DayPlanValues where
  taskId : Uuid
  localDate : NaiveDate
  rank : String
  deriving DecidableEq, Repr

namespace DayPlanValues

/-- The date is that of the clock. -/
def empty (taskId : Uuid) (today : NaiveDate) : DayPlanValues :=
  { taskId := taskId, localDate := today, rank := "a0" }

def validate (values : DayPlanValues) : Checked Unit := do
  storableDate "local_date" values.localDate
  requiredText "rank" values.rank 128

def changePatch (env : Env) (values : DayPlanValues) : Json :=
  .obj [
    ("task_id", .str (env.uuid.render values.taskId)),
    ("local_date", .str (env.date.render values.localDate)),
    ("rank", .str values.rank)]

end DayPlanValues

/-! ### Patches -/

/-- Reads one JSON value as a Rust type; `none` is a deserialization error. -/
abbrev Decoder (α : Type) := Json → Option α

namespace Decoder

def string : Decoder String
  | .str text => some text
  | _ => none

def bool : Decoder Bool
  | .bool value => some value
  | _ => none

def coded {α : Type} (codec : Codec α) : Decoder α
  | .str text => codec.parse text
  | _ => none

def strings : Decoder (List String)
  | .arr items => items.mapM string
  | _ => none

/-- A unit variant is its name, or an object with that one member and no content. -/
def status : Decoder TaskStatus
  | .str text => TaskStatus.parse text
  | .obj [(name, .null)] => TaskStatus.parse name
  | _ => none

def value : Decoder Json := some

end Decoder

/-- `double_option`: an absent field, an explicit `null`, or a value. -/
abbrev PatchField (α : Type) := Option (Option α)

def readField {α : Type} (members : List (String × Json)) (field : String) (decode : Decoder α) :
    Checked (PatchField α) :=
  match members.lookup field with
  | none => .ok none
  | some .null => .ok (some none)
  | some value =>
      match decode value with
      | some decoded => .ok (some (some decoded))
      | none => .error (.validation s!"invalid patch: field \"{field}\" has the wrong type")

def requiredField {α : Type} (field : String) : PatchField α → Checked (Option α)
  | none => .ok none
  | some (some value) => .ok (some value)
  | some none => .error (.validation s!"field \"{field}\" may not be null")

/-- `#[serde(deny_unknown_fields)]`. -/
def denyUnknownFields (known : List String) (members : List (String × Json)) : Checked Unit :=
  match members.find? fun member => !known.contains member.1 with
  | some member => .error (.validation s!"invalid patch: unknown field {member.1}")
  | none => .ok ()

/-- `parse_patch`, with the reading of the members as the type's own part. -/
def parsePatch {α : Type} (read : List (String × Json) → Checked α) (value : Json)
    (allowEmpty : Bool) : Checked α :=
  match value.asObject with
  | none => .error (.validation "patch must be a JSON object")
  | some members =>
      if members.isEmpty && !allowEmpty then
        .error (.validation "patch must contain at least one field")
      else read members

structure ListPatch where
  name : PatchField String
  color : PatchField String
  icon : PatchField String
  rank : PatchField String
  deriving DecidableEq, Repr

namespace ListPatch

def fields : List String := ["name", "color", "icon", "rank"]

def read (members : List (String × Json)) : Checked ListPatch := do
  denyUnknownFields fields members
  return {
    name := ← readField members "name" .string
    color := ← readField members "color" .string
    icon := ← readField members "icon" .string
    rank := ← readField members "rank" .string }

def apply (patch : ListPatch) (values : ListValues) : Checked ListValues := do
  let name ← requiredField "name" patch.name
  let rank ← requiredField "rank" patch.rank
  let values : ListValues := {
    name := name.getD values.name
    color := patch.color.getD values.color
    icon := patch.icon.getD values.icon
    rank := rank.getD values.rank }
  values.validate
  return values

end ListPatch

structure TaskPatch where
  listId : PatchField Uuid
  title : PatchField String
  note : PatchField String
  status : PatchField TaskStatus
  important : PatchField Bool
  tags : PatchField (List String)
  dueOn : PatchField NaiveDate
  remindAt : PatchField Instant
  remindTimezone : PatchField String
  rank : PatchField String
  seriesId : PatchField Uuid
  occurrenceKey : PatchField String
  recurrence : PatchField Json
  completedAt : PatchField Instant
  deriving DecidableEq, Repr

namespace TaskPatch

def fields : List String :=
  ["list_id", "title", "note", "status", "important", "tags", "due_on", "remind_at",
    "remind_timezone", "rank", "series_id", "occurrence_key", "recurrence", "completed_at"]

def read (env : Env) (members : List (String × Json)) : Checked TaskPatch := do
  denyUnknownFields fields members
  return {
    listId := ← readField members "list_id" (.coded env.uuid)
    title := ← readField members "title" .string
    note := ← readField members "note" .string
    status := ← readField members "status" .status
    important := ← readField members "important" .bool
    tags := ← readField members "tags" .strings
    dueOn := ← readField members "due_on" (.coded env.date)
    remindAt := ← readField members "remind_at" (.coded env.instant)
    remindTimezone := ← readField members "remind_timezone" .string
    rank := ← readField members "rank" .string
    seriesId := ← readField members "series_id" (.coded env.uuid)
    occurrenceKey := ← readField members "occurrence_key" .string
    recurrence := ← readField members "recurrence" .value
    completedAt := ← readField members "completed_at" (.coded env.instant) }

/-- The tags a patch leaves: the given ones normalized, or the old ones. -/
def applyTags (env : Env) (old : List String) : Option (List String) → Checked (List String)
  | none => .ok old
  | some tags => normalizeTags env tags

def apply (env : Env) (patch : TaskPatch) (values : TaskValues) : Checked TaskValues := do
  let title ← requiredField "title" patch.title
  let note ← requiredField "note" patch.note
  let status ← requiredField "status" patch.status
  let important ← requiredField "important" patch.important
  let tags ← requiredField "tags" patch.tags
  let tags ← applyTags env values.tags tags
  let rank ← requiredField "rank" patch.rank
  let values : TaskValues := {
    listId := patch.listId.getD values.listId
    title := title.getD values.title
    note := note.getD values.note
    status := status.getD values.status
    important := important.getD values.important
    tags := tags
    dueOn := patch.dueOn.getD values.dueOn
    remindAt := patch.remindAt.getD values.remindAt
    remindTimezone := patch.remindTimezone.getD values.remindTimezone
    rank := rank.getD values.rank
    seriesId := patch.seriesId.getD values.seriesId
    occurrenceKey := patch.occurrenceKey.getD values.occurrenceKey
    recurrence := patch.recurrence.getD values.recurrence
    completedAt := patch.completedAt.getD values.completedAt }
  values.validate env
  return values

end TaskPatch

structure StepPatch where
  taskId : PatchField Uuid
  title : PatchField String
  isCompleted : PatchField Bool
  rank : PatchField String
  deriving DecidableEq, Repr

namespace StepPatch

def fields : List String := ["task_id", "title", "is_completed", "rank"]

def read (env : Env) (members : List (String × Json)) : Checked StepPatch := do
  denyUnknownFields fields members
  return {
    taskId := ← readField members "task_id" (.coded env.uuid)
    title := ← readField members "title" .string
    isCompleted := ← readField members "is_completed" .bool
    rank := ← readField members "rank" .string }

def apply (patch : StepPatch) (values : StepValues) : Checked StepValues := do
  let taskId ← requiredField "task_id" patch.taskId
  let title ← requiredField "title" patch.title
  let isCompleted ← requiredField "is_completed" patch.isCompleted
  let rank ← requiredField "rank" patch.rank
  let values : StepValues := {
    taskId := taskId.getD values.taskId
    title := title.getD values.title
    isCompleted := isCompleted.getD values.isCompleted
    rank := rank.getD values.rank }
  values.validate
  return values

end StepPatch

structure DayPlanPatch where
  taskId : PatchField Uuid
  localDate : PatchField NaiveDate
  rank : PatchField String
  deriving DecidableEq, Repr

namespace DayPlanPatch

def fields : List String := ["task_id", "local_date", "rank"]

def read (env : Env) (members : List (String × Json)) : Checked DayPlanPatch := do
  denyUnknownFields fields members
  return {
    taskId := ← readField members "task_id" (.coded env.uuid)
    localDate := ← readField members "local_date" (.coded env.date)
    rank := ← readField members "rank" .string }

def apply (patch : DayPlanPatch) (values : DayPlanValues) : Checked DayPlanValues := do
  let taskId ← requiredField "task_id" patch.taskId
  let localDate ← requiredField "local_date" patch.localDate
  let rank ← requiredField "rank" patch.rank
  let values : DayPlanValues := {
    taskId := taskId.getD values.taskId
    localDate := localDate.getD values.localDate
    rank := rank.getD values.rank }
  values.validate
  return values

end DayPlanPatch

def parseListPatch (value : Json) (allowEmpty : Bool) : Checked ListPatch :=
  parsePatch ListPatch.read value allowEmpty

def parseTaskPatch (env : Env) (value : Json) (allowEmpty : Bool) : Checked TaskPatch :=
  parsePatch (TaskPatch.read env) value allowEmpty

def parseStepPatch (env : Env) (value : Json) (allowEmpty : Bool) : Checked StepPatch :=
  parsePatch (StepPatch.read env) value allowEmpty

def parseDayPlanPatch (env : Env) (value : Json) (allowEmpty : Bool) : Checked DayPlanPatch :=
  parsePatch (DayPlanPatch.read env) value allowEmpty

/-! ### Shape tests of `sync.rs` -/

def requirePresentFields (patch : Json) (fields : List String) : Checked Unit :=
  match patch.asObject with
  | none => .error (.validation "patch must be a JSON object")
  | some members =>
      match fields.find? fun field => (members.lookup field).isNone with
      | some field => .error (.validation s!"field \"{field}\" is required for create")
      | none => .ok ()

def ensureEmptyPatch (patch : Json) : Checked Unit :=
  match patch.asObject with
  | some [] => .ok ()
  | some _ => .error (.validation "delete patches must be an empty object")
  | none => .error (.validation "patch must be a JSON object")

end ShishiTodo
