import ShishiTodo.Codecs
import ShishiTodo.Lib.Except

/-!
# What the native store holds

`models.rs`: the rows of the four tables, the patches and inputs of the local operations, and how each is written as JSON. Identifiers, dates and instants are strings here. An object is its list of members, read by name.
-/

namespace ShishiTodo.Native

open Lib

/-- `Map<String, Value>`. -/
abbrev Data := List (String × Json)

inductive StoreError where
  | validation (message : String)
  | notFound (message : String)
  | conflict (message : String)
  | staleSyncSession
  | invalidDate (message : String)
  | unsupported (message : String)
  /-- A constraint or a missing row, as SQLite reports it. -/
  | database
  deriving DecidableEq, Repr

abbrev StoreResult (α : Type) := Except StoreError α

/-! ### Rows -/

structure TaskList where
  id : String
  name : String
  color : Option String
  icon : Option String
  rank : String
  createdAt : String
  updatedAt : String
  deletedAt : Option String
  deriving DecidableEq, Repr

structure Task where
  id : String
  listId : Option String
  title : String
  note : String
  tags : List String
  status : TaskStatus
  important : Bool
  dueOn : Option String
  remindAt : Option String
  remindTimezone : Option String
  rank : String
  seriesId : Option String
  occurrenceKey : Option String
  recurrence : Option Json
  completedAt : Option String
  createdAt : String
  updatedAt : String
  deletedAt : Option String
  deriving DecidableEq, Repr

structure Step where
  id : String
  taskId : String
  title : String
  isCompleted : Bool
  rank : String
  createdAt : String
  updatedAt : String
  deletedAt : Option String
  deriving DecidableEq, Repr

structure DayPlan where
  id : String
  taskId : String
  localDate : String
  rank : String
  createdAt : String
  updatedAt : String
  deletedAt : Option String
  deriving DecidableEq, Repr

/-! ### JSON -/

def textJson (value : Option String) : Json := Json.ofOption Json.str value

def tagsJson (tags : List String) : Json := .arr (tags.map Json.str)

def statusJson (status : TaskStatus) : Json := .str status.asStr

def TaskList.data (list : TaskList) : Data := [
  ("id", .str list.id),
  ("name", .str list.name),
  ("color", textJson list.color),
  ("icon", textJson list.icon),
  ("rank", .str list.rank),
  ("createdAt", .str list.createdAt),
  ("updatedAt", .str list.updatedAt),
  ("deletedAt", textJson list.deletedAt)]

def Task.data (task : Task) : Data := [
  ("id", .str task.id),
  ("listId", textJson task.listId),
  ("title", .str task.title),
  ("note", .str task.note),
  ("tags", tagsJson task.tags),
  ("status", statusJson task.status),
  ("important", .bool task.important),
  ("dueOn", textJson task.dueOn),
  ("remindAt", textJson task.remindAt),
  ("remindTimezone", textJson task.remindTimezone),
  ("rank", .str task.rank),
  ("seriesId", textJson task.seriesId),
  ("occurrenceKey", textJson task.occurrenceKey),
  ("recurrence", task.recurrence.getD .null),
  ("completedAt", textJson task.completedAt),
  ("createdAt", .str task.createdAt),
  ("updatedAt", .str task.updatedAt),
  ("deletedAt", textJson task.deletedAt)]

def Step.data (step : Step) : Data := [
  ("id", .str step.id),
  ("taskId", .str step.taskId),
  ("title", .str step.title),
  ("isCompleted", .bool step.isCompleted),
  ("rank", .str step.rank),
  ("createdAt", .str step.createdAt),
  ("updatedAt", .str step.updatedAt),
  ("deletedAt", textJson step.deletedAt)]

def DayPlan.data (plan : DayPlan) : Data := [
  ("id", .str plan.id),
  ("taskId", .str plan.taskId),
  ("localDate", .str plan.localDate),
  ("rank", .str plan.rank),
  ("createdAt", .str plan.createdAt),
  ("updatedAt", .str plan.updatedAt),
  ("deletedAt", textJson plan.deletedAt)]

/-! ### Inputs -/

/-- Leaves out what `skip_serializing_if` skips. -/
def present : List (String × Option Json) → Data
  | [] => []
  | (_, none) :: rest => present rest
  | (key, some value) :: rest => (key, value) :: present rest

structure NewList where
  name : String
  color : Option String
  icon : Option String
  deriving DecidableEq, Repr

/-- A field of a patch is absent, `null`, or a value. -/
structure ListPatch where
  name : Option (Option String)
  color : Option (Option String)
  icon : Option (Option String)
  rank : Option (Option String)
  deriving DecidableEq, Repr

def ListPatch.isEmpty (patch : ListPatch) : Bool :=
  patch.name.isNone && patch.color.isNone && patch.icon.isNone && patch.rank.isNone

def ListPatch.data (patch : ListPatch) : Data := present [
  ("name", patch.name.map textJson),
  ("color", patch.color.map textJson),
  ("icon", patch.icon.map textJson),
  ("rank", patch.rank.map textJson)]

structure NewTask where
  title : String
  listId : Option String
  note : Option String
  tags : List String
  important : Option Bool
  dueOn : Option String
  remindAt : Option String
  remindTimezone : Option String
  recurrence : Option Json
  rank : Option String
  planDate : Option String
  deriving DecidableEq, Repr

structure TaskPatch where
  title : Option (Option String)
  listId : Option (Option String)
  note : Option (Option String)
  tags : Option (List String)
  status : Option (Option TaskStatus)
  important : Option (Option Bool)
  dueOn : Option (Option String)
  remindAt : Option (Option String)
  remindTimezone : Option (Option String)
  recurrence : Option (Option Json)
  rank : Option (Option String)
  completedAt : Option (Option String)
  deriving DecidableEq, Repr

def TaskPatch.isEmpty (patch : TaskPatch) : Bool :=
  patch.title.isNone && patch.listId.isNone && patch.note.isNone && patch.tags.isNone &&
    patch.status.isNone && patch.important.isNone && patch.dueOn.isNone && patch.remindAt.isNone &&
    patch.remindTimezone.isNone && patch.recurrence.isNone && patch.rank.isNone &&
    patch.completedAt.isNone

def TaskPatch.data (patch : TaskPatch) : Data := present [
  ("title", patch.title.map textJson),
  ("listId", patch.listId.map textJson),
  ("note", patch.note.map textJson),
  ("tags", patch.tags.map tagsJson),
  ("status", patch.status.map (Json.ofOption statusJson)),
  ("important", patch.important.map (Json.ofOption Json.bool)),
  ("dueOn", patch.dueOn.map textJson),
  ("remindAt", patch.remindAt.map textJson),
  ("remindTimezone", patch.remindTimezone.map textJson),
  ("recurrence", patch.recurrence.map fun value => value.getD .null),
  ("rank", patch.rank.map textJson),
  ("completedAt", patch.completedAt.map textJson)]

structure StepPatch where
  title : Option (Option String)
  isCompleted : Option (Option Bool)
  rank : Option (Option String)
  deriving DecidableEq, Repr

def StepPatch.isEmpty (patch : StepPatch) : Bool :=
  patch.title.isNone && patch.isCompleted.isNone && patch.rank.isNone

def StepPatch.data (patch : StepPatch) : Data := present [
  ("title", patch.title.map textJson),
  ("isCompleted", patch.isCompleted.map (Json.ofOption Json.bool)),
  ("rank", patch.rank.map textJson)]

structure ExportBundle where
  format : String
  version : Nat
  tasks : List Task
  lists : List TaskList
  steps : List Step
  dayPlans : List DayPlan
  deriving DecidableEq, Repr

inductive ImportMode where
  | merge | replace
  deriving DecidableEq, Repr

structure ServerAck where
  opId : String
  status : String
  errorCode : Option String
  deriving DecidableEq, Repr

structure ServerChange where
  serverSeq : Int
  opId : String
  entity : EntityType
  entityId : String
  kind : MutationKind
  patch : Json
  deriving DecidableEq, Repr

structure ApplyServerResultRequest where
  acks : List ServerAck
  changes : List ServerChange
  nextCursor : String
  sessionId : Option String
  deriving DecidableEq, Repr

structure CloudSnapshot where
  cursor : String
  lists : List TaskList
  tasks : List Task
  steps : List Step
  dayPlans : List DayPlan
  deriving DecidableEq, Repr

inductive CloudMergeMode where
  | merge | cloud
  deriving DecidableEq, Repr

structure CloudInitializeRequest where
  snapshot : CloudSnapshot
  mode : CloudMergeMode
  accountEmail : String
  accountApiUrl : Option String
  sessionId : Option String
  deriving DecidableEq, Repr

/-- What the store takes from `chrono`, and from the Unicode tables. -/
structure Texts where
  /-- `NaiveDate::parse_from_str(value, "%Y-%m-%d")` succeeds. -/
  isDate : String → Bool
  /-- `DateTime::parse_from_rfc3339`, printed in UTC with milliseconds. -/
  normalizeInstant : String → Option String
  /-- `str::to_lowercase`. -/
  toLowercase : String → String
  /-- `char::to_uppercase`. -/
  toUppercase : Char → String

/-- The texts of the concrete codecs, with ASCII case. -/
def Texts.utc : Texts where
  isDate text := (Codecs.date.parse text).isSome
  normalizeInstant text := (Codecs.parseInstant text).map fun instant =>
    let second : Instant := ⟨instant.nanos.fdiv 1000000000 * 1000000000⟩
    let millis := (instant.nanos.emod 1000000000 / 1000000).toNat
    String.ofList (Codecs.instantChars [] second ++ '.' :: Codecs.digitChars 10 3 millis ++ ['Z'])
  toLowercase text := String.ofList (text.toList.map Char.toLower)
  toUppercase c := String.singleton c.toUpper

end ShishiTodo.Native
