import ShishiTodo.Lib.Delimited
import ShishiTodo.Lib.Markers
import ShishiTodo.Lib.OrderedMap
import ShishiTodo.Tasks.Fields
import ShishiTodo.Tasks.NaturalDate

/-!
# The calendar file

`toIcs` and `fromIcs` of `export.ts`. A task becomes an event of a few lines; its texts are escaped and long lines are folded. The reader unfolds the text, finds the events by their two markers, and undoes the escapes one kind after the other.
-/

namespace ShishiTodo.Export

open Lib Tasks

/-- A title that `assertTitle` gave. -/
structure Title where
  text : JsText
  accepted : ∃ raw, assertTitle raw = .ok text

/-- A note that `cleanNote` gave. -/
structure Note where
  text : JsText
  accepted : ∃ raw, Tasks.cleanNote raw = text

/-- The fields of a task that the calendar is made of. -/
structure CalendarTask where
  id : JsText
  title : Title
  note : Note
  tags : Option (List JsText)
  status : TaskStatus
  dueOn : Option ReferenceDate
  deletedAt : Option JsText

structure ImportedCalendarTask where
  title : JsText
  note : JsText
  dueOn : JsText
  deriving DecidableEq, Repr

/-- The units that `toISOString` writes. -/
def isIsoUnit (unit : Nat) : Bool :=
  (0x30 ≤ unit && unit ≤ 0x39) || unit == 0x2B || unit == 0x2D || unit == 0x2E || unit == 0x3A ||
    unit == 0x54 || unit == 0x5A

/-- What `toISOString` gave. -/
structure IsoInstant where
  text : JsText
  plain : ∀ unit ∈ text, isIsoUnit unit = true

def isDigitUnit (unit : Nat) : Bool := 0x30 ≤ unit && unit ≤ 0x39

/-! ### The words of the file -/

def lineBreak : JsText := [0x0D, 0x0A]

def beginEvent : JsText := units "BEGIN:VEVENT"
def endEvent : JsText := units "END:VEVENT"

/-! ### Writing -/

/-- `.replace(/\r?\n/g, mark)`. -/
def replaceBreaks (mark : JsText) : JsText → JsText
  | [] => []
  | unit :: rest =>
    if unit = 0x0A then mark ++ replaceBreaks mark rest
    else if unit = 0x0D ∧ rest.head? = some 0x0A then replaceBreaks mark rest
    else unit :: replaceBreaks mark rest

/-- `.replace(/…/g, '\\…')`, for one unit. -/
def guarded (unit : Nat) (value : JsText) : JsText :=
  value.flatMap fun next => if next = unit then [0x5C, unit] else [next]

def escapeText (value : JsText) : JsText :=
  guarded 0x3B (guarded 0x2C (replaceBreaks [0x5C, 0x6E] (guarded 0x5C value)))

def withoutHyphens (text : JsText) : JsText := text.filter (· ≠ 0x2D)

def nextDay (date : ReferenceDate) : JsText := withoutHyphens (units (isoDate (date.day + 1)))

/-- `.replace(/\.\d{3}Z$/, 'Z')`. -/
def withoutMillis (text : JsText) : JsText :=
  match text.reverse with
  | 0x5A :: third :: second :: first :: 0x2E :: rest =>
    if isDigitUnit first && isDigitUnit second && isDigitUnit third then (0x5A :: rest).reverse else text
  | _ => text

def stampOf (now : IsoInstant) : JsText :=
  withoutMillis (now.text.filter fun unit => unit ≠ 0x2D ∧ unit ≠ 0x3A)

/-- `pieces.join(glue)`. -/
def joinTexts (glue : JsText) (pieces : List JsText) : JsText := List.intercalate glue pieces

def eventLines (stamp : JsText) (task : CalendarTask) (dueOn : ReferenceDate) : List JsText :=
  [ beginEvent,
    units "UID:" ++ task.id ++ units "@shishi.local",
    units "DTSTAMP:" ++ stamp,
    units "DTSTART;VALUE=DATE:" ++ withoutHyphens (units dueOn.text),
    units "DTEND;VALUE=DATE:" ++ nextDay dueOn,
    units "SUMMARY:" ++ escapeText task.title.text ] ++
  (if task.note.text = [] then [] else [units "DESCRIPTION:" ++ escapeText task.note.text]) ++
  (match task.tags with
    | some (tag :: more) => [units "CATEGORIES:" ++ joinTexts [0x2C] ((tag :: more).map escapeText)]
    | _ => []) ++
  (if task.status = .completed then [units "STATUS:COMPLETED"] else []) ++
  [endEvent]

/-- `task.deletedAt || !task.dueOn`, turned round. -/
def CalendarTask.exportedOn (task : CalendarTask) : Option ReferenceDate :=
  if task.deletedAt.any (· ≠ []) then none else task.dueOn

def calendarHeader : List JsText :=
  [units "BEGIN:VCALENDAR", units "VERSION:2.0", units "PRODID:-//Shishi//To Do//CN", units "CALSCALE:GREGORIAN"]

def calendarLines (stamp : JsText) (tasks : List CalendarTask) : List JsText :=
  calendarHeader ++ (tasks.flatMap fun task => (task.exportedOn.map (eventLines stamp task)).getD []) ++
    [units "END:VCALENDAR"]

/-- The chunks of a long line; each after the first begins with a space. -/
def foldChunks (remaining : JsText) : List JsText :=
  if remaining.length > 75 then remaining.take 75 :: foldChunks (0x20 :: remaining.drop 75) else [remaining]
termination_by remaining.length
decreasing_by
  rw [List.length_cons, List.length_drop]
  omega

def foldIcsLine (line : JsText) : JsText := joinTexts lineBreak (foldChunks line)

def toIcs (tasks : List CalendarTask) (now : IsoInstant) : JsText :=
  joinTexts lineBreak ((calendarLines (stampOf now) tasks).map foldIcsLine) ++ lineBreak

/-! ### Reading -/

def isBlankUnit (unit : Nat) : Bool := unit == 0x20 || unit == 0x09

/-- `.replace(/\r?\n[ \t]/g, '')`. -/
def unfoldLines : JsText → JsText
  | [] => []
  | [unit] => [unit]
  | first :: second :: rest =>
    if first = 0x0A ∧ isBlankUnit second then unfoldLines rest
    else if first = 0x0D ∧ second = 0x0A ∧ rest.head?.any isBlankUnit then unfoldLines (second :: rest)
    else first :: unfoldLines (second :: rest)

/-- `.split(/\r?\n/)`. -/
def splitLines : JsText → List JsText
  | [] => [[]]
  | unit :: rest =>
    if unit = 0x0A then [] :: splitLines rest
    else if unit = 0x0D ∧ rest.head? = some 0x0A then splitLines rest
    else (splitLines rest).modifyHead (unit :: ·)

/-- `.replace(/\\…/g, mark)`: a backslash and the unit after it. -/
def replacePairs (test : Nat → Bool) (mark : Nat) : JsText → JsText
  | [] => []
  | [unit] => [unit]
  | first :: second :: rest =>
    if first = 0x5C ∧ test second then mark :: replacePairs test mark rest
    else first :: replacePairs test mark (second :: rest)

def isLetterN (unit : Nat) : Bool := unit == 0x6E || unit == 0x4E

def unescapeText (value : JsText) : JsText :=
  replacePairs (· == 0x5C) 0x5C (replacePairs (· == 0x3B) 0x3B (replacePairs (· == 0x2C) 0x2C
    (replacePairs isLetterN 0x0A value)))

section

variable (toUpperCase : JsText → JsText)

/-- The name and the value of a line. -/
def lineField (line : JsText) : Option (JsText × JsText) :=
  match splitOnce 0x3A line with
  | none => none
  | some ([], _) => none
  | some (label, value) =>
    let name := toUpperCase (label.takeWhile (· ≠ 0x3B))
    if name = [] then none else some (name, value)

def setField (fields : OrderedMap JsText JsText) (line : JsText) : OrderedMap JsText JsText :=
  match lineField toUpperCase line with
  | some (name, value) => fields.set name value
  | none => fields

def blockFields (block : JsText) : OrderedMap JsText JsText :=
  (splitLines block).foldl (setField toUpperCase) OrderedMap.empty

/-- The date of eight digits. -/
def datedText (start : JsText) : JsText :=
  if 8 ≤ start.length ∧ (start.take 8).all isDigitUnit then
    start.take 4 ++ 0x2D :: (start.drop 4).take 2 ++ 0x2D :: (start.drop 6).take 2
  else []

def readEvent (block : JsText) : Option ImportedCalendarTask :=
  let fields := blockFields toUpperCase block
  let title := unescapeText (((fields.get (units "SUMMARY")).map JsText.trim).getD [])
  let dueOn := datedText (((fields.get (units "DTSTART")).map JsText.trim).getD [])
  if title = [] ∨ dueOn = [] then none
  else some ⟨title, unescapeText ((fields.get (units "DESCRIPTION")).getD []), dueOn⟩

def fromIcs (text : JsText) : List ImportedCalendarTask :=
  (blocks beginEvent endEvent (unfoldLines text)).filterMap (readEvent toUpperCase)

end

end ShishiTodo.Export
