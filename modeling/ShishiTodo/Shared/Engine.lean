import ShishiTodo.Shared.Server

/-!
# The shared-list client

`SharedSyncEngine` over its store: the last server copy of each list, the outbox of local edits, and the tasks shown, which are the copy with the pending edits applied. One definition for each transaction on the store; when the engine calls the network and what comes back is left to the machine at the end.
-/

namespace ShishiTodo

open Lib

/-! ### Text -/

def maxTitleLength : Nat := 1000

def maxNoteLength : Nat := 20000

/-- The characters of `\s` in a JavaScript pattern, which `trim` also removes. -/
def isJsWhitespace (c : Char) : Bool :=
  let n := c.toNat
  (9 ≤ n && n ≤ 13) || n == 0x20 || n == 0xA0 || n == 0x1680 || (0x2000 ≤ n && n ≤ 0x200A) ||
    n == 0x2028 || n == 0x2029 || n == 0x202F || n == 0x205F || n == 0x3000 || n == 0xFEFF

/-- Runs of at least `bound` characters with the property, each replaced by one space. -/
def replaceRuns (property : Char → Bool) (bound : Nat) (chars : List Char) : List Char :=
  (chars.splitBy fun left right => property left && property right).flatMap fun run =>
    if run.all property && decide (bound ≤ run.length) then [' '] else run

def jsTrim (chars : List Char) : List Char :=
  ((chars.dropWhile isJsWhitespace).reverse.dropWhile isJsWhitespace).reverse

/-- `slice(0, units)`, which counts UTF-16 units. -/
def sliceUnits : Nat → List Char → List Char
  | _, [] => []
  | units, c :: rest =>
      let size := if c.toNat < 0x10000 then 1 else 2
      if size ≤ units then c :: sliceUnits (units - size) rest else []

def cleanSingleLine (value : String) (maxLength : Nat) : String :=
  let isBreak := fun c : Char => c == '\r' || c == '\n' || c == '\t'
  String.ofList <| sliceUnits maxLength <| jsTrim <| replaceRuns isJsWhitespace 2 <|
    replaceRuns isBreak 1 value.toList

/-- `replace(/\r\n/g, '\n')`. -/
def unixLines : List Char → List Char
  | [] => []
  | '\r' :: '\n' :: rest => '\n' :: unixLines rest
  | c :: rest => c :: unixLines rest

def cleanNote (value : String) : String :=
  String.ofList (sliceUnits maxNoteLength (unixLines value.toList))

/-! ### The store -/

structure SharedTaskPatch where
  title : Option String
  note : Option String
  status : Option TaskStatus
  important : Option Bool
  dueOn : Option (Option NaiveDate)
  deriving DecidableEq, Repr

def SharedTaskPatch.empty : SharedTaskPatch where
  title := none
  note := none
  status := none
  important := none
  dueOn := none

inductive SharedOpKind where
  | create | patch | delete
  deriving DecidableEq, Repr

inductive SharedOpStatus where
  | pending | rejected
  deriving DecidableEq, Repr

structure SharedOpRecord where
  opId : Uuid
  listId : Uuid
  seq : Nat
  kind : SharedOpKind
  taskId : Uuid
  patch : SharedTaskPatch
  /-- The values the edit was made against. -/
  base : SharedTaskPatch
  status : SharedOpStatus
  errorCode : Option String
  createdAt : Instant
  deriving DecidableEq, Repr

/-- A list that was removed from us or deleted is kept read-only. -/
inductive ListAccess where
  | active | revoked | deleted
  deriving DecidableEq, Repr

/-- The last server copy of a list. -/
structure SharedShadow where
  members : List SharedMember
  invitations : List SharedInvitation
  tasks : List SharedTask
  deriving DecidableEq, Repr

structure SharedListRecord where
  id : Uuid
  summary : SharedListSummary
  snapshot : Option SharedShadow
  /-- The revision of the snapshot, 0 before the first. -/
  revision : Int
  access : ListAccess
  syncedAt : Option Instant
  error : Option String
  deriving DecidableEq, Repr

structure SharedTaskRecord where
  task : SharedTask
  position : Nat
  pending : Bool
  deriving DecidableEq, Repr

structure SharedSpace where
  lists : Table Uuid SharedListRecord
  tasks : Table Uuid SharedTaskRecord
  outbox : Table Uuid SharedOpRecord
  outboxSeq : Nat

def SharedSpace.empty : SharedSpace where
  lists := ∅
  tasks := ∅
  outbox := ∅
  outboxSeq := 0

namespace SharedSpace

variable (space : SharedSpace)

/-- The operations of a list, in the order of their sequence. -/
def ops (listId : Uuid) : List SharedOpRecord :=
  ((space.outbox.entries.map Sigma.snd).filter fun op => op.listId == listId).insertionSort
    fun left right => left.seq ≤ right.seq

def putList (record : SharedListRecord) : SharedSpace :=
  { space with lists := space.lists.insert record.id record }

def putOp (op : SharedOpRecord) : SharedSpace :=
  { space with outbox := space.outbox.insert op.opId op }

def deleteOp (opId : Uuid) : SharedSpace := { space with outbox := space.outbox.erase opId }

/-- The tasks of a list give way to the rows. -/
def replaceTasks (listId : Uuid) (rows : List SharedTaskRecord) : SharedSpace :=
  let kept := space.tasks.select fun _ row => row.task.listId != listId
  { space with tasks := rows.foldl (fun table row => table.insert row.task.id row) kept }

/-- A list goes with its tasks and its operations. -/
def deleteList (listId : Uuid) : SharedSpace where
  lists := space.lists.erase listId
  tasks := space.tasks.select fun _ row => row.task.listId != listId
  outbox := space.outbox.select fun _ op => op.listId != listId
  outboxSeq := space.outboxSeq

end SharedSpace

/-! ### Rebase -/

def createdRecord (listId : Uuid) (op : SharedOpRecord) (offset : Nat) : SharedTaskRecord where
  task := {
    id := op.taskId
    listId := listId
    title := op.patch.title.getD ""
    note := op.patch.note.getD ""
    status := .open
    important := op.patch.important.getD false
    dueOn := op.patch.dueOn.getD none
    rank := "a0"
    revision := 0
    createdAt := op.createdAt
    updatedAt := op.createdAt }
  position := offset + op.seq
  pending := true

/-- Another member changed the field, and not to what the operation asks for. -/
def fieldConflicts {α : Type} [DecidableEq α] (kind : SharedOpKind) (remote : α)
    (base patch : Option α) : Bool :=
  match base with
  | none => false
  | some base => remote != base && (kind == .delete || patch != some remote)

def conflicts (current : SharedTask) (op : SharedOpRecord) : Bool :=
  fieldConflicts op.kind current.title op.base.title op.patch.title ||
    fieldConflicts op.kind current.note op.base.note op.patch.note ||
    fieldConflicts op.kind current.status op.base.status op.patch.status ||
    fieldConflicts op.kind current.important op.base.important op.patch.important ||
    fieldConflicts op.kind current.dueOn op.base.dueOn op.patch.dueOn

/-- `{ ...task, ...patch }`. -/
def SharedTask.overlay (task : SharedTask) (patch : SharedTaskPatch) : SharedTask :=
  { task with
    title := patch.title.getD task.title
    note := patch.note.getD task.note
    status := patch.status.getD task.status
    important := patch.important.getD task.important
    dueOn := patch.dueOn.getD task.dueOn }

structure RebaseResult where
  tasks : List SharedTaskRecord
  rejected : List (Uuid × String)
  dropped : List Uuid
  deriving DecidableEq, Repr

/-- `working.set`: a key keeps its place, a new one goes last. -/
def setTask (row : SharedTaskRecord) : List SharedTaskRecord → List SharedTaskRecord
  | [] => [row]
  | old :: rest => if old.task.id = row.task.id then row :: rest else old :: setTask row rest

/-- The loop body of `rebaseSharedTasks`. -/
def rebaseOp (listId : Uuid) (offset : Nat) (result : RebaseResult) (op : SharedOpRecord) :
    RebaseResult :=
  if op.status ≠ .pending then result
  else match op.kind, result.tasks.find? fun row => row.task.id == op.taskId with
    | .create, some current => { result with tasks := setTask { current with pending := true } result.tasks }
    | .create, none => { result with tasks := setTask (createdRecord listId op offset) result.tasks }
    | .delete, none => { result with dropped := result.dropped ++ [op.opId] }
    | .patch, none =>
        { result with rejected := result.rejected ++ [(op.opId, "SHARED_TASK_NOT_FOUND")] }
    | kind, some current =>
        if conflicts current.task op then
          { result with rejected := result.rejected ++ [(op.opId, "SHARED_EDIT_CONFLICT")] }
        else if kind = .delete then
          { result with tasks := result.tasks.filter fun row => row.task.id != op.taskId }
        else
          let patched := { current with task := current.task.overlay op.patch, pending := true }
          { result with tasks := setTask patched result.tasks }

def rebaseSharedTasks (listId : Uuid) (shadow : List SharedTask) (ops : List SharedOpRecord) :
    RebaseResult :=
  let working := shadow.zipIdx.foldl (fun working entry =>
    setTask { task := entry.1, position := entry.2, pending := false } working) []
  let result := (ops.insertionSort fun left right => left.seq ≤ right.seq).foldl
    (rebaseOp listId shadow.length) { tasks := working, rejected := [], dropped := [] }
  { result with tasks := result.tasks.insertionSort fun left right => left.position ≤ right.position }

/-- Marks what the rebase rejected. -/
def SharedSpace.rejectListed (space : SharedSpace) (ops : List SharedOpRecord)
    (rejected : List (Uuid × String)) : SharedSpace :=
  rejected.foldl (fun space entry =>
    match ops.find? fun op => op.opId == entry.1 with
    | some op => space.putOp { op with status := .rejected, errorCode := some entry.2 }
    | none => space) space

def applyRebase (space : SharedSpace) (record : SharedListRecord) : SharedSpace :=
  match record.snapshot with
  | none => space
  | some shadow =>
      let ops := space.ops record.id
      let result := rebaseSharedTasks record.id shadow.tasks ops
      let marked := space.rejectListed ops result.rejected
      let dropped := result.dropped.foldl SharedSpace.deleteOp marked
      dropped.replaceTasks record.id result.tasks

def emptyRecord (summary : SharedListSummary) : SharedListRecord where
  id := summary.id
  summary := summary
  snapshot := none
  revision := 0
  access := .active
  syncedAt := none
  error := none

def SharedListRecord.editable (record : SharedListRecord) : Bool :=
  record.access == .active && record.snapshot.isSome && record.summary.role != .viewer

/-! ### What comes back from the server -/

/-- The store after a pull. A slower, older snapshot does not roll the copy back. -/
def SharedSpace.pulled (space : SharedSpace) (listId : Uuid) (snapshot : SharedSnapshot)
    (now : Instant) : SharedSpace :=
  let stale := (space.lists.lookup listId).any fun current =>
    current.snapshot.isSome && decide (snapshot.revision < current.revision)
  if stale then space
  else
    let next : SharedListRecord := {
      id := listId
      summary := snapshot.list
      snapshot := some {
        members := snapshot.members
        invitations := snapshot.invitations
        tasks := snapshot.tasks }
      revision := snapshot.revision
      access := .active
      syncedAt := some now
      error := none }
    applyRebase (space.putList next) next

/-- Pending operations of the list, or the one among them, become rejected. -/
def SharedSpace.rejectPending (space : SharedSpace) (listId : Uuid) (code : String)
    (only : Option Uuid) : SharedSpace :=
  (space.ops listId).foldl (fun space op =>
    if op.status = .pending ∧ only.all (· == op.opId) then
      space.putOp { op with status := .rejected, errorCode := some code }
    else space) space

def SharedSpace.loseAccess (space : SharedSpace) (listId : Uuid) (access : ListAccess)
    (code : String) : SharedSpace :=
  match space.lists.lookup listId with
  | none => space
  | some record =>
      let next := { record with access := access, error := none }
      applyRebase ((space.rejectPending listId code none).putList next) next

def SharedSpace.rejectOps (space : SharedSpace) (listId : Uuid) (code : String)
    (only : Option Uuid) : SharedSpace :=
  match space.lists.lookup listId with
  | none => space
  | some record => applyRebase (space.rejectPending listId code only) record

/-- `tasks[index] = applied`, or `tasks.push(applied)`. -/
def foldApplied (tasks : List SharedTask) (taskId : Uuid) (applied : SharedTask) : List SharedTask :=
  match tasks.findIdx? fun task => task.id == taskId with
  | some index => tasks.set index applied
  | none => tasks ++ [applied]

/-- Drops a delivered operation, and folds its result into the copy when it is known. -/
def SharedSpace.settle (space : SharedSpace) (listId : Uuid) (op : SharedOpRecord) (expected : Int)
    (applied : Option SharedTask) (now : Instant) : SharedSpace :=
  let space := space.deleteOp op.opId
  match space.lists.lookup listId with
  | none => space
  | some record =>
      match applied, record.snapshot, decide (record.revision = expected) with
      | some applied, some shadow, true =>
          let summary := { record.summary with
            revision := max record.summary.revision applied.revision }
          let next := { record with
            revision := applied.revision
            summary := summary
            snapshot := some { shadow with tasks := foldApplied shadow.tasks op.taskId applied }
            syncedAt := some now
            error := none }
          applyRebase (space.putList next) next
      | _, _, _ => applyRebase space record

def AppError.status : AppError → Nat
  | .badRequest .. => 400
  | .unauthorized .. => 401
  | .forbidden .. => 403
  | .notFound .. => 404
  | .conflict .. => 409
  | .revisionConflict _ => 409
  | .internal _ => 500

def AppError.code : AppError → String
  | .badRequest code _ => code
  | .unauthorized code _ => code
  | .forbidden code _ => code
  | .notFound code _ => code
  | .conflict code _ => code
  | .revisionConflict _ => "REVISION_CONFLICT"
  | .internal _ => "INTERNAL"

def accessLoss (error : AppError) : Option ListAccess :=
  if error.status = 403 ∧ error.code = "SHARED_LIST_ACCESS_REVOKED" then some .revoked
  else if error.status = 404 ∧ error.code = "SHARED_LIST_NOT_FOUND" then some .deleted
  else none

/-- A failure that a later attempt may not meet: an expired login, or a server in trouble. -/
def isOffline (error : AppError) : Bool :=
  error.status == 401 || error.status == 429 || decide (500 ≤ error.status)

/-- What `push` does with an error answer. -/
def SharedSpace.pushFailed (space : SharedSpace) (op : SharedOpRecord) (expected : Int)
    (error : AppError) (now : Instant) : SharedSpace :=
  match accessLoss error with
  | some access => space.loseAccess op.listId access error.code
  | none =>
      if isOffline error || error.code = "REVISION_CONFLICT" then space
      else if error.code = "SHARED_LIST_FORBIDDEN" then space.rejectOps op.listId error.code none
      else if error.code = "SHARED_TASK_NOT_FOUND" ∧ op.kind = .delete then
        space.settle op.listId op expected none now
      else space.rejectOps op.listId error.code (some op.opId)

/-- The task of an answer one revision later; only then is it known to be our copy plus the operation. -/
def knownResult (op : SharedOpRecord) (expected : Int) : SharedResponse → Option SharedTask
  | .task task => if op.kind ≠ .delete ∧ task.revision = expected + 1 then some task else none
  | _ => none

/-- The record of a list that the server counts us a member of. -/
def SharedSpace.listed (space : SharedSpace) (summary : SharedListSummary) : SharedListRecord :=
  match space.lists.lookup summary.id with
  | some existing => { existing with summary := summary, access := .active }
  | none => emptyRecord summary

/-- `refreshIndex`, once the index has come. -/
def SharedSpace.indexed (space : SharedSpace) (summaries : List SharedListSummary) : SharedSpace :=
  summaries.foldl (fun next summary => next.putList (space.listed summary)) space

/-- `acceptInvitation`, once the list has come. -/
def SharedSpace.joined (space : SharedSpace) (summary : SharedListSummary) : SharedSpace :=
  space.putList (space.listed summary)

/-! ### Local edits -/

structure NewSharedTask where
  title : String
  note : Option String
  important : Option Bool
  dueOn : Option NaiveDate
  deriving DecidableEq, Repr

/-- The fields of a task that a patch or a base can name. -/
def SharedTask.pick (task : SharedTask) (fields : SharedTaskPatch) : SharedTaskPatch where
  title := fields.title.map fun _ => task.title
  note := fields.note.map fun _ => task.note
  status := fields.status.map fun _ => task.status
  important := fields.important.map fun _ => task.important
  dueOn := fields.dueOn.map fun _ => task.dueOn

/-- `pick(task, TASK_FIELDS)`. -/
def SharedTask.allFields (task : SharedTask) : SharedTaskPatch where
  title := some task.title
  note := some task.note
  status := some task.status
  important := some task.important
  dueOn := some task.dueOn

/-- `normalizePatch`; a title that is blank is refused. -/
def normalizePatch (patch : SharedTaskPatch) : Option SharedTaskPatch :=
  let title := patch.title.map fun title => cleanSingleLine title maxTitleLength
  if title == some "" then none
  else some { patch with title := title, note := patch.note.map cleanNote }

/-- `enqueue`: the list must be editable; the operation gets the next sequence. -/
def SharedSpace.enqueue (space : SharedSpace) (listId opId taskId : Uuid) (kind : SharedOpKind)
    (patch base : SharedTaskPatch) (now : Instant) : SharedSpace :=
  match (space.lists.lookup listId).filter SharedListRecord.editable with
  | none => space
  | some record =>
      let op : SharedOpRecord := {
        opId := opId
        listId := listId
        seq := space.outboxSeq + 1
        kind := kind
        taskId := taskId
        patch := patch
        base := base
        status := .pending
        errorCode := none
        createdAt := now }
      applyRebase ({ space with outboxSeq := space.outboxSeq + 1 }.putOp op) record

def SharedSpace.createTask (space : SharedSpace) (listId opId taskId : Uuid) (input : NewSharedTask)
    (now : Instant) : SharedSpace :=
  let title := cleanSingleLine input.title maxTitleLength
  if title = "" then space
  else
    let patch : SharedTaskPatch := {
      title := some title
      note := some (cleanNote (input.note.getD ""))
      status := none
      important := some (input.important.getD false)
      dueOn := some input.dueOn }
    space.enqueue listId opId taskId .create patch .empty now

/-- The shown task, when it is one of the list. -/
def SharedSpace.shownTask (space : SharedSpace) (listId taskId : Uuid) : Option SharedTaskRecord :=
  (space.tasks.lookup taskId).filter fun row => row.task.listId == listId

def SharedSpace.updateTask (space : SharedSpace) (listId opId taskId : Uuid)
    (patch : SharedTaskPatch) (now : Instant) : SharedSpace :=
  match normalizePatch patch, space.shownTask listId taskId with
  | some clean, some row =>
      if clean = .empty then space
      else space.enqueue listId opId taskId .patch clean (row.task.pick clean) now
  | _, _ => space

def SharedSpace.deleteTask (space : SharedSpace) (listId opId taskId : Uuid) (now : Instant) :
    SharedSpace :=
  match space.shownTask listId taskId with
  | some row => space.enqueue listId opId taskId .delete .empty row.task.allFields now
  | none => space

def SharedSpace.discardOp (space : SharedSpace) (listId opId : Uuid) : SharedSpace :=
  let space := space.deleteOp opId
  match space.lists.lookup listId with
  | some record => applyRebase space record
  | none => space

/-- Puts an operation that met an edit conflict back into the queue, against the values shown now. -/
def SharedSpace.retryOp (space : SharedSpace) (listId opId : Uuid) : SharedSpace :=
  match (space.lists.lookup listId).filter SharedListRecord.editable,
      (space.ops listId).find? fun op => op.opId == opId with
  | some record, some op =>
      match space.tasks.lookup op.taskId with
      | some row =>
          if op.status = .rejected ∧ op.errorCode = some "SHARED_EDIT_CONFLICT" then
            let retried := { op with
              seq := space.outboxSeq + 1
              base := row.task.pick op.base
              status := .pending
              errorCode := none }
            applyRebase ({ space with outboxSeq := space.outboxSeq + 1 }.putOp retried) record
          else space
      | none => space
  | _, _ => space

def SharedSpace.removeLocalCopy (space : SharedSpace) (listId : Uuid) : SharedSpace :=
  if (space.lists.lookup listId).any fun record => record.access == .active then space
  else space.deleteList listId

/-- `nextPending`. -/
def SharedSpace.nextPending (space : SharedSpace) (listId : Uuid) : Option SharedOpRecord :=
  (space.ops listId).find? fun op => op.status == .pending

end ShishiTodo
