import ShishiTodo.Server.Sync
import ShishiTodo.Lib.Except
import ShishiTodo.Lib.Table
import Mathlib.Data.List.Infix
import Mathlib.Data.List.Sort
import Mathlib.Data.String.Basic

/-!
# Shared lists on the server

The tables and the endpoints of `shared.rs`. Every request is one transaction under the lock of its list; a write checks the caller's role, answers a repeated operation from its receipt, refuses a revision that is not the current one, and otherwise writes, raises the revision by one and leaves a receipt.
-/

namespace ShishiTodo

open Lib

inductive SharedRole where
  | owner | editor | viewer
  deriving DecidableEq, Repr

namespace SharedRole

def parse : String → Option SharedRole
  | "owner" => some .owner
  | "editor" => some .editor
  | "viewer" => some .viewer
  | _ => none

def canEdit : SharedRole → Bool
  | .owner | .editor => true
  | .viewer => false

def isOwner : SharedRole → Bool
  | .owner => true
  | .editor | .viewer => false

end SharedRole

/-! ### Tables -/

/-- A row of `users`, as the shared endpoints read it. -/
structure AccountRow where
  email : String
  deletedAt : Option Instant
  deriving DecidableEq, Repr

structure SharedListRow where
  ownerId : Uuid
  name : String
  color : Option String
  icon : Option String
  rank : String
  revision : Int
  createdAt : Instant
  updatedAt : Instant
  deletedAt : Option Instant
  deriving DecidableEq, Repr

structure SharedMemberRow where
  role : SharedRole
  createdAt : Instant
  deletedAt : Option Instant
  deriving DecidableEq, Repr

structure SharedTaskRow where
  listId : Uuid
  title : String
  note : String
  status : TaskStatus
  important : Bool
  dueOn : Option NaiveDate
  rank : String
  createdAt : Instant
  updatedAt : Instant
  deletedAt : Option Instant
  deriving DecidableEq, Repr

inductive InvitationStatus where
  | pending | accepted | declined | revoked
  deriving DecidableEq, Repr

structure InvitationRow where
  listId : Uuid
  email : String
  role : SharedRole
  status : InvitationStatus
  invitedBy : Uuid
  respondedBy : Option Uuid
  createdAt : Instant
  updatedAt : Instant
  deriving DecidableEq, Repr

structure SharedReceiptRow where
  actorId : Uuid
  revision : Int
  deriving DecidableEq, Repr

structure SharedDb where
  users : Table Uuid AccountRow
  lists : Table Uuid SharedListRow
  /-- Keyed by list and user. -/
  members : Table (Uuid × Uuid) SharedMemberRow
  tasks : Table Uuid SharedTaskRow
  invitations : Table Uuid InvitationRow
  /-- Keyed by list and operation. -/
  receipts : Table (Uuid × Uuid) SharedReceiptRow

def SharedDb.empty : SharedDb where
  users := ∅
  lists := ∅
  members := ∅
  tasks := ∅
  invitations := ∅
  receipts := ∅

/-! ### Answers -/

structure SharedListSummary where
  id : Uuid
  ownerId : Uuid
  name : String
  color : Option String
  icon : Option String
  rank : String
  revision : Int
  role : SharedRole
  createdAt : Instant
  updatedAt : Instant
  deriving DecidableEq, Repr

structure SharedTask where
  id : Uuid
  listId : Uuid
  title : String
  note : String
  status : TaskStatus
  important : Bool
  dueOn : Option NaiveDate
  rank : String
  revision : Int
  createdAt : Instant
  updatedAt : Instant
  deriving DecidableEq, Repr

structure SharedMember where
  userId : Uuid
  email : String
  role : SharedRole
  createdAt : Instant
  deriving DecidableEq, Repr

structure SharedInvitation where
  id : Uuid
  listId : Uuid
  listName : String
  email : String
  role : SharedRole
  status : InvitationStatus
  invitedBy : Uuid
  invitedByEmail : String
  revision : Int
  createdAt : Instant
  updatedAt : Instant
  deriving DecidableEq, Repr

structure SharedSnapshot where
  list : SharedListSummary
  members : List SharedMember
  invitations : List SharedInvitation
  tasks : List SharedTask
  revision : Int
  deriving DecidableEq, Repr

inductive SharedResponse where
  | lists (lists : List SharedListSummary)
  | list (list : SharedListSummary)
  | snapshot (snapshot : SharedSnapshot)
  | task (task : SharedTask)
  /-- `{"replayed": true, "revision": …}`. -/
  | replayed (revision : Int)
  | invitation (invitation : SharedInvitation)
  | member (member : SharedMember)
  | noContent
  deriving DecidableEq, Repr

/-! ### Requests -/

structure CreateListRequest where
  name : String
  color : Option String
  icon : Option String
  opId : Option Uuid
  deriving DecidableEq, Repr

structure CreateTaskRequest where
  id : Option Uuid
  title : String
  note : Option String
  important : Option Bool
  dueOn : Option NaiveDate
  revision : Option Int
  opId : Option Uuid
  deriving DecidableEq, Repr

structure PatchTaskRequest where
  title : Option String
  note : Option String
  status : Option String
  important : Option Bool
  /-- `double_option`: absent, null or a date. -/
  dueOn : Option (Option NaiveDate)
  revision : Option Int
  opId : Option Uuid
  deriving DecidableEq, Repr

structure RevisionRequest where
  revision : Option Int
  opId : Option Uuid
  deriving DecidableEq, Repr

structure AddMemberRequest where
  email : String
  role : String
  revision : Option Int
  opId : Option Uuid
  deriving DecidableEq, Repr

structure PatchMemberRequest where
  role : String
  revision : Option Int
  opId : Option Uuid
  deriving DecidableEq, Repr

inductive SharedRequest where
  | listLists
  | getList (listId : Uuid)
  | createList (request : CreateListRequest)
  | createTask (listId : Uuid) (ifMatch : Option Int) (request : CreateTaskRequest)
  | patchTask (listId taskId : Uuid) (ifMatch : Option Int) (request : PatchTaskRequest)
  | deleteTask (listId taskId : Uuid) (ifMatch : Option Int) (request : RevisionRequest)
  | addMember (listId : Uuid) (ifMatch : Option Int) (request : AddMemberRequest)
  | acceptInvitation (invitationId : Uuid) (opId : Option Uuid)
  | declineInvitation (invitationId : Uuid) (opId : Option Uuid)
  | patchMember (listId userId : Uuid) (ifMatch : Option Int) (request : PatchMemberRequest)
  | removeMember (listId userId : Uuid) (ifMatch : Option Int) (request : RevisionRequest)
  | deleteList (listId : Uuid) (ifMatch : Option Int) (request : RevisionRequest)
  deriving DecidableEq, Repr

/-- The operation that a request names. -/
def SharedRequest.opId : SharedRequest → Option Uuid
  | .listLists | .getList _ => none
  | .createList request => request.opId
  | .createTask _ _ request => request.opId
  | .patchTask _ _ _ request => request.opId
  | .deleteTask _ _ _ request => request.opId
  | .addMember _ _ request => request.opId
  | .acceptInvitation _ opId => opId
  | .declineInvitation _ opId => opId
  | .patchMember _ _ _ request => request.opId
  | .removeMember _ _ _ request => request.opId
  | .deleteList _ _ request => request.opId

/-- Who sends a request, the time, and the identifiers that `Uuid::new_v4` gives while it is served. -/
structure SharedCall where
  actor : Uuid
  now : Instant
  newId : Uuid
  receiptId : Uuid
  deriving DecidableEq, Repr

/-! ### Checks -/

def listNotFound : AppError := .notFound "SHARED_LIST_NOT_FOUND" "The shared list was not found"

def taskNotFound : AppError := .notFound "SHARED_TASK_NOT_FOUND" "The shared task was not found"

def memberNotFound : AppError :=
  .notFound "SHARED_MEMBER_NOT_FOUND" "The shared list member was not found"

def invitationNotFound : AppError :=
  .notFound "SHARED_INVITATION_NOT_FOUND" "The shared list invitation was not found"

def invitationNotPending : AppError :=
  .conflict "SHARED_INVITATION_NOT_PENDING" "The shared list invitation was already answered"

def listAccessRevoked : AppError :=
  .forbidden "SHARED_LIST_ACCESS_REVOKED" "Your access to this shared list was removed"

structure SharedAccess where
  revision : Int
  role : SharedRole
  deriving DecidableEq, Repr

def SharedDb.liveList (db : SharedDb) (listId : Uuid) : Option SharedListRow :=
  (db.lists.lookup listId).filter fun row => row.deletedAt.isNone

def SharedDb.activeMember (db : SharedDb) (listId userId : Uuid) : Option SharedMemberRow :=
  (db.members.lookup (listId, userId)).filter fun row => row.deletedAt.isNone

def lockAccess (db : SharedDb) (listId userId : Uuid) : ApiResult SharedAccess :=
  match db.liveList listId, db.activeMember listId userId with
  | some list, some member => .ok { revision := list.revision, role := member.role }
  | list, _ =>
      -- A former member of a live list learns that access was revoked.
      if list.isSome && (db.members.lookup (listId, userId)).any (·.deletedAt.isSome) then
        .error listAccessRevoked
      else .error listNotFound

def requireEditor (role : SharedRole) : ApiResult Unit :=
  refuseIf (!role.canEdit)
    (.forbidden "SHARED_LIST_FORBIDDEN" "Editor access is required for this shared list")

def requireOwner (role : SharedRole) : ApiResult Unit :=
  refuseIf (!role.isOwner)
    (.forbidden "SHARED_LIST_FORBIDDEN" "Owner access is required for this shared list")

def checkPositive (revision : Int) : ApiResult Int :=
  if revision ≤ 0 then .error (.validation "revision must be positive") else .ok revision

/-- `expected_revision`, after the header was read as a number. -/
def expectedRevision (ifMatch bodyRevision : Option Int) : ApiResult Int :=
  match ifMatch, bodyRevision with
  | some header, some body =>
      if header ≠ body then .error (.validation "If-Match and body revision must agree")
      else checkPositive header
  | some header, none => checkPositive header
  | none, some body => checkPositive body
  | none, none =>
      .error (.badRequest "REVISION_REQUIRED" "Provide If-Match or a revision in the request body")

def checkRevision (current expected : Int) : ApiResult Unit :=
  refuseIf (current ≠ expected) (.revisionConflict current)

def rejectUnstorableChars (name value : String) : ApiResult Unit :=
  refuseIf (containsNul value) (.validation s!"{name} may not contain NUL characters")

def validateText (name value : String) (maxChars : Nat) : ApiResult String := do
  let value := trim value
  rejectUnstorableChars name value
  refuseIf (value.isEmpty || decide (value.length > maxChars))
    (.validation s!"{name} must contain 1–{maxChars} characters")
  return value

def validateNote (value : String) : ApiResult String := do
  rejectUnstorableChars "note" value
  refuseIf (value.utf8ByteSize > 100000) (.validation "note is too long")
  return value

def validateOptionalText (name : String) (value : Option String) (maxChars : Nat) :
    ApiResult (Option String) :=
  match (value.map trim).filter fun value => !value.isEmpty with
  | none => .ok none
  | some value => do
      rejectUnstorableChars name value
      refuseIf (value.length > maxChars)
        (.validation s!"{name} must be at most {maxChars} characters")
      return some value

/-- `PG_DATE_FLOOR`: 4714-11-24 BC. -/
def pgDateFloor : NaiveDate := ⟨-2440588⟩

def validateDueOn (value : Option NaiveDate) : ApiResult (Option NaiveDate) := do
  refuseIf (value.any fun date => decide (date.days < pgDateFloor.days))
    (.validation "due_on must be a date PostgreSQL can store")
  return value

def parseRole (value : String) : ApiResult SharedRole :=
  match SharedRole.parse value with
  | some role => .ok role
  | none => .error (.validation "role must be owner, editor, or viewer")

def parseInviteRole (value : String) : ApiResult SharedRole := do
  let role ← parseRole value
  refuseIf role.isOwner (.validation "invitations can only grant editor or viewer access")
  return role

def parseTaskStatus (value : String) : ApiResult TaskStatus :=
  match TaskStatus.parse value with
  | some status => .ok status
  | none => .error (.validation "status must be open or completed")

/-! ### Addresses -/

def isValidLocalChar (c : Char) : Bool := c.isAlphanum || ".!#$%&'*+-/=?^_`\x7b|\x7d~".toList.contains c

def validDomainLabel (label : List Char) : Bool :=
  !label.isEmpty && decide (label.length ≤ 63) && label.head? != some '-' &&
    label.getLast? != some '-' && label.all fun c => c.isAlphanum || c == '-'

/-- `normalize_email`. -/
def normalizeEmail (input : String) : Option String :=
  let trimmed := trim input
  if trimmed.utf8ByteSize > 254 then none
  else match trimmed.toList.splitOn '@' with
    | [name, domain] =>
        if name.isEmpty || decide ((String.ofList name).utf8ByteSize > 64) || domain.isEmpty ||
            decide ((String.ofList domain).utf8ByteSize > 253) then none
        else if name.head? == some '.' || name.getLast? == some '.' ||
            decide (['.', '.'] <:+: name) || !name.all isValidLocalChar then none
        else if !domain.contains '.' || !(domain.splitOn '.').all validDomainLabel then none
        else some (String.ofList (trimmed.toList.map Char.toLower))
    | _ => none

/-! ### Reads -/

def summaryOf (listId : Uuid) (list : SharedListRow) (role : SharedRole) : SharedListSummary where
  id := listId
  ownerId := list.ownerId
  name := list.name
  color := list.color
  icon := list.icon
  rank := list.rank
  revision := list.revision
  role := role
  createdAt := list.createdAt
  updatedAt := list.updatedAt

def fetchListSummary (db : SharedDb) (listId userId : Uuid) : ApiResult SharedListSummary :=
  match db.liveList listId, db.activeMember listId userId with
  | some list, some member => .ok (summaryOf listId list member.role)
  | _, _ => .error listNotFound

/-- A task as it is answered: its row, with the revision of its list. -/
def taskOf (taskId : Uuid) (row : SharedTaskRow) (revision : Int) : SharedTask where
  id := taskId
  listId := row.listId
  title := row.title
  note := row.note
  status := row.status
  important := row.important
  dueOn := row.dueOn
  rank := row.rank
  revision := revision
  createdAt := row.createdAt
  updatedAt := row.updatedAt

def SharedDb.liveTask (db : SharedDb) (listId taskId : Uuid) : Option SharedTaskRow :=
  (db.tasks.lookup taskId).filter fun row => row.listId == listId && row.deletedAt.isNone

/-- `fetch_task`; the join takes the revision of the list, deleted or not. -/
def fetchTask (db : SharedDb) (listId taskId : Uuid) : ApiResult SharedTask :=
  match db.liveTask listId taskId, db.lists.lookup listId with
  | some row, some list => .ok (taskOf taskId row list.revision)
  | _, _ => .error taskNotFound

/-- `ORDER BY rank, created_at, id`. -/
def taskOrder (left right : SharedTask) : Prop :=
  left.rank < right.rank ∨ (left.rank = right.rank ∧
    (left.createdAt.nanos < right.createdAt.nanos ∨
      (left.createdAt.nanos = right.createdAt.nanos ∧ left.id.bits.toNat ≤ right.id.bits.toNat)))

instance : DecidableRel taskOrder := fun left right => by
  unfold taskOrder
  infer_instance

def snapshotTasks (db : SharedDb) (listId : Uuid) (revision : Int) : List SharedTask :=
  ((db.tasks.entries.filter fun entry =>
      entry.2.listId == listId && entry.2.deletedAt.isNone).map fun entry =>
    taskOf entry.1 entry.2 revision).insertionSort taskOrder

def memberOf (userId : Uuid) (account : AccountRow) (member : SharedMemberRow) : SharedMember where
  userId := userId
  email := account.email
  role := member.role
  createdAt := member.createdAt

def snapshotMembers (db : SharedDb) (listId : Uuid) : List SharedMember :=
  (db.members.entries.filterMap fun entry =>
    match (db.users.lookup entry.1.2).filter fun account => account.deletedAt.isNone with
    | some account =>
        if entry.1.1 = listId ∧ entry.2.deletedAt = none then
          some (memberOf entry.1.2 account entry.2)
        else none
    | none => none).insertionSort fun left right =>
      left.createdAt.nanos < right.createdAt.nanos ∨
        (left.createdAt.nanos = right.createdAt.nanos ∧
          left.userId.bits.toNat ≤ right.userId.bits.toNat)

/-- `INVITATION_SELECT` for one row. -/
def invitationOf (db : SharedDb) (invitationId : Uuid) (row : InvitationRow) :
    Option SharedInvitation :=
  match db.lists.lookup row.listId, db.users.lookup row.invitedBy with
  | some list, some inviter => some {
      id := invitationId
      listId := row.listId
      listName := list.name
      email := row.email
      role := row.role
      status := row.status
      invitedBy := row.invitedBy
      invitedByEmail := inviter.email
      revision := list.revision
      createdAt := row.createdAt
      updatedAt := row.updatedAt }
  | _, _ => none

def snapshotInvitations (db : SharedDb) (listId : Uuid) : List SharedInvitation :=
  (db.invitations.entries.filterMap fun entry =>
    if entry.2.listId = listId ∧ entry.2.status = .pending then
      invitationOf db entry.1 entry.2
    else none).insertionSort fun left right =>
      left.createdAt.nanos < right.createdAt.nanos ∨
        (left.createdAt.nanos = right.createdAt.nanos ∧ left.id.bits.toNat ≤ right.id.bits.toNat)

def listLists (call : SharedCall) (db : SharedDb) : ApiResult (SharedResponse × SharedDb) :=
  let lists := (db.lists.entries.filterMap fun entry =>
    (fetchListSummary db entry.1 call.actor).toOption).insertionSort fun left right =>
      right.updatedAt.nanos < left.updatedAt.nanos ∨
        (left.updatedAt.nanos = right.updatedAt.nanos ∧ left.id.bits.toNat ≤ right.id.bits.toNat)
  .ok (.lists lists, db)

def getList (call : SharedCall) (listId : Uuid) (db : SharedDb) :
    ApiResult (SharedResponse × SharedDb) := do
  let access ← lockAccess db listId call.actor
  let list ← fetchListSummary db listId call.actor
  let snapshot : SharedSnapshot := {
    list := list
    members := snapshotMembers db listId
    invitations := if access.role.isOwner then snapshotInvitations db listId else []
    tasks := snapshotTasks db listId list.revision
    revision := list.revision }
  return (.snapshot snapshot, db)

/-! ### Writes -/

/-- `bump_revision`, with the revision that `lock_access` read. -/
def SharedDb.bumpRevision (db : SharedDb) (listId : Uuid) (current : Int) (now : Instant) : SharedDb :=
  match db.lists.lookup listId with
  | none => db
  | some list =>
      let bumped := { list with revision := current + 1, updatedAt := now.toColumn }
      { db with lists := db.lists.insert listId bumped }

def replayReceipt (db : SharedDb) (listId : Uuid) (opId : Option Uuid) (actorId : Uuid) :
    ApiResult (Option Int) :=
  match opId.bind fun opId => db.receipts.lookup (listId, opId) with
  | none => .ok none
  | some receipt =>
      if receipt.actorId = actorId then .ok (some receipt.revision)
      else .error (.conflict "OP_ID_CONFLICT" "This operation id was used by another actor")

def insertReceipt (db : SharedDb) (call : SharedCall) (listId : Uuid) (opId : Option Uuid)
    (revision : Int) : ApiResult SharedDb :=
  let key := (listId, opId.getD call.receiptId)
  let receipt := { actorId := call.actor, revision := revision }
  if (db.receipts.lookup key).isSome then .error .database
  else .ok { db with receipts := db.receipts.insert key receipt }

def insertTask (db : SharedDb) (taskId : Uuid) (row : SharedTaskRow) : ApiResult SharedDb :=
  if (db.tasks.lookup taskId).isSome then
    .error (.conflict "SHARED_TASK_EXISTS" "A shared task with that id already exists")
  else .ok { db with tasks := db.tasks.insert taskId row }

def SharedDb.updateTask (db : SharedDb) (taskId : Uuid) (row : SharedTaskRow) : SharedDb :=
  { db with tasks := db.tasks.insert taskId row }

/-- The end of every write under `If-Match`: the revision and the receipt. -/
def commitWrite (db : SharedDb) (call : SharedCall) (listId : Uuid) (opId : Option Uuid)
    (current : Int) : ApiResult SharedDb :=
  insertReceipt (db.bumpRevision listId current call.now) call listId opId (current + 1)

def createList (call : SharedCall) (request : CreateListRequest) (db : SharedDb) :
    ApiResult (SharedResponse × SharedDb) := do
  let name ← validateText "name" request.name 120
  let color ← validateOptionalText "color" request.color 64
  let icon ← validateOptionalText "icon" request.icon 128
  let list : SharedListRow := {
    ownerId := call.actor
    name := name
    color := color
    icon := icon
    rank := "a0"
    revision := 1
    createdAt := call.now.toColumn
    updatedAt := call.now.toColumn
    deletedAt := none }
  let member : SharedMemberRow :=
    { role := .owner, createdAt := call.now.toColumn, deletedAt := none }
  -- The identifier is a fresh `Uuid::new_v4`.
  refuseIf (db.lists.lookup call.newId).isSome .database
  let db := { db with
    lists := db.lists.insert call.newId list
    members := db.members.insert (call.newId, call.actor) member }
  let db ← insertReceipt db call call.newId request.opId 1
  let answer := { summaryOf call.newId list .owner with createdAt := call.now, updatedAt := call.now }
  return (.list answer, db)

/-- What a repeated `create_task` answers. -/
def replayedCreate (db : SharedDb) (listId : Uuid) (taskId : Option Uuid) (revision : Int) :
    SharedResponse :=
  match taskId.bind fun taskId => (fetchTask db listId taskId).toOption with
  | some task => .task task
  | none => .replayed revision

def createTask (call : SharedCall) (listId : Uuid) (ifMatch : Option Int)
    (request : CreateTaskRequest) (db : SharedDb) : ApiResult (SharedResponse × SharedDb) := do
  let access ← lockAccess db listId call.actor
  requireEditor access.role
  match ← replayReceipt db listId request.opId call.actor with
  | some revision => return (replayedCreate db listId request.id revision, db)
  | none => do
      let expected ← expectedRevision ifMatch request.revision
      checkRevision access.revision expected
      let title ← validateText "title" request.title 1000
      let note ← validateNote (request.note.getD "")
      let dueOn ← validateDueOn request.dueOn
      let taskId := request.id.getD call.newId
      let row : SharedTaskRow := {
        listId := listId
        title := title
        note := note
        status := .open
        important := request.important.getD false
        dueOn := dueOn
        rank := "a0"
        createdAt := call.now.toColumn
        updatedAt := call.now.toColumn
        deletedAt := none }
      let db ← insertTask db taskId row
      let db ← commitWrite db call listId request.opId access.revision
      let answer := { taskOf taskId row (access.revision + 1) with
        createdAt := call.now
        updatedAt := call.now }
      return (.task answer, db)

/-- A field of a patch, checked, or what the row has. -/
def checkedOr {α β : Type} (check : α → ApiResult β) (value : Option α) (kept : β) : ApiResult β :=
  match value with
  | some value => check value
  | none => .ok kept

/-- The fields of a patch over the row. -/
def patchedTask (request : PatchTaskRequest) (row : SharedTaskRow) (now : Instant) :
    ApiResult SharedTaskRow := do
  let title ← checkedOr (fun value => validateText "title" value 1000) request.title row.title
  let note ← checkedOr validateNote request.note row.note
  let status ← checkedOr parseTaskStatus request.status row.status
  let dueOn ← validateDueOn (request.dueOn.getD row.dueOn)
  return { row with
    title := title
    note := note
    status := status
    important := request.important.getD row.important
    dueOn := dueOn
    updatedAt := now.toColumn }

def selectTask (db : SharedDb) (listId taskId : Uuid) : ApiResult SharedTaskRow :=
  match db.liveTask listId taskId with
  | some row => .ok row
  | none => .error taskNotFound

def patchTask (call : SharedCall) (listId taskId : Uuid) (ifMatch : Option Int)
    (request : PatchTaskRequest) (db : SharedDb) : ApiResult (SharedResponse × SharedDb) := do
  refuseIf (request.title.isNone && request.note.isNone && request.status.isNone &&
      request.important.isNone && request.dueOn.isNone)
    (.validation "at least one task field must be supplied")
  let access ← lockAccess db listId call.actor
  requireEditor access.role
  match ← replayReceipt db listId request.opId call.actor with
  | some _ => do
      let task ← fetchTask db listId taskId
      return (.task task, db)
  | none => do
      let expected ← expectedRevision ifMatch request.revision
      checkRevision access.revision expected
      let row ← selectTask db listId taskId
      let row ← patchedTask request row call.now
      let db ← commitWrite (db.updateTask taskId row) call listId request.opId access.revision
      let task ← fetchTask db listId taskId
      return (.task task, db)

def deleteTask (call : SharedCall) (listId taskId : Uuid) (ifMatch : Option Int)
    (request : RevisionRequest) (db : SharedDb) : ApiResult (SharedResponse × SharedDb) := do
  let access ← lockAccess db listId call.actor
  requireEditor access.role
  match ← replayReceipt db listId request.opId call.actor with
  | some _ => return (.noContent, db)
  | none => do
      let expected ← expectedRevision ifMatch request.revision
      checkRevision access.revision expected
      let row ← selectTask db listId taskId
      let deleted := { row with
        deletedAt := some call.now.toColumn
        updatedAt := call.now.toColumn }
      let db ← commitWrite (db.updateTask taskId deleted) call listId request.opId access.revision
      return (.noContent, db)

/-! ### Members and invitations -/

/-- The pending invitation of an address. -/
def SharedDb.pendingInvitation (db : SharedDb) (listId : Uuid) (email : String) :
    Option (Uuid × InvitationRow) :=
  (db.invitations.entries.find? fun entry =>
    entry.2.listId == listId && entry.2.email == email && entry.2.status == .pending).map
      fun entry => (entry.1, entry.2)

def alreadyMember (db : SharedDb) (listId : Uuid) (email : String) : Bool :=
  db.members.any fun key member =>
    key.1 == listId && member.deletedAt.isNone &&
      (db.users.lookup key.2).any fun account => account.email == email && account.deletedAt.isNone

/-- The upsert of an invitation, and its identifier. -/
def SharedDb.invite (db : SharedDb) (call : SharedCall) (listId : Uuid) (email : String)
    (role : SharedRole) : Uuid × SharedDb :=
  match db.pendingInvitation listId email with
  | some (invitationId, row) =>
      let row := { row with
        role := role
        invitedBy := call.actor
        updatedAt := call.now.toColumn }
      (invitationId, { db with invitations := db.invitations.insert invitationId row })
  | none =>
      let row : InvitationRow := {
        listId := listId
        email := email
        role := role
        status := .pending
        invitedBy := call.actor
        respondedBy := none
        createdAt := call.now.toColumn
        updatedAt := call.now.toColumn }
      (call.newId, { db with invitations := db.invitations.insert call.newId row })

def fetchInvitation (db : SharedDb) (invitationId : Uuid) : ApiResult SharedInvitation :=
  match (db.invitations.lookup invitationId).bind (invitationOf db invitationId) with
  | some invitation => .ok invitation
  | none => .error invitationNotFound

/-- What a repeated `add_member` answers. -/
def replayedInvite (db : SharedDb) (listId : Uuid) (email : String) (revision : Int) :
    SharedResponse :=
  match (db.pendingInvitation listId email).bind fun found => invitationOf db found.1 found.2 with
  | some invitation => .invitation invitation
  | none => .replayed revision

def addMember (call : SharedCall) (listId : Uuid) (ifMatch : Option Int)
    (request : AddMemberRequest) (db : SharedDb) : ApiResult (SharedResponse × SharedDb) := do
  let role ← parseInviteRole request.role
  match normalizeEmail request.email with
  | none => .error (.validation "email must be a valid email address")
  | some email => do
      let access ← lockAccess db listId call.actor
      requireOwner access.role
      match ← replayReceipt db listId request.opId call.actor with
      | some revision => return (replayedInvite db listId email revision, db)
      | none => do
          let expected ← expectedRevision ifMatch request.revision
          checkRevision access.revision expected
          refuseIf (alreadyMember db listId email) (.conflict "SHARED_MEMBER_EXISTS"
            "That email already belongs to a member of this shared list")
          -- The identifier of a new invitation is a fresh `Uuid::new_v4`.
          refuseIf ((db.pendingInvitation listId email).isNone &&
            (db.invitations.lookup call.newId).isSome) .database
          let invited := db.invite call listId email role
          let db ← commitWrite invited.2 call listId request.opId access.revision
          let invitation ← fetchInvitation db invited.1
          return (.invitation invitation, db)

/-- `lock_invitation`: an invitation addressed to the caller, with the revision of its list. -/
def lockInvitation (db : SharedDb) (invitationId userId : Uuid) : ApiResult (InvitationRow × Int) :=
  match db.invitations.lookup invitationId,
      (db.users.lookup userId).filter fun account => account.deletedAt.isNone with
  | some row, some account =>
      if row.email ≠ account.email then .error invitationNotFound
      else match db.liveList row.listId with
        | some list => .ok (row, list.revision)
        | none => .error invitationNotFound
  | _, _ => .error invitationNotFound

/-- `respond_to_invitation`; only a pending one changes. -/
def SharedDb.respond (db : SharedDb) (call : SharedCall) (invitationId : Uuid)
    (status : InvitationStatus) : SharedDb :=
  match (db.invitations.lookup invitationId).filter fun row => row.status == .pending with
  | none => db
  | some row =>
      let row := { row with
        status := status
        respondedBy := some call.actor
        updatedAt := call.now.toColumn }
      { db with invitations := db.invitations.insert invitationId row }

/-- The upsert of a membership; an active one stays as it is. -/
def SharedDb.join (db : SharedDb) (call : SharedCall) (listId : Uuid) (role : SharedRole) : SharedDb :=
  match db.members.lookup (listId, call.actor) with
  | none =>
      let member := { role := role, createdAt := call.now.toColumn, deletedAt := none }
      { db with members := db.members.insert (listId, call.actor) member }
  | some member =>
      let member := { member with role := role, deletedAt := none }
      if (db.activeMember listId call.actor).isSome then db
      else { db with members := db.members.insert (listId, call.actor) member }

def acceptInvitation (call : SharedCall) (invitationId : Uuid) (opId : Option Uuid)
    (db : SharedDb) : ApiResult (SharedResponse × SharedDb) := do
  let (invitation, revision) ← lockInvitation db invitationId call.actor
  let replayed ← replayReceipt db invitation.listId opId call.actor
  if replayed.isSome || (invitation.status == .accepted && invitation.respondedBy == some call.actor)
  then
    match fetchListSummary db invitation.listId call.actor with
    | .ok list => .ok (.list list, db)
    | .error _ => .error invitationNotPending
  else do
    refuseIf (invitation.status ≠ .pending) invitationNotPending
    let db := (db.join call invitation.listId invitation.role).respond call invitationId .accepted
    let db ← commitWrite db call invitation.listId opId revision
    let list ← fetchListSummary db invitation.listId call.actor
    return (.list list, db)

def declineInvitation (call : SharedCall) (invitationId : Uuid) (opId : Option Uuid)
    (db : SharedDb) : ApiResult (SharedResponse × SharedDb) := do
  let (invitation, revision) ← lockInvitation db invitationId call.actor
  let replayed ← replayReceipt db invitation.listId opId call.actor
  if replayed.isSome || (invitation.status == .declined && invitation.respondedBy == some call.actor)
  then .ok (.noContent, db)
  else do
    refuseIf (invitation.status ≠ .pending) invitationNotPending
    let db := db.respond call invitationId .declined
    let db ← commitWrite db call invitation.listId opId revision
    return (.noContent, db)

def fetchMember (db : SharedDb) (listId userId : Uuid) : ApiResult SharedMember :=
  match db.activeMember listId userId, db.users.lookup userId with
  | some member, some account => .ok (memberOf userId account member)
  | _, _ => .error memberNotFound

def selectMember (db : SharedDb) (listId userId : Uuid) : ApiResult SharedMemberRow :=
  match db.activeMember listId userId with
  | some member => .ok member
  | none => .error memberNotFound

def SharedDb.updateMember (db : SharedDb) (listId userId : Uuid) (member : SharedMemberRow) : SharedDb :=
  { db with members := db.members.insert (listId, userId) member }

def patchMember (call : SharedCall) (listId userId : Uuid) (ifMatch : Option Int)
    (request : PatchMemberRequest) (db : SharedDb) : ApiResult (SharedResponse × SharedDb) := do
  let role ← parseRole request.role
  refuseIf (userId == call.actor && !role.isOwner)
    (.validation "the list owner cannot demote their own membership")
  let access ← lockAccess db listId call.actor
  requireOwner access.role
  match ← replayReceipt db listId request.opId call.actor with
  | some _ => do
      let member ← fetchMember db listId userId
      return (.member member, db)
  | none => do
      let expected ← expectedRevision ifMatch request.revision
      checkRevision access.revision expected
      let member ← selectMember db listId userId
      let db ← commitWrite (db.updateMember listId userId { member with role := role }) call listId
        request.opId access.revision
      let member ← fetchMember db listId userId
      return (.member member, db)

def removeMember (call : SharedCall) (listId userId : Uuid) (ifMatch : Option Int)
    (request : RevisionRequest) (db : SharedDb) : ApiResult (SharedResponse × SharedDb) := do
  refuseIf (userId == call.actor) (.validation "the list owner cannot remove themselves")
  let access ← lockAccess db listId call.actor
  requireOwner access.role
  match ← replayReceipt db listId request.opId call.actor with
  | some _ => return (.noContent, db)
  | none => do
      let expected ← expectedRevision ifMatch request.revision
      checkRevision access.revision expected
      let member ← selectMember db listId userId
      let removed := { member with deletedAt := some call.now.toColumn }
      let db ← commitWrite (db.updateMember listId userId removed) call listId request.opId
        access.revision
      return (.noContent, db)

def SharedDb.markDeleted (db : SharedDb) (listId : Uuid) (now : Instant) : SharedDb :=
  match db.lists.lookup listId with
  | none => db
  | some list =>
      let deleted := { list with deletedAt := some now.toColumn, updatedAt := now.toColumn }
      { db with lists := db.lists.insert listId deleted }

def deleteList (call : SharedCall) (listId : Uuid) (ifMatch : Option Int)
    (request : RevisionRequest) (db : SharedDb) : ApiResult (SharedResponse × SharedDb) := do
  let access ← lockAccess db listId call.actor
  requireOwner access.role
  match ← replayReceipt db listId request.opId call.actor with
  | some _ => return (.noContent, db)
  | none => do
      let expected ← expectedRevision ifMatch request.revision
      checkRevision access.revision expected
      let db ← commitWrite (db.markDeleted listId call.now) call listId request.opId access.revision
      return (.noContent, db)

/-! ### Requests -/

def handleShared (call : SharedCall) (db : SharedDb) :
    SharedRequest → ApiResult (SharedResponse × SharedDb)
  | .listLists => listLists call db
  | .getList listId => getList call listId db
  | .createList request => createList call request db
  | .createTask listId ifMatch request => createTask call listId ifMatch request db
  | .patchTask listId taskId ifMatch request => patchTask call listId taskId ifMatch request db
  | .deleteTask listId taskId ifMatch request => deleteTask call listId taskId ifMatch request db
  | .addMember listId ifMatch request => addMember call listId ifMatch request db
  | .acceptInvitation invitationId opId => acceptInvitation call invitationId opId db
  | .declineInvitation invitationId opId => declineInvitation call invitationId opId db
  | .patchMember listId userId ifMatch request => patchMember call listId userId ifMatch request db
  | .removeMember listId userId ifMatch request => removeMember call listId userId ifMatch request db
  | .deleteList listId ifMatch request => deleteList call listId ifMatch request db

/-- One request, one transaction: an error rolls everything back. -/
def serveShared (call : SharedCall) (db : SharedDb) (request : SharedRequest) :
    ApiResult SharedResponse × SharedDb :=
  match handleShared call db request with
  | .ok (response, db) => (.ok response, db)
  | .error error => (.error error, db)

end ShishiTodo
