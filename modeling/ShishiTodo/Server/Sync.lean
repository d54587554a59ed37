import ShishiTodo.Server.Entities
import Mathlib.Algebra.Group.Nat.Defs
import Mathlib.Data.List.Sort

/-!
# The sync endpoint

`POST /api/v1/sync`: one transaction that takes a batch of a device's operations and answers with acknowledgements and the next page of the account's change log. An operation is found again by its receipt, recognised as old by the device's watermark, or decided now; deciding it writes the entity tables and the change log together, or only a rejected receipt.
-/

namespace ShishiTodo

open Lib

inductive AppError where
  | badRequest (code message : String)
  | unauthorized (code message : String)
  | forbidden (code message : String)
  | notFound (code message : String)
  | conflict (code message : String)
  | revisionConflict (currentRevision : Int)
  | internal (detail : String)
  deriving DecidableEq, Repr

namespace AppError

def validation (message : String) : AppError := .badRequest "VALIDATION_FAILED" message

def unauthorizedSession : AppError :=
  .unauthorized "UNAUTHORIZED" "Authentication is required or the session is no longer valid"

def cursorExpired : AppError :=
  .conflict "CURSOR_EXPIRED"
    "The change cursor is older than the retained history; bootstrap is required"

def sequenceMismatch (message : String) : AppError := .conflict "SEQUENCE_MISMATCH" message

/-- `From<sqlx::Error>`. -/
def database : AppError := .internal "database operation failed"

end AppError

/-- What a request may answer. -/
abbrev ApiResult (α : Type) := Except AppError α

/-! ### Tables -/

structure UserRow where
  deletedAt : Option Instant
  deriving DecidableEq, Repr

/-- `account_sync_state`. -/
structure SyncState where
  nextServerSeq : Int
  minAvailableSeq : Int
  deriving DecidableEq, Repr

/-- The column defaults of `account_sync_state`. -/
def SyncState.default : SyncState := { nextServerSeq := 1, minAvailableSeq := 0 }

structure DeviceRow where
  userId : Uuid
  lastClientSeq : Int
  revokedAt : Option Instant
  deriving DecidableEq, Repr

inductive ReceiptStatus where
  | applied | rejected
  deriving DecidableEq, Repr

structure ReceiptRow where
  opId : Uuid
  userId : Uuid
  deviceId : Uuid
  clientSeq : Int
  serverSeq : Option Int
  status : ReceiptStatus
  errorCode : Option String
  createdAt : Instant
  deriving DecidableEq, Repr

structure ChangeRow where
  userId : Uuid
  serverSeq : Int
  opId : Uuid
  entity : EntityType
  entityId : Uuid
  kind : MutationKind
  patch : Json
  createdAt : Instant
  deriving DecidableEq, Repr

structure Db where
  users : Table Uuid UserRow
  syncStates : Table Uuid SyncState
  devices : Table Uuid DeviceRow
  entities : Entities
  opReceipts : Table Uuid ReceiptRow
  changeLog : List ChangeRow

/-- The schema before any account exists. -/
def Db.empty : Db where
  users := ∅
  syncStates := ∅
  devices := ∅
  entities := .empty
  opReceipts := ∅
  changeLog := []

/-- The account's row of `account_sync_state`, made on first use. -/
def Db.syncState (db : Db) (userId : Uuid) : SyncState :=
  (db.syncStates.lookup userId).getD .default

/-- `INSERT INTO account_sync_state … ON CONFLICT DO NOTHING`. -/
def Db.ensureSyncState (db : Db) (userId : Uuid) : Db :=
  { db with syncStates := db.syncStates.insert userId (db.syncState userId) }

/-- `INSERT INTO change_log`; the primary key is the account and the sequence. -/
def Db.insertChange (db : Db) (row : ChangeRow) : ApiResult Db :=
  if row.serverSeq ≤ 0 ∨
      db.changeLog.any (fun old => old.userId == row.userId && old.serverSeq == row.serverSeq) then
    .error .database
  else .ok { db with changeLog := db.changeLog ++ [row] }

/-- `INSERT INTO op_receipts`: the operation id is the primary key, a device has one receipt for a sequence, and the device must be registered. -/
def Db.insertReceipt (db : Db) (row : ReceiptRow) : ApiResult Db :=
  if row.clientSeq ≤ 0 ∨ (db.opReceipts.lookup row.opId).isSome ∨
      db.opReceipts.any (fun _ old => old.userId == row.userId && old.deviceId == row.deviceId &&
        old.clientSeq == row.clientSeq) ∨
      ((db.devices.lookup row.deviceId).filter fun device => device.userId == row.userId).isNone then
    .error .database
  else .ok { db with opReceipts := db.opReceipts.insert row.opId row }

/-! ### Requests and answers -/

def maxSyncOps : Nat := 100

def maxSyncChanges : Nat := 500

/-- Who the access token was issued to. -/
structure AuthUser where
  userId : Uuid
  deviceId : Uuid
  deriving DecidableEq, Repr

structure SyncRequest where
  deviceId : Uuid
  cursor : String
  ops : List Mutation
  limit : Option Nat
  deriving DecidableEq, Repr

inductive AckStatus where
  | applied | rejected | alreadyProcessed
  deriving DecidableEq, Repr

structure Ack where
  opId : Uuid
  serverSeq : Option Int
  status : AckStatus
  errorCode : Option String
  deriving DecidableEq, Repr

structure Change where
  serverSeq : Int
  opId : Uuid
  entity : EntityType
  entityId : Uuid
  kind : MutationKind
  patch : Json
  deriving DecidableEq, Repr

structure SyncResponse where
  ack : List Ack
  changes : List Change
  nextCursor : String
  hasMore : Bool
  serverTime : Instant
  deriving DecidableEq, Repr

/-- The clock readings of one request: at the start of its transaction, and when it answers. -/
structure Clock where
  transaction : Instant
  answer : Instant
  deriving DecidableEq, Repr

/-- `ChangeCursor::parse`: ASCII digits that fit an `i64`. -/
def ChangeCursor.parse (text : String) : Option Int :=
  let chars := text.toList
  if chars.isEmpty || !chars.all (fun c => 48 ≤ c.toNat && c.toNat ≤ 57) then none
  else
    let value := Nat.ofDigitChars 10 chars 0
    if value < 2 ^ 63 then some value else none

/-- `Display` of a cursor. -/
def ChangeCursor.render (cursor : Int) : String := toString cursor

def parsePageLimit (value : Option Nat) (default maximum : Nat) : Option Nat :=
  match value with
  | none => some default
  | some value => if 1 ≤ value ∧ value ≤ maximum then some value else none

/-- The loop of `validate_batch`, from the sequence and the ids already seen. -/
def validateOps : List Mutation → Int → List Uuid → ApiResult Unit
  | [], _, _ => .ok ()
  | op :: rest, previousSeq, opIds =>
      if op.clientSeq ≤ 0 then
        .error (.sequenceMismatch "client_seq must be greater than zero")
      else if op.clientSeq ≤ previousSeq then
        .error (.sequenceMismatch "ops must be ordered by strictly increasing client_seq")
      else if opIds.contains op.opId then
        .error (.sequenceMismatch "duplicate op_id in a sync request")
      else validateOps rest op.clientSeq (op.opId :: opIds)

def validateBatch (ops : List Mutation) : ApiResult Unit :=
  if ops.length > maxSyncOps then
    .error (.validation s!"a sync request may contain at most {maxSyncOps} operations")
  else validateOps ops 0 []

/-! ### The batch loop -/

/-- What the loop over a batch reads: the request's account and device, the device's watermark, and the receipts as they were when the batch began. -/
structure Batch where
  auth : AuthUser
  now : Instant
  lastClientSeq : Int
  receipts : Table Uuid ReceiptRow

structure LoopState where
  db : Db
  expectedClientSeq : Int
  nextServerSeq : Int
  acks : List Ack

namespace Batch

variable (batch : Batch)

/-- `by_op`. -/
def receiptByOp (opId : Uuid) : Option ReceiptRow := batch.receipts.lookup opId

/-- `by_seq`. -/
def receiptBySeq (clientSeq : Int) : Option ReceiptRow :=
  (batch.receipts.entries.map Sigma.snd).find? fun receipt =>
    receipt.userId == batch.auth.userId && receipt.deviceId == batch.auth.deviceId &&
      receipt.clientSeq == clientSeq

end Batch

def receiptAck (receipt : ReceiptRow) : Ack where
  opId := receipt.opId
  serverSeq := receipt.serverSeq
  status := match receipt.status with
    | .applied => .applied
    | .rejected => .rejected
  errorCode := receipt.errorCode

/-- The acknowledgement of an operation at or below the watermark. -/
def oldAck (mutation : Mutation) : Ack where
  opId := mutation.opId
  serverSeq := none
  status := .alreadyProcessed
  errorCode := none

/-- The row an applied operation appends to the change log. -/
def changeOf (batch : Batch) (state : LoopState) (mutation : Mutation) (patch : Json) : ChangeRow where
  userId := batch.auth.userId
  serverSeq := state.nextServerSeq
  opId := mutation.opId
  entity := mutation.entity
  entityId := mutation.entityId
  kind := mutation.kind
  patch := patch
  createdAt := batch.now

def appliedReceipt (batch : Batch) (state : LoopState) (mutation : Mutation) : ReceiptRow where
  opId := mutation.opId
  userId := batch.auth.userId
  deviceId := batch.auth.deviceId
  clientSeq := mutation.clientSeq
  serverSeq := some state.nextServerSeq
  status := .applied
  errorCode := none
  createdAt := batch.now

def rejectedReceipt (batch : Batch) (mutation : Mutation) (errorCode : String) : ReceiptRow where
  opId := mutation.opId
  userId := batch.auth.userId
  deviceId := batch.auth.deviceId
  clientSeq := mutation.clientSeq
  serverSeq := none
  status := .rejected
  errorCode := some errorCode
  createdAt := batch.now

/-- The `Ok` arm of the loop: the change, its receipt and the next sequence. -/
def commitApplied (batch : Batch) (state : LoopState) (mutation : Mutation) (patch : Json)
    (entities : Entities) : ApiResult LoopState := do
  let db := { state.db with entities := entities }
  let db ← db.insertChange (changeOf batch state mutation patch)
  let db ← db.insertReceipt (appliedReceipt batch state mutation)
  let ack : Ack := {
    opId := mutation.opId
    serverSeq := some state.nextServerSeq
    status := .applied
    errorCode := none }
  return {
    db := db
    expectedClientSeq := state.expectedClientSeq + 1
    nextServerSeq := state.nextServerSeq + 1
    acks := state.acks ++ [ack] }

/-- The two rejecting arms: back to the savepoint, then a receipt with the error code. -/
def commitRejected (batch : Batch) (state : LoopState) (mutation : Mutation) (errorCode : String) :
    ApiResult LoopState := do
  let db ← state.db.insertReceipt (rejectedReceipt batch mutation errorCode)
  let ack : Ack := {
    opId := mutation.opId
    serverSeq := none
    status := .rejected
    errorCode := some errorCode }
  return {
    db := db
    expectedClientSeq := state.expectedClientSeq + 1
    nextServerSeq := state.nextServerSeq
    acks := state.acks ++ [ack] }

/-- The part of the loop body after the sequence checks. -/
def decideOp (env : Env) (batch : Batch) (state : LoopState) (mutation : Mutation) :
    ApiResult LoopState :=
  match applyMutation env state.db.entities batch.auth.userId mutation state.nextServerSeq
      batch.now with
  | .ok (patch, entities) => commitApplied batch state mutation patch entities
  | .error (.reject rejection) => commitRejected batch state mutation rejection.code
  | .error (.database .constraint) => commitRejected batch state mutation "CONSTRAINT_VIOLATION"
  | .error (.database .other) => .error .database

/-- The loop body. -/
def processOp (env : Env) (batch : Batch) (state : LoopState) (mutation : Mutation) :
    ApiResult LoopState :=
  match batch.receiptByOp mutation.opId with
  | some receipt =>
      if receipt.userId ≠ batch.auth.userId ∨ receipt.deviceId ≠ batch.auth.deviceId ∨
          receipt.clientSeq ≠ mutation.clientSeq then
        .error (.sequenceMismatch
          "op_id was previously accepted with a different device or client_seq")
      else .ok { state with acks := state.acks ++ [receiptAck receipt] }
  | none =>
      if mutation.clientSeq ≤ batch.lastClientSeq then
        -- The receipt may have been pruned; the watermark is authoritative.
        if (batch.receiptBySeq mutation.clientSeq).any (·.opId != mutation.opId) then
          .error (.sequenceMismatch "client_seq was already processed for a different op_id")
        else .ok { state with acks := state.acks ++ [oldAck mutation] }
      else if mutation.clientSeq ≠ state.expectedClientSeq then
        .error (.sequenceMismatch
          s!"expected client_seq {state.expectedClientSeq}, received {mutation.clientSeq}")
      else if (batch.receiptBySeq mutation.clientSeq).isSome then
        .error (.sequenceMismatch "client_seq conflicts with an existing receipt")
      else decideOp env batch state mutation

def processOps (env : Env) (batch : Batch) : List Mutation → LoopState → ApiResult LoopState
  | [], state => .ok state
  | mutation :: rest, state => do
      let state ← processOp env batch state mutation
      processOps env batch rest state

/-! ### The transaction -/

/-- The account's changes after a cursor, oldest first. -/
def Db.changesAfter (db : Db) (userId : Uuid) (cursor : Int) : List ChangeRow :=
  (db.changeLog.filter fun row => row.userId == userId && cursor < row.serverSeq).insertionSort
    fun left right => left.serverSeq ≤ right.serverSeq

def ChangeRow.toChange (row : ChangeRow) : Change where
  serverSeq := row.serverSeq
  opId := row.opId
  entity := row.entity
  entityId := row.entityId
  kind := row.kind
  patch := row.patch

/-- The device's watermark after the batch. -/
def Db.advanceDevice (db : Db) (deviceId : Uuid) (device : DeviceRow) (lastClientSeq : Int) : Db :=
  if lastClientSeq > device.lastClientSeq then
    { db with devices := db.devices.insert deviceId { device with lastClientSeq := lastClientSeq } }
  else db

/-- The account's next sequence after the batch. -/
def Db.advanceSyncState (db : Db) (userId : Uuid) (syncState : SyncState) (nextServerSeq : Int) : Db :=
  if nextServerSeq ≠ syncState.nextServerSeq then
    let advanced := { syncState with nextServerSeq := nextServerSeq }
    { db with syncStates := db.syncStates.insert userId advanced }
  else db

/-- The account row is locked and alive. -/
def checkUser (db : Db) (userId : Uuid) : ApiResult Unit :=
  match db.users.lookup userId with
  | none => .error .unauthorizedSession
  | some user => if user.deletedAt.isSome then .error .unauthorizedSession else .ok ()

/-- The cursor is neither ahead of the log nor behind what is retained. -/
def checkCursor (syncState : SyncState) (cursor : Int) : ApiResult Unit :=
  if cursor > syncState.nextServerSeq - 1 then
    .error (.badRequest "INVALID_CURSOR" "Cursor is ahead of this account's change log")
  else if cursor < syncState.minAvailableSeq - 1 then .error .cursorExpired
  else .ok ()

def selectDevice (db : Db) (auth : AuthUser) : ApiResult DeviceRow :=
  match (db.devices.lookup auth.deviceId).filter fun device => device.userId == auth.userId with
  | none => .error (.forbidden "DEVICE_NOT_FOUND" "Device is not registered for this account")
  | some device =>
      if device.revokedAt.isSome then
        .error (.unauthorized "DEVICE_REVOKED" "This device has been revoked")
      else .ok device

/-- The batch of a request, once its rows are locked. -/
def batchOf (auth : AuthUser) (now : Instant) (db : Db) (device : DeviceRow) : Batch where
  auth := auth
  now := now
  lastClientSeq := device.lastClientSeq
  receipts := db.opReceipts

def LoopState.start (db : Db) (device : DeviceRow) (syncState : SyncState) : LoopState where
  db := db
  expectedClientSeq := device.lastClientSeq + 1
  nextServerSeq := syncState.nextServerSeq
  acks := []

/-- The page of the change log a request answers with. -/
def syncPage (db : Db) (userId : Uuid) (cursor : Int) (limit : Nat) (acks : List Ack)
    (answer : Instant) : SyncResponse :=
  let rows := (db.changesAfter userId cursor).take (limit + 1)
  let changes := (rows.take limit).map ChangeRow.toChange
  { ack := acks
    changes := changes
    nextCursor := ChangeCursor.render ((changes.getLast?.map Change.serverSeq).getD cursor)
    hasMore := rows.length > limit
    serverTime := answer }

def checkDevice (auth : AuthUser) (body : SyncRequest) : ApiResult Unit :=
  refuseIf (auth.deviceId ≠ body.deviceId)
    (.forbidden "DEVICE_MISMATCH" "The access token was issued for a different device")

def readLimit (body : SyncRequest) : ApiResult Nat :=
  match parsePageLimit body.limit maxSyncChanges maxSyncChanges with
  | some limit => .ok limit
  | none => .error (.validation "limit must be between 1 and 500")

def readCursor (body : SyncRequest) : ApiResult Int :=
  match ChangeCursor.parse body.cursor with
  | some cursor => .ok cursor
  | none => .error (.validation "cursor must be a non-negative integer string")

/-- `sync`, up to its commit: the answer and the database the transaction leaves. -/
def sync (env : Env) (clock : Clock) (auth : AuthUser) (body : SyncRequest) (db : Db) :
    ApiResult (SyncResponse × Db) := do
  checkDevice auth body
  let limit ← readLimit body
  validateBatch body.ops
  let priorCursor ← readCursor body
  checkUser db auth.userId
  let db := db.ensureSyncState auth.userId
  let syncState := db.syncState auth.userId
  checkCursor syncState priorCursor
  let device ← selectDevice db auth
  let batch := batchOf auth clock.transaction db device
  let state ← processOps env batch body.ops (.start db device syncState)
  let db := state.db.advanceDevice auth.deviceId device (state.expectedClientSeq - 1)
  let db := db.advanceSyncState auth.userId syncState state.nextServerSeq
  return (syncPage db auth.userId priorCursor limit state.acks clock.answer, db)

/-- The transaction around `sync`: an error rolls everything back. -/
def serveSync (env : Env) (clock : Clock) (auth : AuthUser) (body : SyncRequest) (db : Db) :
    ApiResult SyncResponse × Db :=
  match sync env clock auth body db with
  | .ok (response, db) => (.ok response, db)
  | .error error => (.error error, db)

end ShishiTodo
