import ShishiTodo.Server.Sync
import ShishiTodo.Lib.Machine

/-!
# Runs of the server

What can happen to the database, one serialized transaction after another: accounts and devices appear, sync requests are served, and the retention jobs of `ops.rs` delete old receipts and old log rows. A run emits one record for each iteration of a committed batch loop, with the loop's state before and after it.
-/

namespace ShishiTodo

open Lib

/-! ### Retention jobs -/

/-- One batch of `cleanup_expired` over `op_receipts`: of the rows older than the cutoff, those the database picks under its `LIMIT`. -/
def Db.cleanupReceipts (db : Db) (cutoff : Instant) (chosen : ReceiptRow → Bool) : Db :=
  { db with opReceipts := db.opReceipts.select fun _ receipt =>
      !(decide (receipt.createdAt.nanos < cutoff.nanos) && chosen receipt) }

/-- `ORDER BY created_at, user_id, server_seq`. -/
def pruneOrder (left right : ChangeRow) : Prop :=
  left.createdAt.nanos < right.createdAt.nanos ∨ (left.createdAt.nanos = right.createdAt.nanos ∧
    (left.userId.lt right.userId = true ∨
      (left.userId = right.userId ∧ left.serverSeq ≤ right.serverSeq)))

instance : DecidableRel pruneOrder := fun left right => by
  unfold pruneOrder
  infer_instance

/-- The rows one batch of `prune_change_log` deletes. -/
def Db.pruneSelection (db : Db) (cutoff : Instant) (batchSize : Nat) : List ChangeRow :=
  ((db.changeLog.filter fun row => row.createdAt.nanos < cutoff.nanos).insertionSort
    pruneOrder).take batchSize

/-- `COALESCE(MIN(server_seq), next_server_seq)` over the account's remaining rows. -/
def Db.oldestRetained (db : Db) (userId : Uuid) : Int :=
  (((db.changeLog.filter fun row => row.userId == userId).map ChangeRow.serverSeq).min?).getD
    (db.syncState userId).nextServerSeq

/-- Raises one account's `min_available_seq` to the oldest row it still has. -/
def Db.raiseMinAvailable (db : Db) (userId : Uuid) : Db :=
  let syncState := db.syncState userId
  let raised := { syncState with
    minAvailableSeq := max syncState.minAvailableSeq (db.oldestRetained userId) }
  { db with syncStates := db.syncStates.insert userId raised }

/-- One transaction of the loop of `prune_change_log`. -/
def Db.pruneChangeLog (db : Db) (cutoff : Instant) (batchSize : Nat) : Db :=
  let selected := db.pruneSelection cutoff batchSize
  let pruned := { db with changeLog := db.changeLog.filter fun row => !selected.contains row }
  (selected.map ChangeRow.userId).dedup.foldl Db.raiseMinAvailable pruned

/-! ### Accounts and devices -/

/-- A first sign-in makes the account. -/
def Db.signUp (db : Db) (userId : Uuid) : Db :=
  match db.users.lookup userId with
  | some _ => db
  | none => { db with users := db.users.insert userId { deletedAt := none } }

/-- The device of a sign-in: registered with watermark zero, or welcomed back with the watermark it has. -/
def Db.signIn (db : Db) (auth : AuthUser) : Db :=
  match db.users.lookup auth.userId with
  | none => db
  | some user =>
      if user.deletedAt.isSome then db
      else match db.devices.lookup auth.deviceId with
        | none =>
            let device := { userId := auth.userId, lastClientSeq := 0, revokedAt := none }
            { db with devices := db.devices.insert auth.deviceId device }
        | some device =>
            let welcomed := { device with revokedAt := none }
            if device.userId ≠ auth.userId then db
            else { db with devices := db.devices.insert auth.deviceId welcomed }

def Db.revokeDevice (db : Db) (auth : AuthUser) (now : Instant) : Db :=
  match db.devices.lookup auth.deviceId with
  | none => db
  | some device =>
      let revoked := { device with revokedAt := some now }
      if device.userId ≠ auth.userId then db
      else { db with devices := db.devices.insert auth.deviceId revoked }

/-! ### The machine -/

inductive ServerEvent where
  | signUp (userId : Uuid)
  | signIn (auth : AuthUser)
  | revokeDevice (auth : AuthUser) (now : Instant)
  | request (clock : Clock) (auth : AuthUser) (body : SyncRequest)
  | cleanupReceipts (cutoff : Instant) (chosen : ReceiptRow → Bool)
  | pruneChangeLog (cutoff : Instant) (batchSize : Nat)

/-- One iteration of a batch loop. -/
structure OpStep where
  batch : Batch
  mutation : Mutation
  before : LoopState
  after : LoopState

namespace OpStep

/-- The operation's identity. -/
def key (step : OpStep) : Uuid × Int := (step.batch.auth.deviceId, step.mutation.clientSeq)

/-- The acknowledgement the iteration pushed. -/
def ack (step : OpStep) : Option Ack := step.after.acks.getLast?

/-- The iteration stored the operation's receipt. -/
def processed (step : OpStep) : Bool :=
  (step.before.db.opReceipts.lookup step.mutation.opId).isNone &&
    (step.after.db.opReceipts.lookup step.mutation.opId).isSome

/-- The rows the iteration appended to the change log. -/
def logged (step : OpStep) : List ChangeRow :=
  step.after.db.changeLog.drop step.before.db.changeLog.length

/-- The iteration changed an entity table or the change log. -/
def Effective (step : OpStep) : Prop :=
  step.after.db.entities ≠ step.before.db.entities ∨
    step.after.db.changeLog ≠ step.before.db.changeLog

end OpStep

/-- The iterations of a batch loop, up to the first that fails. -/
def opSteps (env : Env) (batch : Batch) : List Mutation → LoopState → List OpStep
  | [], _ => []
  | mutation :: rest, state =>
      match processOp env batch state mutation with
      | .error _ => []
      | .ok next =>
          { batch := batch, mutation := mutation, before := state, after := next } ::
            opSteps env batch rest next

/-- The iterations of a request; a request that answers an error commits none. -/
def requestSteps (env : Env) (clock : Clock) (auth : AuthUser) (body : SyncRequest) (db : Db) :
    List OpStep :=
  match sync env clock auth body db with
  | .error _ => []
  | .ok _ =>
      let locked := db.ensureSyncState auth.userId
      match selectDevice locked auth with
      | .error _ => []
      | .ok device =>
          opSteps env (batchOf auth clock.transaction locked device) body.ops
            (.start locked device (locked.syncState auth.userId))

def serverStep (env : Env) (db : Db) : ServerEvent → Db
  | .signUp userId => db.signUp userId
  | .signIn auth => db.signIn auth
  | .revokeDevice auth now => db.revokeDevice auth now
  | .request clock auth body => (serveSync env clock auth body db).2
  | .cleanupReceipts cutoff chosen => db.cleanupReceipts cutoff chosen
  | .pruneChangeLog cutoff batchSize => db.pruneChangeLog cutoff batchSize

def serverEmit (env : Env) (db : Db) : ServerEvent → List OpStep
  | .request clock auth body => requestSteps env clock auth body db
  | _ => []

def server (env : Env) : Machine Db ServerEvent OpStep where
  step := serverStep env
  emit := serverEmit env

end ShishiTodo
