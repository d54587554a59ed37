import ShishiTodo.Native.Sync
import ShishiTodo.Recurring.Rules

/-!
# The task service over the native store

`TaskService.completeTask` and `uncompleteTask` through `TauriTaskRepository`. A call reads the task first and writes in a later call of the store; what it has computed by then is the `Call`. The rounds of the sync engine read the outbox and hand the answer over in the same way.
-/

namespace ShishiTodo.Recurring

open Lib Native Sync

inductive ServiceError where
  | domain (error : DomainError)
  | store (error : StoreError)
  deriving DecidableEq, Repr

/-- `requireTask`, over `get_task`. -/
def requireTask (store : Store) (id : String) : Except ServiceError Task := do
  let _ ← (validateNonEmptyId id).mapError .store
  match store.liveTask id with
  | some task => .ok task
  | none => .error (.domain ⟨"NOT_FOUND", "任务不存在"⟩)

structure CompletionCommit where
  taskId : String
  completedAt : String
  nextTask : Option Task
  deriving DecidableEq, Repr

/-- What a call reads from the clock: the instant, and its date in the zone of the user when the zone is known. -/
structure Reading where
  now : String
  timeZone : String
  today : Option String
  deriving DecidableEq, Repr

def Reading.date (reading : Reading) : Thrown String :=
  match reading.today with
  | some today => .ok today
  | none => .error ⟨"INVALID_DATE", s!"Unknown time zone: {reading.timeZone}"⟩

/-- A call that has read its task and is about to write. -/
inductive Call where
  | commitCompletion (commit : CompletionCommit)
  | uncompleteTask (id : String)
  deriving DecidableEq, Repr

/-- `completeTask` up to its commit; a completed task is left alone. -/
def completeTask (store : Store) (id : String) (reading : Reading) (newId : String) :
    Except ServiceError (Option Call) := do
  let task ← requireTask store id
  if task.status = .completed then return none
  else do
    let completionDate ← reading.date.mapError .domain
    let next ← (nextRecurringTask { task with status := .completed } completionDate newId
      reading.now).mapError .domain
    return some (.commitCompletion ⟨id, reading.now, next⟩)

/-- `uncompleteTask` up to its patch; an open task is left alone. -/
def uncompleteTask (store : Store) (id : String) : Except ServiceError (Option Call) := do
  let task ← requireTask store id
  if task.status = .open then return none else return some (.uncompleteTask id)

/-- `{ status: 'open', completedAt: null }`. -/
def reopening : Native.TaskPatch where
  title := none
  listId := none
  note := none
  tags := none
  status := some (some .open)
  important := none
  dueOn := none
  remindAt := none
  remindTimezone := none
  recurrence := none
  rank := none
  completedAt := some none

/-- The call of the store that a call of the service ends with. -/
def Call.write (texts : Texts) (supply : Supply) (store : Store) : Call → StoreResult Tx
  | .commitCompletion commit => (Native.commitCompletion texts supply store commit.taskId
      commit.completedAt commit.nextTask).map Prod.snd
  | .uncompleteTask id => (Native.patchTask texts supply store id reopening).map Prod.snd

/-- The task that a call is about to insert. -/
def Call.next : Call → Option Task
  | .commitCompletion commit => commit.nextTask
  | .uncompleteTask _ => none

/-! ### A round of the sync engine -/

/-- The body of a request. -/
def syncRequest (store : Store) (limit : Nat) : SyncBody where
  deviceId := store.kv.deviceId
  cursor := store.kv.syncCursor
  ops := (pendingMutations store limit).map Web.syncOp
  limit := limit

def ackText : AckStatus → String
  | .applied => "applied"
  | .rejected => "rejected"
  | .alreadyProcessed => "already_processed"

def serverAck (env : Env) (ack : Ack) : ServerAck where
  opId := env.uuid.render ack.opId
  status := ackText ack.status
  errorCode := ack.errorCode

def serverChange (env : Env) (change : Change) : ServerChange where
  serverSeq := change.serverSeq
  opId := env.uuid.render change.opId
  entity := change.entity
  entityId := env.uuid.render change.entityId
  kind := change.kind
  patch := toDomainPatch change.patch

/-- What `syncApplyResult` makes of an answer. -/
def serverResult (env : Env) (response : SyncResponse) (sessionId : Option String) :
    ApplyServerResultRequest where
  acks := response.ack.map (serverAck env)
  changes := response.changes.map (serverChange env)
  nextCursor := response.nextCursor
  sessionId := sessionId

end ShishiTodo.Recurring
