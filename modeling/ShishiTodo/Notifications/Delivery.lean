import Mathlib.Algebra.Group.Nat.Defs
import Mathlib.Data.Finset.Insert
import ShishiTodo.Domain

/-!
# Delivery of notification clicks

The state machine that brings an activated reminder to the listener of the web view (`notification_activation.rs`). Everything it owns is behind one lock, and every function of this module is one section under it, with the reading of the clock that was taken before.
-/

namespace ShishiTodo

namespace Notifications

/-- A reading of the monotonic clock, in nanoseconds. -/
abbrev Instant := Nat

def seconds (count : Nat) : Nat := count * 1000000000

/-- `saturating_duration_since`. -/
def Instant.since (now earlier : Instant) : Nat := now - earlier

/-- `saturating_add(1)` of a `u32`. -/
def saturatingSucc (count : Nat) : Nat := min (count + 1) (2 ^ 32 - 1)

def duplicateTargetTtl : Nat := seconds 300

def completedTargetCapacity : Nat := 32

def ackedIdCapacity : Nat := 32

def activationTtl : Nat := seconds 300

def maxRequeuesPerActivation : Nat := 1

def maxDeliveryAttempts : Nat := 2

def activationCapacity : Nat := 8

def rejectionCapacity : Nat := 8

def activationDiagnosticCapacity : Nat := 64

def activationDiagnosticTtl : Nat := seconds 300

def acceptedAckOutcomes : List String := ["opened", "rejected", "expired", "duplicate"]

/-- `pop_front` until no more than so many are left. -/
def popFrontTo {α : Type} (capacity : Nat) (queue : List α) : List α :=
  queue.drop (queue.length - capacity)

structure NotificationTargetV1 where
  accountId : String
  taskId : String
  sourceVersion : Nat
  notificationId : Option String
  deriving DecidableEq, Repr

def targetKey (target : NotificationTargetV1) : String :=
  match target.notificationId with
  | some notificationId => target.accountId ++ ":" ++ target.taskId ++ ":" ++ notificationId
  | none => target.accountId ++ ":" ++ target.taskId

def validComponent (value : String) : Bool :=
  !value.isEmpty && decide (value.utf8ByteSize ≤ 128) &&
    value.toList.all fun character => character.isAlphanum || "-_.".toList.contains character

structure ActivationMeta where
  attempts : Nat
  requeuesUsed : Nat
  enqueuedAt : Option Instant
  deriving DecidableEq, Repr

namespace ActivationMeta

def admittedAt (now : Instant) : ActivationMeta := ⟨0, 0, some now⟩

def isExpired (record : ActivationMeta) (now : Instant) : Bool :=
  record.enqueuedAt.any fun enqueuedAt => decide (activationTtl ≤ now.since enqueuedAt)

end ActivationMeta

structure Activation where
  activationId : String
  target : NotificationTargetV1
  taskTitle : String
  bookkeeping : ActivationMeta
  deriving DecidableEq, Repr

namespace Activation

def isExpired (activation : Activation) (now : Instant) : Bool := activation.bookkeeping.isExpired now

/-- Another delivery of the activation. -/
def attempt (activation : Activation) : Activation :=
  { activation with
    bookkeeping :=
      { activation.bookkeeping with attempts := saturatingSucc activation.bookkeeping.attempts } }

/-- Another return to the queue. -/
def requeue (activation : Activation) : Activation :=
  { activation with
    bookkeeping :=
      { activation.bookkeeping with
        requeuesUsed := saturatingSucc activation.bookkeeping.requeuesUsed } }

/-- Whether a reload ends the activation. -/
def spent (activation : Activation) (now : Instant) : Bool :=
  decide (maxRequeuesPerActivation ≤ activation.bookkeeping.requeuesUsed) || activation.isExpired now

end Activation

inductive RejectionCode where
  | appNotReady
  | dataDirUnavailable
  | accountRegistryMissing
  | accountRegistryInvalid
  | accountSwitchRequired
  | accountSwitchInProgress
  | taskNotFound
  | taskReadFailed
  | activationExpired
  | activationExpiredDuringValidation
  | activationQueueOverflow
  deriving DecidableEq, Repr

namespace RejectionCode

def asStr : RejectionCode → String
  | .appNotReady => "APP_NOT_READY"
  | .dataDirUnavailable => "DATA_DIR_UNAVAILABLE"
  | .accountRegistryMissing => "ACCOUNT_REGISTRY_MISSING"
  | .accountRegistryInvalid => "ACCOUNT_REGISTRY_INVALID"
  | .accountSwitchRequired => "ACCOUNT_SWITCH_REQUIRED"
  | .accountSwitchInProgress => "ACCOUNT_SWITCH_IN_PROGRESS"
  | .taskNotFound => "TASK_NOT_FOUND"
  | .taskReadFailed => "TASK_READ_FAILED"
  | .activationExpired => "ACTIVATION_EXPIRED"
  | .activationExpiredDuringValidation => "ACTIVATION_EXPIRED_DURING_VALIDATION"
  | .activationQueueOverflow => "ACTIVATION_QUEUE_OVERFLOW"

def userMessage : RejectionCode → String
  | .appNotReady => "应用尚未完成初始化，请稍后重试"
  | .dataDirUnavailable => "暂时无法读取本地账号数据"
  | .accountRegistryMissing => "本地账号状态不可用，请检查账号恢复状态"
  | .accountRegistryInvalid => "本地账号状态不可用，请检查账号恢复状态"
  | .accountSwitchRequired => "该提醒属于另一个账号，请先切换账号"
  | .accountSwitchInProgress => "账号切换进行中，请稍后重试"
  | .taskNotFound => "提醒对应的任务已删除或不可见"
  | .taskReadFailed => "暂时无法读取提醒对应的任务"
  | .activationExpired => "提醒已过期，请重新打开任务"
  | .activationExpiredDuringValidation => "提醒已过期，请重新打开任务"
  | .activationQueueOverflow => "提醒打开过于频繁，请稍后重新打开任务"

end RejectionCode

structure RejectedActivation where
  code : String
  message : String
  deriving DecidableEq, Repr

def RejectedActivation.fromCode (code : RejectionCode) : RejectedActivation := ⟨code.asStr, code.userMessage⟩

/-! ### The evidence -/

inductive ActivationDiagnosticEvent where
  | delivered
  | requeued
  | rejected
  | acked
  | duplicateAck
  deriving DecidableEq, Repr

namespace ActivationDiagnosticEvent

def asStr : ActivationDiagnosticEvent → String
  | .delivered => "delivered"
  | .requeued => "requeued"
  | .rejected => "rejected"
  | .acked => "acked"
  | .duplicateAck => "duplicate_ack"

def terminalOutcome : ActivationDiagnosticEvent → Option String
  | .rejected => some "rejected"
  | .acked => some "acked"
  | _ => none

end ActivationDiagnosticEvent

/-- The FNV-1a hash that `session_correlation` prints. -/
def sessionCorrelation (sessionId : String) : UInt64 :=
  sessionId.toUTF8.toList.foldl (fun hash byte => (hash ^^^ byte.toUInt64) * 0x100000001b3)
    0xcbf29ce484222325

structure ActivationDiagnostic where
  activationId : String
  notificationInstanceId : Option String
  eventType : String
  rejectionCode : Option String
  terminalOutcome : Option String
  deliveryAttempt : Nat
  sessionCorrelation : UInt64
  timestampMillis : Nat
  deriving DecidableEq, Repr

structure AckedActivation where
  activationId : String
  notificationInstanceId : Option String
  deliveryAttempt : Nat
  deriving DecidableEq, Repr

namespace ActivationDiagnostic

def fromActivation (activation : Activation) (event : ActivationDiagnosticEvent) (sessionId : String)
    (rejectionCode : Option RejectionCode) : ActivationDiagnostic :=
  ⟨activation.activationId, activation.target.notificationId, event.asStr,
    rejectionCode.map RejectionCode.asStr, event.terminalOutcome, activation.bookkeeping.attempts,
    Notifications.sessionCorrelation sessionId, 0⟩

def ofDuplicateAck (acked : AckedActivation) (sessionId : String) : ActivationDiagnostic :=
  ⟨acked.activationId, acked.notificationInstanceId, ActivationDiagnosticEvent.duplicateAck.asStr, none,
    none, acked.deliveryAttempt, Notifications.sessionCorrelation sessionId, 0⟩

end ActivationDiagnostic

structure ActivationDiagnostics where
  entries : List ActivationDiagnostic
  origin : Option Instant
  deriving DecidableEq, Repr

namespace ActivationDiagnostics

/-- `as_millis`, in a `u64`. -/
def millis (duration : Nat) : Nat := min (duration / 1000000) (2 ^ 64 - 1)

def prune (now : Instant) (diagnostics : ActivationDiagnostics) : ActivationDiagnostics :=
  match diagnostics.origin with
  | none => diagnostics
  | some origin =>
      { diagnostics with
        entries := diagnostics.entries.filter fun entry =>
          decide (millis (now.since origin) - entry.timestampMillis < millis activationDiagnosticTtl) }

def push (diagnostic : ActivationDiagnostic) (now : Instant) (diagnostics : ActivationDiagnostics) :
    ActivationDiagnostics :=
  let origin := diagnostics.origin.getD now
  let pruned := prune now { diagnostics with origin := some origin }
  { pruned with
    entries := popFrontTo (activationDiagnosticCapacity - 1) pruned.entries ++
      [{ diagnostic with timestampMillis := millis (now.since origin) }] }

def record (activation : Activation) (event : ActivationDiagnosticEvent) (sessionId : String)
    (rejectionCode : Option RejectionCode) (now : Instant) (diagnostics : ActivationDiagnostics) :
    ActivationDiagnostics :=
  diagnostics.push (.fromActivation activation event sessionId rejectionCode) now

end ActivationDiagnostics

/-! ### The state -/

inductive Terminal where
  | acked
  | rejected
  deriving DecidableEq, Repr

/-- What was admitted, and how each activation ended. -/
structure AuditLedger where
  admitted : Finset String
  terminated : List (String × Terminal)
  deriving DecidableEq

structure ReservedActivation where
  ticket : UInt64
  sessionId : String
  activation : Activation
  deriving DecidableEq, Repr

structure InFlightActivation where
  activation : Activation
  sessionId : String
  deriving DecidableEq, Repr

structure CompletedActivation where
  targetKey : String
  openedAt : Instant
  deriving DecidableEq, Repr

structure DeliveryState where
  sessionId : Option String
  pending : List Activation
  reserved : Option ReservedActivation
  inFlight : Option InFlightActivation
  completed : List CompletedActivation
  acked : List AckedActivation
  rejections : List RejectedActivation
  diagnostics : ActivationDiagnostics
  nextTicket : UInt64
  audit : AuditLedger
  deriving DecidableEq

namespace DeliveryState

def initial : DeliveryState := ⟨none, [], none, none, [], [], [], ⟨[], none⟩, 0, ⟨∅, []⟩⟩

def liveCount (state : DeliveryState) : Nat :=
  state.pending.length + state.reserved.isSome.toNat + state.inFlight.isSome.toNat

def pushRejection (rejection : RejectedActivation) (state : DeliveryState) : DeliveryState :=
  { state with rejections := popFrontTo (rejectionCapacity - 1) state.rejections ++ [rejection] }

def terminateAcked (activation : Activation) (sessionId : String) (now : Instant) (state : DeliveryState) :
    DeliveryState :=
  { state with
    acked := popFrontTo ackedIdCapacity (state.acked ++
      [⟨activation.activationId, activation.target.notificationId, activation.bookkeeping.attempts⟩])
    diagnostics := state.diagnostics.record activation .acked sessionId none now
    audit :=
      { state.audit with
        terminated := state.audit.terminated ++ [(activation.activationId, .acked)] } }

def terminateRejected (activation : Activation) (code : RejectionCode) (sessionId : String)
    (now : Instant) (state : DeliveryState) : DeliveryState :=
  { state.pushRejection (.fromCode code) with
    diagnostics := state.diagnostics.record activation .rejected sessionId (some code) now
    audit :=
      { state.audit with
        terminated := state.audit.terminated ++ [(activation.activationId, .rejected)] } }

/-- Makes room for one more: the oldest activation that waits is rejected. -/
def displace (now : Instant) (state : DeliveryState) : DeliveryState :=
  if activationCapacity ≤ state.liveCount then
    match state.pending with
    | [] => state
    | victim :: rest =>
        { state with pending := rest }.terminateRejected victim .activationQueueOverflow
          (state.sessionId.getD "") now
  else state

def enqueue (activation : Activation) (now : Instant) (state : DeliveryState) : DeliveryState :=
  let room := displace now
    { state with
      audit := { state.audit with admitted := insert activation.activationId state.audit.admitted } }
  if activationCapacity ≤ room.liveCount then
    room.terminateRejected activation .activationQueueOverflow (state.sessionId.getD "") now
  else { room with pending := room.pending ++ [activation] }

/-- `put`. -/
def put (activation : Activation) (now : Instant) (state : DeliveryState) : DeliveryState :=
  state.enqueue { activation with bookkeeping := .admittedAt now } now

/-- What is kept of the opened targets. -/
def forgetOpened (now : Instant) (state : DeliveryState) : DeliveryState :=
  { state with
    completed := state.completed.filter fun completed =>
      decide (now.since completed.openedAt < duplicateTargetTtl) }

/-- `completed_target_at`, once the old ones are forgotten. -/
def opened (target : NotificationTargetV1) (state : DeliveryState) : Bool :=
  state.completed.any fun completed => completed.targetKey == targetKey target

/-- The end of a delivery that was acknowledged. -/
def finish (inFlight : InFlightActivation) (sessionId outcome : String) (now : Instant)
    (state : DeliveryState) : DeliveryState :=
  let completed :=
    if outcome = "opened" then
      popFrontTo completedTargetCapacity
        (state.completed ++ [⟨targetKey inFlight.activation.target, now⟩])
    else state.completed
  { state with
    inFlight := none
    completed := completed }.terminateAcked inFlight.activation sessionId now

def acknowledge (sessionId activationId outcome : String) (now : Instant) (state : DeliveryState) :
    Bool × DeliveryState :=
  if outcome ∉ acceptedAckOutcomes then (false, state)
  else match state.inFlight with
    | some inFlight =>
        if inFlight.activation.activationId ≠ activationId ∨ inFlight.sessionId ≠ sessionId then
          (false, state)
        else (true, state.finish inFlight sessionId outcome now)
    | none =>
        match state.acked.find? fun acked => acked.activationId == activationId with
        | none => (false, state)
        | some acked =>
            (true, { state with
              diagnostics := state.diagnostics.push (.ofDuplicateAck acked sessionId) now })

/-- A reload: what is in flight goes back to the queue, once. -/
def reload (now : Instant) (state : DeliveryState) : DeliveryState :=
  match state.inFlight with
  | none => state
  | some inFlight =>
      if inFlight.activation.spent now then
        { state with inFlight := none }.terminateRejected inFlight.activation .activationExpired
          inFlight.sessionId now
      else
        { state with
          inFlight := none
          diagnostics := state.diagnostics.record inFlight.activation.requeue .requeued
            inFlight.sessionId none now
          pending := inFlight.activation.requeue :: state.pending }

def listenerReady (sessionId : String) (now : Instant) (state : DeliveryState) : Bool × DeliveryState :=
  if ¬ validComponent sessionId then (false, state)
  else
    let reloaded := if state.sessionId ≠ some sessionId then state.reload now else state
    (true, { reloaded with sessionId := some sessionId })

inductive ReserveOutcome where
  | reserved (ticket : UInt64) (activation : Activation)
  | drained
  | unavailable
  deriving DecidableEq, Repr

def reserveForSession (sessionId : String) (now : Instant) (state : DeliveryState) :
    ReserveOutcome × DeliveryState :=
  if state.sessionId ≠ some sessionId ∨ state.inFlight.isSome ∨ state.reserved.isSome then
    (.unavailable, state)
  else match state.pending with
    | [] => (.unavailable, state)
    | activation :: rest =>
        let left := { state with pending := rest }.forgetOpened now
        if left.opened activation.target then
          (.drained, left.terminateAcked activation sessionId now)
        else if activation.isExpired now then
          (.drained, left.terminateRejected activation .activationExpired sessionId now)
        else
          (.reserved left.nextTicket activation,
            { left with
              nextTicket := left.nextTicket + 1
              reserved := some ⟨left.nextTicket, sessionId, activation⟩ })

inductive CommitOutcome where
  | committed (activation : Activation)
  | expired
  | expiredDuringValidation
  | relinquished
  deriving DecidableEq, Repr

/-- The state without its reservation, and the reservation, if the ticket is its own. -/
def release (ticket : UInt64) (state : DeliveryState) : Option (ReservedActivation × DeliveryState) :=
  match state.reserved with
  | none => none
  | some reserved =>
      if reserved.ticket ≠ ticket then none else some (reserved, { state with reserved := none })

/-- `commit_reservation`, once the reservation was found to be the caller's. -/
def deliver (activation : Activation) (sessionId : String) (now : Instant) (state : DeliveryState) :
    CommitOutcome × DeliveryState :=
  if activation.isExpired now then
    (.expiredDuringValidation,
      state.terminateRejected activation .activationExpiredDuringValidation sessionId now)
  else if maxDeliveryAttempts ≤ activation.bookkeeping.attempts then
    (.expired, state.terminateRejected activation .activationExpired sessionId now)
  else if state.sessionId ≠ some sessionId ∨ state.inFlight.isSome then
    (.relinquished, { state with pending := activation :: state.pending })
  else
    (.committed activation.attempt,
      { state with
        diagnostics := state.diagnostics.record activation.attempt .delivered sessionId none now
        inFlight := some ⟨activation.attempt, sessionId⟩ })

def commitReservation (ticket : UInt64) (sessionId taskTitle : String) (now : Instant)
    (state : DeliveryState) : CommitOutcome × DeliveryState :=
  match state.release ticket with
  | none => (.relinquished, state)
  | some (reserved, left) =>
      if reserved.sessionId ≠ sessionId then
        (.relinquished, { left with pending := reserved.activation :: left.pending })
      else left.deliver { reserved.activation with taskTitle := taskTitle } sessionId now

def rejectReservation (ticket : UInt64) (code : RejectionCode) (now : Instant) (state : DeliveryState) :
    DeliveryState :=
  match state.release ticket with
  | none => state
  | some (reserved, left) => left.terminateRejected reserved.activation code reserved.sessionId now

def restoreReservation (ticket : UInt64) (now : Instant) (state : DeliveryState) : DeliveryState :=
  match state.release ticket with
  | none => state
  | some (reserved, left) =>
      if reserved.activation.isExpired now then
        left.terminateRejected reserved.activation .activationExpired reserved.sessionId now
      else { left with pending := reserved.activation :: left.pending }

end DeliveryState

end Notifications

end ShishiTodo
