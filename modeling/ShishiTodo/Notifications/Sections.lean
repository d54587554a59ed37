import ShishiTodo.Lib.Machine
import ShishiTodo.Notifications.Delivery

/-!
# Sections under the lock

What the callers can do to the delivery, one section after another, and the record of it: what was admitted, what a listener was given, what a reload took back, and what was opened.
-/

namespace ShishiTodo

namespace Notifications

open Lib

/-- One section under the lock, by whom it is entered. -/
inductive Section where
  | put (activation : Activation)
  | listenerReady (sessionId : String)
  | reserve (sessionId : String)
  | commit (ticket : UInt64) (sessionId taskTitle : String)
  | reject (ticket : UInt64) (code : RejectionCode)
  /-- Also what the guard of a reservation does when the validation panics. -/
  | restore (ticket : UInt64)
  | acknowledge (sessionId activationId outcome : String)
  deriving DecidableEq, Repr

/-- The reservation a section settles. -/
def Section.ticket : Section → Option UInt64
  | .commit ticket _ _ => some ticket
  | .reject ticket _ => some ticket
  | .restore ticket => some ticket
  | _ => none

inductive Entry where
  | admitted (activationId : String) (now : Instant)
  | committed (activation : Activation) (sessionId : String) (now : Instant)
  | requeued (activationId : String)
  | opened (target : NotificationTargetV1) (now : Instant)
  deriving DecidableEq, Repr

namespace DeliveryState

def enter (now : Instant) (state : DeliveryState) : Section → DeliveryState
  | .put activation => state.put activation now
  | .listenerReady sessionId => (state.listenerReady sessionId now).2
  | .reserve sessionId => (state.reserveForSession sessionId now).2
  | .commit ticket sessionId taskTitle => (state.commitReservation ticket sessionId taskTitle now).2
  | .reject ticket code => state.rejectReservation ticket code now
  | .restore ticket => state.restoreReservation ticket now
  | .acknowledge sessionId activationId outcome => (state.acknowledge sessionId activationId outcome now).2

/-- What a reload puts back into the queue. -/
def requeues (now : Instant) (state : DeliveryState) : List Entry :=
  match state.inFlight with
  | none => []
  | some inFlight =>
      if inFlight.activation.spent now then [] else [.requeued inFlight.activation.activationId]

/-- What there is to say of a section. An acknowledgement opens what is in flight; its repetition opens nothing. -/
def entriesOf (now : Instant) (state : DeliveryState) : Section → List Entry
  | .put activation => [.admitted activation.activationId now]
  | .listenerReady sessionId =>
      if validComponent sessionId ∧ state.sessionId ≠ some sessionId then state.requeues now else []
  | .commit ticket sessionId taskTitle =>
      match (state.commitReservation ticket sessionId taskTitle now).1 with
      | .committed activation => [.committed activation sessionId now]
      | _ => []
  | .acknowledge sessionId activationId outcome =>
      match state.inFlight with
      | none => []
      | some inFlight =>
          if (state.acknowledge sessionId activationId outcome now).1 ∧ outcome = "opened" then
            [.opened inFlight.activation.target now]
          else []
  | _ => []

/-- The reservation a section hands to its caller: the ticket, and the session it is for. -/
def grants (now : Instant) (state : DeliveryState) : Section → List (UInt64 × String)
  | .reserve sessionId =>
      match (state.reserveForSession sessionId now).1 with
      | .reserved ticket _ => [(ticket, sessionId)]
      | _ => []
  | _ => []

end DeliveryState

/-- Runs of sections, each with its reading of the clock. -/
def deliveryRuns : Machine DeliveryState (Section × Instant) Entry where
  step state entry := state.enter entry.2 entry.1
  emit state entry := state.entriesOf entry.2 entry.1

/-- A click of a reminder. -/
def clickOf (id taskId : String) : Activation := ⟨id, ⟨"default", taskId, 1, none⟩, "", ⟨0, 0, none⟩⟩

end Notifications

end ShishiTodo
