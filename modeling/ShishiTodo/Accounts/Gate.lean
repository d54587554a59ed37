import Mathlib.Data.List.Perm.Basic
import ShishiTodo.Lib.Machine

/-!
# The runtime gate

`RuntimeGate` keeps storage calls out while the process changes accounts. A call enters by a check, an increment and a second check; a switch clears the flag under a lock and waits until nothing is in flight. Each atomic access and each section under the lock is one step, and any number of calls may be on their way.
-/

namespace ShishiTodo.Accounts

open Lib

inductive SwitchRuntimePhase where
  | active
  | draining
  | preparing
  | prepared
  | drainFailed
  | requestInProgress
  | restartRequired
  | failed
  deriving DecidableEq, Repr

inductive GateError where
  | switchInProgress
  | drainTimeout
  | notPrepared
  | notAbortable
  deriving DecidableEq, Repr

/-- Where a call of `enter_storage` stands. -/
inductive Entry where
  /-- The first check found the gate open. -/
  | passed
  /-- The call is counted. -/
  | counted
  /-- The second check found the gate closed. -/
  | refused
  deriving DecidableEq, Repr

/-- Who holds the lock. -/
inductive Holder where
  /-- `begin_switch` at the head of its loop, or just woken by the time limit. -/
  | drain (timedOut : Bool)
  | request (completed : Bool)
  | abort
  deriving DecidableEq, Repr

structure RuntimeGate where
  accepting : Bool
  inFlight : Int
  phase : SwitchRuntimePhase
  control : Option Holder
  /-- The calls of `enter_storage` that have neither a lease nor an answer. -/
  entering : List Entry
  leases : Nat
  /-- The calls of `begin_switch` that wait on `drained`. -/
  waiting : Nat
  deriving DecidableEq, Repr

/-- What a call comes back with. -/
inductive GateAnswer where
  | lease
  | noLease
  | drained
  | notDrained (error : GateError)
  | request
  | noRequest (error : GateError)
  | abort
  | noAbort (error : GateError)
  | reopened
  deriving DecidableEq, Repr

inductive GateEvent where
  | enterStorage
  | proceed (index : Nat)
  | dropLease
  | beginSwitch
  | drain (expired : Bool)
  | wake (timedOut : Bool)
  | prepareCommitted
  | prepareFailed
  | beginRequest
  | markRestartRequired
  | markFailed
  | dropRequest
  | beginAbort
  | activateAfterAbort
  | failClosed
  | dropAbort
  deriving DecidableEq, Repr

namespace RuntimeGate

/-- `RuntimeGate::active`. -/
def active : RuntimeGate where
  accepting := true
  inFlight := 0
  phase := .active
  control := none
  entering := []
  leases := 0
  waiting := 0

variable (gate : RuntimeGate)

/-- The first check of `enter_storage`. -/
def enterStorage : RuntimeGate × List GateAnswer :=
  if gate.accepting then ({ gate with entering := gate.entering ++ [.passed] }, [])
  else (gate, [.noLease])

/-- The next step of a call of `enter_storage`: the increment, the second check, or the decrement of a call that is turned away. -/
def proceed (index : Nat) : RuntimeGate × List GateAnswer :=
  match gate.entering[index]? with
  | none => (gate, [])
  | some .passed =>
      ({ gate with
          inFlight := gate.inFlight + 1
          entering := gate.entering.eraseIdx index ++ [.counted] }, [])
  | some .counted =>
      if gate.accepting then
        ({ gate with
            entering := gate.entering.eraseIdx index
            leases := gate.leases + 1 }, [.lease])
      else ({ gate with entering := gate.entering.eraseIdx index ++ [.refused] }, [])
  | some .refused =>
      ({ gate with
          inFlight := gate.inFlight - 1
          entering := gate.entering.eraseIdx index }, [.noLease])

def dropLease : RuntimeGate :=
  if gate.leases = 0 then gate
  else { gate with inFlight := gate.inFlight - 1, leases := gate.leases - 1 }

/-- `begin_switch` up to its loop. -/
def beginSwitch : RuntimeGate × List GateAnswer :=
  if gate.control.isSome then (gate, [])
  else if gate.phase ≠ .active then (gate, [.notDrained .switchInProgress])
  else ({ gate with accepting := false, phase := .draining, control := some (.drain false) }, [])

/-- `begin_switch` looks at `in_flight`: after a time limit, or at the head of its loop, where it goes on, gives up when its deadline is over, or waits and lets go of the lock. -/
def drain (expired : Bool) : RuntimeGate × List GateAnswer :=
  match gate.control with
  | some (.drain true) =>
      if gate.inFlight > 0 then
        ({ gate with phase := .drainFailed, control := none }, [.notDrained .drainTimeout])
      else ({ gate with control := some (.drain false) }, [])
  | some (.drain false) =>
      if gate.inFlight > 0 then
        if expired then
          ({ gate with phase := .drainFailed, control := none }, [.notDrained .drainTimeout])
        else ({ gate with control := none, waiting := gate.waiting + 1 }, [])
      else ({ gate with phase := .preparing, control := none }, [.drained])
  | _ => (gate, [])

/-- A waiting `begin_switch` takes the lock again: it was notified, or woke without cause, or its time is up. -/
def wake (timedOut : Bool) : RuntimeGate :=
  if gate.control.isSome ∨ gate.waiting = 0 then gate
  else { gate with control := some (.drain timedOut), waiting := gate.waiting - 1 }

def prepareCommitted : RuntimeGate :=
  if gate.control.isNone ∧ gate.phase = .preparing then { gate with phase := .prepared } else gate

def prepareFailed : RuntimeGate :=
  if gate.control.isNone ∧ gate.phase = .preparing then { gate with phase := .drainFailed } else gate

def beginRequest : RuntimeGate × List GateAnswer :=
  if gate.control.isSome then (gate, [])
  else match gate.phase with
    | .prepared =>
        ({ gate with phase := .requestInProgress, control := some (.request false) }, [.request])
    | .draining | .preparing | .requestInProgress => (gate, [.noRequest .switchInProgress])
    | .active | .drainFailed | .restartRequired | .failed => (gate, [.noRequest .notPrepared])

/-- `mark_restart_required` and `mark_failed`. -/
def markRequest (phase : SwitchRuntimePhase) : RuntimeGate :=
  match gate.control with
  | some (.request _) => { gate with phase := phase, control := some (.request true) }
  | _ => gate

/-- The guard of a request that was not completed fails the gate. -/
def dropRequest : RuntimeGate :=
  match gate.control with
  | some (.request completed) =>
      if !completed ∧ gate.phase = .requestInProgress then
        { gate with phase := .failed, control := none }
      else { gate with control := none }
  | _ => gate

def beginAbort : RuntimeGate × List GateAnswer :=
  if gate.control.isSome then (gate, [])
  else match gate.phase with
    | .active | .prepared | .drainFailed => ({ gate with control := some .abort }, [.abort])
    | .draining | .preparing | .requestInProgress => (gate, [.noAbort .switchInProgress])
    | .restartRequired | .failed => (gate, [.noAbort .notAbortable])

def activateAfterAbort : RuntimeGate × List GateAnswer :=
  if gate.control = some .abort then
    ({ gate with accepting := true, phase := .active, control := none }, [.reopened])
  else (gate, [])

def failClosed : RuntimeGate :=
  if gate.control = some .abort then { gate with phase := .failed, control := none } else gate

def dropAbort : RuntimeGate :=
  if gate.control = some .abort then { gate with control := none } else gate

/-- One step, and the answers of the calls that end in it. -/
def step : GateEvent → RuntimeGate × List GateAnswer
  | .enterStorage => gate.enterStorage
  | .proceed index => gate.proceed index
  | .dropLease => (gate.dropLease, [])
  | .beginSwitch => gate.beginSwitch
  | .drain expired => gate.drain expired
  | .wake timedOut => (gate.wake timedOut, [])
  | .prepareCommitted => (gate.prepareCommitted, [])
  | .prepareFailed => (gate.prepareFailed, [])
  | .beginRequest => gate.beginRequest
  | .markRestartRequired => (gate.markRequest .restartRequired, [])
  | .markFailed => (gate.markRequest .failed, [])
  | .dropRequest => (gate.dropRequest, [])
  | .beginAbort => gate.beginAbort
  | .activateAfterAbort => gate.activateAfterAbort
  | .failClosed => (gate.failClosed, [])
  | .dropAbort => (gate.dropAbort, [])

def machine : Machine RuntimeGate GateEvent GateAnswer where
  step gate event := (gate.step event).1
  emit gate event := (gate.step event).2

variable {gate} {index : Nat} {event : GateEvent}

/-! ### What every step keeps -/

/-- How many of these calls of `enter_storage` are counted in `in_flight`. -/
def counted (entering : List Entry) : Nat := entering.countP (· ≠ .passed)

/-- How the lock, the phase, the flag and the counter go together. -/
structure Consistent (gate : RuntimeGate) : Prop where
  inFlight : gate.inFlight = gate.leases + counted gate.entering
  opened : gate.phase = .active → gate.accepting = true
  closed : gate.phase ≠ .active → gate.phase ≠ .failed → gate.accepting = false
  drain : ∀ timedOut, gate.control = some (.drain timedOut) → gate.phase = .draining ∧ gate.waiting = 0
  waiting : gate.waiting = 0 ∨ gate.waiting = 1 ∧ gate.phase = .draining
  request : ∀ completed, gate.control = some (.request completed) → gate.accepting = false ∧
    (gate.phase = .requestInProgress ∨ gate.phase = .restartRequired ∨ gate.phase = .failed)
  abort : gate.control = some .abort →
    gate.phase = .active ∨ gate.phase = .prepared ∨ gate.phase = .drainFailed

theorem consistent_active : Consistent active where
  inFlight := rfl
  opened _ := rfl
  closed hactive := absurd rfl hactive
  drain _ hcontrol := by cases hcontrol
  waiting := .inl rfl
  request _ hcontrol := by cases hcontrol
  abort hcontrol := by cases hcontrol

/-- A call that takes its next step leaves its place. -/
theorem counted_eraseIdx {entering : List Entry} {entry : Entry} (h : entering[index]? = some entry) :
    counted entering = counted (entering.eraseIdx index) + if entry ≠ .passed then 1 else 0 := by
  obtain ⟨hindex, rfl⟩ := List.getElem?_eq_some_iff.mp h
  rw [counted, ← (List.getElem_cons_eraseIdx_perm hindex).countP_eq, List.countP_cons]
  simp [counted]

theorem counted_append (rest : List Entry) (entry : Entry) :
    counted (rest ++ [entry]) = counted rest + if entry ≠ .passed then 1 else 0 := by
  rw [counted, List.countP_append, List.countP_singleton]
  simp [counted]

theorem Consistent.enterStorage (h : Consistent gate) : Consistent gate.enterStorage.1 := by
  unfold RuntimeGate.enterStorage
  split
  · refine { h with inFlight := ?_ }
    change gate.inFlight = gate.leases + counted (gate.entering ++ [.passed])
    rw [counted_append]
    exact h.inFlight
  · exact h

theorem Consistent.proceed (h : Consistent gate) (index : Nat) : Consistent (gate.proceed index).1 := by
  have hcount := h.inFlight
  unfold RuntimeGate.proceed
  split
  · exact h
  · rename_i hentry
    rw [counted_eraseIdx hentry, if_neg (by decide)] at hcount
    refine { h with inFlight := ?_ }
    change gate.inFlight + 1 = gate.leases + counted (gate.entering.eraseIdx index ++ [.counted])
    rw [counted_append, if_pos (by decide)]
    omega
  · rename_i hentry
    rw [counted_eraseIdx hentry, if_pos (by decide)] at hcount
    split
    · refine { h with inFlight := ?_ }
      change gate.inFlight = (gate.leases + 1 : Nat) + counted (gate.entering.eraseIdx index)
      omega
    · refine { h with inFlight := ?_ }
      change gate.inFlight = gate.leases + counted (gate.entering.eraseIdx index ++ [.refused])
      rw [counted_append, if_pos (by decide)]
      exact hcount
  · rename_i hentry
    rw [counted_eraseIdx hentry, if_pos (by decide)] at hcount
    refine { h with inFlight := ?_ }
    change gate.inFlight - 1 = gate.leases + counted (gate.entering.eraseIdx index)
    omega

theorem Consistent.dropLease (h : Consistent gate) : Consistent gate.dropLease := by
  unfold RuntimeGate.dropLease
  split
  · exact h
  · rename_i hleases
    refine { h with inFlight := ?_ }
    have hcount := h.inFlight
    change gate.inFlight - 1 = ((gate.leases - 1 : Nat) : Int) + counted gate.entering
    omega

theorem Consistent.beginSwitch (h : Consistent gate) : Consistent gate.beginSwitch.1 := by
  unfold RuntimeGate.beginSwitch
  split
  · exact h
  · split
    · exact h
    · rename_i hactive
      have hwaiting : gate.waiting = 0 := by
        rcases h.waiting with hnone | ⟨-, hdraining⟩
        · exact hnone
        · rw [hdraining] at hactive
          exact absurd (by decide) hactive
      exact {
        inFlight := h.inFlight
        opened := fun hphase => by cases hphase
        closed := fun _ _ => rfl
        drain := fun _ _ => ⟨rfl, hwaiting⟩
        waiting := .inl hwaiting
        request := fun _ hcontrol => by cases hcontrol
        abort := fun hcontrol => by cases hcontrol }

/-- A draining gate is closed. -/
theorem Consistent.shut_of_drain (h : Consistent gate) {timedOut : Bool}
    (hcontrol : gate.control = some (.drain timedOut)) : gate.accepting = false := by
  have hphase := (h.drain timedOut hcontrol).1
  apply h.closed <;> rw [hphase] <;> decide

/-- The lock is let go by `begin_switch`, in a phase where the gate stays closed. -/
theorem Consistent.leaveDrain (h : Consistent gate) {timedOut : Bool}
    (hcontrol : gate.control = some (.drain timedOut)) {phase : SwitchRuntimePhase}
    (hphase : phase ≠ .active) : Consistent { gate with phase := phase, control := none } where
  inFlight := h.inFlight
  opened hactive := absurd hactive hphase
  closed _ _ := h.shut_of_drain hcontrol
  drain _ hnone := by cases hnone
  waiting := .inl (h.drain timedOut hcontrol).2
  request _ hnone := by cases hnone
  abort hnone := by cases hnone

theorem Consistent.drainStep (h : Consistent gate) (expired : Bool) : Consistent (gate.drain expired).1 := by
  unfold RuntimeGate.drain
  split
  · rename_i hcontrol
    split
    · exact h.leaveDrain hcontrol (by decide)
    · exact {
        h with
        drain := fun _ _ => h.drain true hcontrol
        request := fun _ hheld => by cases hheld
        abort := fun hheld => by cases hheld }
  · rename_i hcontrol
    obtain ⟨hphase, hwaiting⟩ := h.drain false hcontrol
    split
    · split
      · exact h.leaveDrain hcontrol (by decide)
      · exact {
          h with
          drain := fun _ hheld => by cases hheld
          waiting := .inr ⟨by rw [hwaiting], hphase⟩
          request := fun _ hheld => by cases hheld
          abort := fun hheld => by cases hheld }
    · exact h.leaveDrain hcontrol (by decide)
  · exact h

theorem Consistent.wake (h : Consistent gate) (timedOut : Bool) : Consistent (gate.wake timedOut) := by
  unfold RuntimeGate.wake
  split
  · exact h
  · rename_i hfree
    rcases h.waiting with hnone | ⟨hone, hphase⟩
    · exact absurd (.inr hnone) hfree
    · have hleft : gate.waiting - 1 = 0 := by
        rw [hone]
      exact {
        h with
        drain := fun _ _ => ⟨hphase, hleft⟩
        waiting := .inl hleft
        request := fun _ hheld => by cases hheld
        abort := fun hheld => by cases hheld }

/-- A phase that the lock does not hold changes to another that keeps the gate closed. -/
theorem Consistent.setPhase (h : Consistent gate) (hfree : gate.control = none)
    (hpreparing : gate.phase = .preparing) {phase : SwitchRuntimePhase} (hphase : phase ≠ .active) :
    Consistent { gate with phase := phase } where
  inFlight := h.inFlight
  opened hactive := absurd hactive hphase
  closed _ _ := h.closed (by rw [hpreparing]; decide) (by rw [hpreparing]; decide)
  drain timedOut hheld := by
    change gate.control = _ at hheld
    rw [hfree] at hheld
    cases hheld
  waiting := by
    rcases h.waiting with hnone | ⟨-, hdraining⟩
    · exact .inl hnone
    · rw [hpreparing] at hdraining
      cases hdraining
  request completed hheld := by
    change gate.control = _ at hheld
    rw [hfree] at hheld
    cases hheld
  abort hheld := by
    change gate.control = _ at hheld
    rw [hfree] at hheld
    cases hheld

/-- A phase in which no `begin_switch` waits. -/
theorem Consistent.idle (h : Consistent gate) (hphase : gate.phase ≠ .draining) : gate.waiting = 0 := by
  rcases h.waiting with hnone | ⟨-, hdraining⟩
  · exact hnone
  · exact absurd hdraining hphase

/-- The lock is let go. -/
theorem Consistent.release (h : Consistent gate) : Consistent { gate with control := none } :=
  { h with
    drain := fun _ hnone => by cases hnone
    request := fun _ hnone => by cases hnone
    abort := fun hnone => by cases hnone }

theorem Consistent.beginRequest (h : Consistent gate) : Consistent gate.beginRequest.1 := by
  unfold RuntimeGate.beginRequest
  split
  · exact h
  · split
    · rename_i hprepared
      exact {
        inFlight := h.inFlight
        opened := fun hactive => by cases hactive
        closed := fun _ _ => h.closed (by rw [hprepared]; decide) (by rw [hprepared]; decide)
        drain := fun _ hheld => by cases hheld
        waiting := .inl (h.idle (by rw [hprepared]; decide))
        request := fun _ _ =>
          ⟨h.closed (by rw [hprepared]; decide) (by rw [hprepared]; decide), .inl rfl⟩
        abort := fun hheld => by cases hheld }
    all_goals exact h

/-- The guard of a request sets one of the last phases. -/
theorem Consistent.markRequest (h : Consistent gate) {phase : SwitchRuntimePhase}
    (hphase : phase = .restartRequired ∨ phase = .failed) : Consistent (gate.markRequest phase) := by
  unfold RuntimeGate.markRequest
  split
  · rename_i completed hcontrol
    obtain ⟨hshut, hrequest⟩ := h.request completed hcontrol
    have hidle : gate.waiting = 0 := by
      apply h.idle
      rcases hrequest with heq | heq | heq <;> rw [heq] <;> decide
    exact {
      inFlight := h.inFlight
      opened := fun hactive => by
        change phase = .active at hactive
        rcases hphase with heq | heq <;> rw [heq] at hactive <;> cases hactive
      closed := fun _ _ => hshut
      drain := fun _ hheld => by cases hheld
      waiting := .inl hidle
      request := fun _ _ => ⟨hshut, .inr hphase⟩
      abort := fun hheld => by cases hheld }
  · exact h

/-- The gate is failed by the holder of the lock. -/
theorem Consistent.fail (h : Consistent gate) (hidle : gate.waiting = 0) :
    Consistent { gate with phase := .failed, control := none } where
  inFlight := h.inFlight
  opened hactive := by cases hactive
  closed _ hfailed := absurd rfl hfailed
  drain _ hnone := by cases hnone
  waiting := .inl hidle
  request _ hnone := by cases hnone
  abort hnone := by cases hnone

theorem Consistent.dropRequest (h : Consistent gate) : Consistent gate.dropRequest := by
  unfold RuntimeGate.dropRequest
  split
  · split
    · rename_i hdropped
      exact h.fail (h.idle (by rw [hdropped.2]; decide))
    · exact h.release
  · exact h

theorem Consistent.beginAbort (h : Consistent gate) : Consistent gate.beginAbort.1 := by
  have htaken : (gate.phase = .active ∨ gate.phase = .prepared ∨ gate.phase = .drainFailed) →
      Consistent { gate with control := some .abort } := fun hphase =>
    { h with
      drain := fun _ hheld => by cases hheld
      request := fun _ hheld => by cases hheld
      abort := fun _ => hphase }
  unfold RuntimeGate.beginAbort
  split
  · exact h
  · split
    · rename_i hphase
      exact htaken (.inl hphase)
    · rename_i hphase
      exact htaken (.inr (.inl hphase))
    · rename_i hphase
      exact htaken (.inr (.inr hphase))
    all_goals exact h

/-- While a guard of an abort is out, no `begin_switch` waits. -/
theorem Consistent.idle_of_abort (h : Consistent gate) (hcontrol : gate.control = some .abort) :
    gate.waiting = 0 := by
  apply h.idle
  rcases h.abort hcontrol with heq | heq | heq <;> rw [heq] <;> decide

theorem Consistent.activateAfterAbort (h : Consistent gate) : Consistent gate.activateAfterAbort.1 := by
  unfold RuntimeGate.activateAfterAbort
  split
  · rename_i hcontrol
    exact {
      inFlight := h.inFlight
      opened := fun _ => rfl
      closed := fun hactive => absurd rfl hactive
      drain := fun _ hnone => by cases hnone
      waiting := .inl (h.idle_of_abort hcontrol)
      request := fun _ hnone => by cases hnone
      abort := fun hnone => by cases hnone }
  · exact h

theorem Consistent.step (h : Consistent gate) (event : GateEvent) : Consistent (gate.step event).1 := by
  cases event with
  | enterStorage => exact h.enterStorage
  | proceed index => exact h.proceed index
  | dropLease => exact h.dropLease
  | beginSwitch => exact h.beginSwitch
  | drain expired => exact h.drainStep expired
  | wake timedOut => exact h.wake timedOut
  | prepareCommitted =>
      simp only [RuntimeGate.step, RuntimeGate.prepareCommitted]
      split
      · rename_i hpreparing
        exact h.setPhase (Option.isNone_iff_eq_none.mp hpreparing.1) hpreparing.2 (by decide)
      · exact h
  | prepareFailed =>
      simp only [RuntimeGate.step, RuntimeGate.prepareFailed]
      split
      · rename_i hpreparing
        exact h.setPhase (Option.isNone_iff_eq_none.mp hpreparing.1) hpreparing.2 (by decide)
      · exact h
  | beginRequest => exact h.beginRequest
  | markRestartRequired => exact h.markRequest (.inl rfl)
  | markFailed => exact h.markRequest (.inr rfl)
  | dropRequest => exact h.dropRequest
  | beginAbort => exact h.beginAbort
  | activateAfterAbort => exact h.activateAfterAbort
  | failClosed =>
      simp only [RuntimeGate.step, RuntimeGate.failClosed]
      split
      · rename_i hcontrol
        exact h.fail (h.idle_of_abort hcontrol)
      · exact h
  | dropAbort =>
      simp only [RuntimeGate.step, RuntimeGate.dropAbort]
      split
      · exact h.release
      · exact h

/-! ### What a step can do -/

/-- A step that changes the phase and leaves the flag alone. -/
inductive Moves (gate : RuntimeGate) : GateEvent → SwitchRuntimePhase → Prop where
  | giveUp (expired timedOut : Bool) (hcontrol : gate.control = some (.drain timedOut)) :
      Moves gate (.drain expired) .drainFailed
  | prepareCommitted (hphase : gate.phase = .preparing) : Moves gate .prepareCommitted .prepared
  | prepareFailed (hphase : gate.phase = .preparing) : Moves gate .prepareFailed .drainFailed
  | beginRequest (hphase : gate.phase = .prepared) : Moves gate .beginRequest .requestInProgress
  | request (event : GateEvent) (completed : Bool) (phase : SwitchRuntimePhase)
      (hcontrol : gate.control = some (.request completed))
      (hphase : phase = .restartRequired ∨ phase = .failed) : Moves gate event phase
  | failClosed (hcontrol : gate.control = some .abort) : Moves gate .failClosed .failed

/-- Everything that a step can do to the flag, the phase and the leases, and what it answers. -/
inductive Effect (gate : RuntimeGate) (event : GateEvent) : RuntimeGate × List GateAnswer → Prop where
  | quiet {after : RuntimeGate} {answers : List GateAnswer} (haccepting : after.accepting = gate.accepting)
      (hphase : after.phase = gate.phase) (hleases : after.leases ≤ gate.leases)
      (hlease : .lease ∉ answers) (hdrained : .drained ∉ answers) (hreopened : .reopened ∉ answers) :
      Effect gate event (after, answers)
  | lease {after : RuntimeGate} (haccepting : gate.accepting = true)
      (hsame : after.accepting = gate.accepting) (hphase : after.phase = gate.phase) :
      Effect gate event (after, [.lease])
  | close {after : RuntimeGate} (hactive : gate.phase = .active) (haccepting : after.accepting = false)
      (hphase : after.phase = .draining) (hleases : after.leases = gate.leases) :
      Effect gate event (after, [])
  | drained {after : RuntimeGate} (hcontrol : gate.control = some (.drain false))
      (hempty : gate.inFlight ≤ 0) (haccepting : after.accepting = gate.accepting)
      (hphase : after.phase = .preparing) (hleases : after.leases = gate.leases) :
      Effect gate event (after, [.drained])
  | moves {after : RuntimeGate} {answers : List GateAnswer} {phase : SwitchRuntimePhase}
      (hmoves : Moves gate event phase) (hphase : after.phase = phase)
      (haccepting : after.accepting = gate.accepting) (hleases : after.leases = gate.leases)
      (hlease : .lease ∉ answers) (hdrained : .drained ∉ answers) (hreopened : .reopened ∉ answers) :
      Effect gate event (after, answers)
  | reopened {after : RuntimeGate} (hcontrol : gate.control = some .abort)
      (hphase : after.phase = .active) : Effect gate event (after, [.reopened])

/-- A step that leaves the flag, the phase and the leases alone. -/
theorem effect_of_same {after : RuntimeGate} {answers : List GateAnswer}
    (haccepting : after.accepting = gate.accepting) (hphase : after.phase = gate.phase)
    (hleases : after.leases = gate.leases)
    (hplain : .lease ∉ answers ∧ .drained ∉ answers ∧ .reopened ∉ answers) :
    Effect gate event (after, answers) :=
  .quiet haccepting hphase (Nat.le_of_eq hleases) hplain.1 hplain.2.1 hplain.2.2

theorem proceed_effect (gate : RuntimeGate) (index : Nat) :
    Effect gate (.proceed index) (gate.proceed index) := by
  unfold RuntimeGate.proceed
  split
  · exact effect_of_same rfl rfl rfl (by decide)
  · exact effect_of_same rfl rfl rfl (by decide)
  · split
    · rename_i hopen
      exact .lease hopen rfl rfl
    · exact effect_of_same rfl rfl rfl (by decide)
  · exact effect_of_same rfl rfl rfl (by decide)

theorem dropLease_effect (gate : RuntimeGate) : Effect gate .dropLease (gate.dropLease, []) := by
  unfold RuntimeGate.dropLease
  split
  · exact effect_of_same rfl rfl rfl (by decide)
  · exact .quiet rfl rfl (Nat.sub_le gate.leases 1) (by decide) (by decide) (by decide)

theorem beginSwitch_effect (gate : RuntimeGate) : Effect gate .beginSwitch gate.beginSwitch := by
  unfold RuntimeGate.beginSwitch
  split
  · exact effect_of_same rfl rfl rfl (by decide)
  · split
    · exact effect_of_same rfl rfl rfl (by decide)
    · rename_i hactive
      exact .close (Decidable.not_not.mp hactive) rfl rfl rfl

theorem drain_effect (gate : RuntimeGate) (expired : Bool) :
    Effect gate (.drain expired) (gate.drain expired) := by
  unfold RuntimeGate.drain
  split
  · rename_i hcontrol
    split
    · exact .moves (.giveUp expired true hcontrol) rfl rfl rfl (by decide) (by decide) (by decide)
    · exact effect_of_same rfl rfl rfl (by decide)
  · rename_i hcontrol
    split
    · split
      · exact .moves (.giveUp expired false hcontrol) rfl rfl rfl (by decide) (by decide) (by decide)
      · exact effect_of_same rfl rfl rfl (by decide)
    · rename_i hempty
      exact .drained hcontrol (Int.not_lt.mp hempty) rfl rfl rfl
  · exact effect_of_same rfl rfl rfl (by decide)

theorem beginRequest_effect (gate : RuntimeGate) : Effect gate .beginRequest gate.beginRequest := by
  unfold RuntimeGate.beginRequest
  split
  · exact effect_of_same rfl rfl rfl (by decide)
  · split
    · rename_i hprepared
      exact .moves (.beginRequest hprepared) rfl rfl rfl (by decide) (by decide) (by decide)
    all_goals exact effect_of_same rfl rfl rfl (by decide)

theorem markRequest_effect (gate : RuntimeGate) {phase : SwitchRuntimePhase}
    (hphase : phase = .restartRequired ∨ phase = .failed) (event : GateEvent) :
    Effect gate event (gate.markRequest phase, []) := by
  unfold RuntimeGate.markRequest
  split
  · rename_i completed hcontrol
    exact .moves (.request event completed phase hcontrol hphase) rfl rfl rfl (by decide) (by decide)
      (by decide)
  · exact effect_of_same rfl rfl rfl (by decide)

theorem dropRequest_effect (gate : RuntimeGate) : Effect gate .dropRequest (gate.dropRequest, []) := by
  unfold RuntimeGate.dropRequest
  split
  · rename_i completed hcontrol
    split
    · exact .moves (.request .dropRequest completed .failed hcontrol (.inr rfl)) rfl rfl rfl (by decide)
        (by decide) (by decide)
    · exact effect_of_same rfl rfl rfl (by decide)
  · exact effect_of_same rfl rfl rfl (by decide)

theorem beginAbort_effect (gate : RuntimeGate) : Effect gate .beginAbort gate.beginAbort := by
  unfold RuntimeGate.beginAbort
  split
  · exact effect_of_same rfl rfl rfl (by decide)
  · split <;> exact effect_of_same rfl rfl rfl (by decide)

theorem step_effect (gate : RuntimeGate) (event : GateEvent) : Effect gate event (gate.step event) := by
  cases event with
  | enterStorage =>
      simp only [RuntimeGate.step, RuntimeGate.enterStorage]
      split <;> exact effect_of_same rfl rfl rfl (by decide)
  | proceed index => exact proceed_effect gate index
  | dropLease => exact dropLease_effect gate
  | beginSwitch => exact beginSwitch_effect gate
  | drain expired => exact drain_effect gate expired
  | wake timedOut =>
      simp only [RuntimeGate.step, RuntimeGate.wake]
      split <;> exact effect_of_same rfl rfl rfl (by decide)
  | prepareCommitted =>
      simp only [RuntimeGate.step, RuntimeGate.prepareCommitted]
      split
      · rename_i hpreparing
        exact .moves (.prepareCommitted hpreparing.2) rfl rfl rfl (by decide) (by decide) (by decide)
      · exact effect_of_same rfl rfl rfl (by decide)
  | prepareFailed =>
      simp only [RuntimeGate.step, RuntimeGate.prepareFailed]
      split
      · rename_i hpreparing
        exact .moves (.prepareFailed hpreparing.2) rfl rfl rfl (by decide) (by decide) (by decide)
      · exact effect_of_same rfl rfl rfl (by decide)
  | beginRequest => exact beginRequest_effect gate
  | markRestartRequired => exact markRequest_effect gate (.inl rfl) .markRestartRequired
  | markFailed => exact markRequest_effect gate (.inr rfl) .markFailed
  | dropRequest => exact dropRequest_effect gate
  | beginAbort => exact beginAbort_effect gate
  | activateAfterAbort =>
      simp only [RuntimeGate.step, RuntimeGate.activateAfterAbort]
      split
      · rename_i hcontrol
        exact .reopened hcontrol rfl
      · exact effect_of_same rfl rfl rfl (by decide)
  | failClosed =>
      simp only [RuntimeGate.step, RuntimeGate.failClosed]
      split
      · rename_i hcontrol
        exact .moves (.failClosed hcontrol) rfl rfl rfl (by decide) (by decide) (by decide)
      · exact effect_of_same rfl rfl rfl (by decide)
  | dropAbort =>
      simp only [RuntimeGate.step, RuntimeGate.dropAbort]
      split <;> exact effect_of_same rfl rfl rfl (by decide)

/-! ### A gate that is shut -/

/-- Nothing gets in, and nothing is inside. -/
structure Shut (gate : RuntimeGate) : Prop where
  accepting : gate.accepting = false
  leases : gate.leases = 0

/-- Only an abort opens a closed gate, and until then no lease is given. -/
theorem Shut.step (h : Shut gate) {event : GateEvent} (hreopened : .reopened ∉ (gate.step event).2) :
    Shut (gate.step event).1 := by
  have heffect := step_effect gate event
  revert hreopened heffect
  generalize gate.step event = outcome
  intro hreopened heffect
  cases heffect with
  | quiet haccepting _ hleases =>
      exact ⟨haccepting.trans h.accepting, Nat.le_zero.mp (h.leases ▸ hleases)⟩
  | lease hopen =>
      rw [h.accepting] at hopen
      cases hopen
  | close _ haccepting _ hleases => exact ⟨haccepting, hleases.trans h.leases⟩
  | drained _ _ haccepting _ hleases => exact ⟨haccepting.trans h.accepting, hleases.trans h.leases⟩
  | moves _ _ haccepting hleases => exact ⟨haccepting.trans h.accepting, hleases.trans h.leases⟩
  | reopened => exact absurd (List.mem_singleton_self _) hreopened

/-- `begin_switch` comes back when nothing is in flight behind the closed gate. -/
theorem Consistent.shut_of_drained (h : Consistent gate) {event : GateEvent}
    (hdrained : .drained ∈ (gate.step event).2) : Shut (gate.step event).1 := by
  have heffect := step_effect gate event
  revert hdrained heffect
  generalize gate.step event = outcome
  intro hdrained heffect
  cases heffect with
  | quiet _ _ _ _ hnone => exact absurd hdrained hnone
  | lease => simp at hdrained
  | close => simp at hdrained
  | drained hcontrol hempty haccepting _ hleases =>
      have hcount := h.inFlight
      refine ⟨haccepting.trans (h.shut_of_drain hcontrol), hleases.trans ?_⟩
      omega
  | moves _ _ _ _ _ hnone => exact absurd hdrained hnone
  | reopened => simp at hdrained

/-! ### A gate that is closed for good -/

/-- The phases that a process does not leave. -/
def Final (phase : SwitchRuntimePhase) : Prop := phase = .restartRequired ∨ phase = .failed

instance (phase : SwitchRuntimePhase) : Decidable (Final phase) :=
  inferInstanceAs (Decidable (phase = .restartRequired ∨ phase = .failed))

structure Gone (gate : RuntimeGate) : Prop where
  consistent : Consistent gate
  final : Final gate.phase
  accepting : gate.accepting = false

/-- In a final phase the lock is not held by a switch or an abort. -/
theorem Gone.ne_phase (h : Gone gate) {phase : SwitchRuntimePhase} (hphase : ¬ Final phase) :
    gate.phase ≠ phase :=
  fun heq => hphase (heq ▸ h.final)

theorem Gone.not_drain (h : Gone gate) (timedOut : Bool) : gate.control ≠ some (.drain timedOut) :=
  fun hcontrol => h.ne_phase (by decide) (h.consistent.drain timedOut hcontrol).1

theorem Gone.not_abort (h : Gone gate) : gate.control ≠ some .abort := by
  intro hcontrol
  rcases h.consistent.abort hcontrol with heq | heq | heq <;> exact h.ne_phase (by decide) heq

/-- No step leaves a final phase or gives a lease there. -/
theorem Gone.step (h : Gone gate) (event : GateEvent) :
    Gone (gate.step event).1 ∧ .lease ∉ (gate.step event).2 := by
  have hconsistent := h.consistent.step event
  have heffect := step_effect gate event
  revert hconsistent heffect
  generalize gate.step event = outcome
  intro hconsistent heffect
  cases heffect with
  | quiet haccepting hsame _ hlease =>
      refine ⟨⟨hconsistent, ?_, haccepting.trans h.accepting⟩, hlease⟩
      rw [hsame]
      exact h.final
  | lease hopen =>
      rw [h.accepting] at hopen
      cases hopen
  | close hactive => exact absurd hactive (h.ne_phase (by decide))
  | drained hcontrol => exact absurd hcontrol (h.not_drain false)
  | moves hmoves hphase haccepting _ hlease =>
      refine ⟨⟨hconsistent, ?_, haccepting.trans h.accepting⟩, hlease⟩
      rw [hphase]
      cases hmoves with
      | giveUp _ timedOut hcontrol => exact absurd hcontrol (h.not_drain timedOut)
      | prepareCommitted hpreparing => exact absurd hpreparing (h.ne_phase (by decide))
      | prepareFailed hpreparing => exact absurd hpreparing (h.ne_phase (by decide))
      | beginRequest hprepared => exact absurd hprepared (h.ne_phase (by decide))
      | request _ _ _ _ hmarked => exact hmarked
      | failClosed => exact .inr rfl
  | reopened hcontrol => exact absurd hcontrol h.not_abort

theorem Gone.no_lease (h : Gone gate) (future : List GateEvent) : .lease ∉ machine.trace gate future := by
  induction future generalizing gate with
  | nil => simp
  | cons event rest ih =>
      obtain ⟨hgone, hlease⟩ := h.step event
      rw [Machine.trace_cons, List.mem_append, not_or]
      exact ⟨hlease, ih hgone⟩

/-- `fail_closed` through the guard of an abort that was begun while the gate was active. -/
def FailsOpen (gate : RuntimeGate) (event : GateEvent) : Prop :=
  event = .failClosed ∧ gate.control = some .abort ∧ gate.phase = .active

instance (gate : RuntimeGate) (event : GateEvent) : Decidable (FailsOpen gate event) :=
  inferInstanceAs (Decidable (event = .failClosed ∧ gate.control = some .abort ∧ gate.phase = .active))

/-- In a final phase the gate is closed. -/
def Sealed (gate : RuntimeGate) : Prop := Final gate.phase → gate.accepting = false

/-- A final phase is reached through a closed gate, unless an active gate is failed. -/
theorem Sealed.step (h : Sealed gate) (hconsistent : Consistent gate) {event : GateEvent}
    (hevent : ¬ FailsOpen gate event) : Sealed (gate.step event).1 := by
  have heffect := step_effect gate event
  revert heffect
  generalize gate.step event = outcome
  intro heffect hfinal
  cases heffect with
  | quiet haccepting hsame =>
      rw [hsame] at hfinal
      exact haccepting.trans (h hfinal)
  | lease _ hsame hphase =>
      rw [hphase] at hfinal
      exact hsame.trans (h hfinal)
  | close _ haccepting => exact haccepting
  | drained hcontrol _ haccepting => exact haccepting.trans (hconsistent.shut_of_drain hcontrol)
  | moves hmoves hphase haccepting =>
      rw [hphase] at hfinal
      refine haccepting.trans ?_
      cases hmoves with
      | giveUp _ timedOut hcontrol => exact hconsistent.shut_of_drain hcontrol
      | prepareCommitted => exact absurd hfinal (by decide)
      | prepareFailed => exact absurd hfinal (by decide)
      | beginRequest => exact absurd hfinal (by decide)
      | request _ completed _ hcontrol => exact (hconsistent.request completed hcontrol).1
      | failClosed hcontrol =>
          have hactive : gate.phase ≠ .active := fun hactive => hevent ⟨rfl, hcontrol, hactive⟩
          apply hconsistent.closed hactive
          rcases hconsistent.abort hcontrol with heq | heq | heq <;> rw [heq] <;> decide
  | reopened _ hphase =>
      rw [hphase] at hfinal
      exact absurd hfinal (by decide)

/-! ### Whole runs -/

/-- What the gate promises of a run and of everything after it: behind a drained gate no lease is live until an abort reopens it, in a final phase no lease is given again, and the counter counts the leases and the calls between their checks. -/
structure Safe (events : List GateEvent) : Prop where
  drained : ∀ earlier later, machine.trace active events = earlier ++ .drained :: later →
    .reopened ∉ later → (machine.run active events).leases = 0
  final : ∀ before after, events = before ++ after → Final (machine.run active before).phase →
    ∀ future, .lease ∉ machine.trace (machine.run active before) future
  inFlight : (machine.run active events).inFlight =
    (machine.run active events).leases + counted (machine.run active events).entering

theorem consistent_run (events : List GateEvent) : Consistent (machine.run active events) :=
  machine.invariant (fun gate _ => Consistent gate) (fun _ _ event h => h.step event)
    consistent_active events

/-- What a drained gate keeps along a run, until it is reopened. -/
theorem shut_run (events : List GateEvent) :
    ∀ earlier later, machine.trace active events = earlier ++ .drained :: later →
      .reopened ∉ later → Shut (machine.run active events) := by
  have hinvariant := machine.invariant
    (fun gate past => Consistent gate ∧ ∀ earlier later, past = earlier ++ .drained :: later →
      .reopened ∉ later → Shut gate)
    (fun gate _ event hpast => by
      obtain ⟨hconsistent, hshut⟩ := hpast
      refine ⟨hconsistent.step event, fun earlier later hsplit hreopened => ?_⟩
      rcases append_split hsplit with ⟨between, rfl, hold⟩ | ⟨before, -, hnew⟩
      · rw [List.mem_append, not_or] at hreopened
        exact (hshut earlier between hold hreopened.1).step hreopened.2
      · apply hconsistent.shut_of_drained
        change GateAnswer.drained ∈ (machine.emit gate event)
        rw [hnew]
        simp)
    ⟨consistent_active, fun earlier later hsplit => by simp at hsplit⟩ events
  exact hinvariant.2

/-- An open gate gives a lease to the next call that comes. -/
theorem lease_of_open (h : gate.accepting = true) :
    .lease ∈ machine.trace gate
      [.enterStorage, .proceed gate.entering.length, .proceed gate.entering.length] := by
  have hplace : ∀ entry : Entry, (gate.entering ++ [entry]).eraseIdx gate.entering.length =
      gate.entering := by
    intro entry
    rw [List.eraseIdx_append_of_length_le (Nat.le_refl _)]
    simp
  simp [machine, RuntimeGate.step, RuntimeGate.enterStorage, RuntimeGate.proceed, h, hplace]

/-- A gate that was failed while it was active still gives leases. -/
theorem failsOpen_lease (h : Consistent gate) {event : GateEvent} (hevent : FailsOpen gate event) :
    Final (machine.step gate event).phase ∧
      ∃ future, .lease ∈ machine.trace (machine.step gate event) future := by
  obtain ⟨rfl, hcontrol, hactive⟩ := hevent
  have hstep : machine.step gate .failClosed = { gate with phase := .failed, control := none } :=
    if_pos hcontrol
  rw [hstep]
  have hlease := @lease_of_open { gate with phase := .failed, control := none } (h.opened hactive)
  exact ⟨.inr rfl, _, hlease⟩

/-- The gate keeps its promise in exactly the runs in which `fail_closed` is never called through the guard of an abort that was begun while the gate was active. -/
theorem gate_safe_iff (events : List GateEvent) :
    Safe events ↔ machine.Along (fun gate event => ¬ FailsOpen gate event) active events := by
  constructor
  · intro hsafe
    rw [machine.along_iff]
    intro before event after hevents hfails
    obtain ⟨hfinal, future, hlease⟩ := failsOpen_lease (consistent_run before) hfails
    have hrun : machine.run active (before ++ [event]) =
        machine.step (machine.run active before) event := machine.run_append active before [event]
    have hnone := hsafe.final (before ++ [event]) after (by rw [hevents, List.append_assoc]; rfl)
    rw [hrun] at hnone
    exact hnone hfinal future hlease
  · intro halong
    refine ⟨fun earlier later hsplit hreopened => (shut_run events earlier later hsplit hreopened).leases,
      ?_, (consistent_run events).inFlight⟩
    rintro before after rfl hfinal future
    have hsealed : Consistent (machine.run active before) ∧ Sealed (machine.run active before) :=
      machine.invariant_along (fun gate event => ¬ FailsOpen gate event)
        (fun gate _ => Consistent gate ∧ Sealed gate)
        (fun gate past event h hevent => ⟨h.1.step event, h.2.step h.1 hevent⟩) before active []
        ⟨consistent_active, fun hfinal => absurd hfinal (by decide)⟩
        ((machine.along_append before active).mp halong).1
    have hgone : Gone (machine.run active before) := ⟨hsealed.1, hfinal, hsealed.2 hfinal⟩
    exact hgone.no_lease future

/-- An abort of an active gate that is failed leaves the gate open in its last phase. -/
theorem gate_fails_open : ¬ ∀ events, Safe events := by
  intro hclaim
  have hnone := (hclaim [.beginAbort, .failClosed]).final [.beginAbort, .failClosed] [] rfl
    (by decide) [.enterStorage, .proceed 0, .proceed 0]
  revert hnone
  decide

end RuntimeGate

end ShishiTodo.Accounts
