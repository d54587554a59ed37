import ShishiTodo.Server.Outcome
import ShishiTodo.Lib.Span

/-!
# Every operation takes effect once

The receipts, the device watermarks, the account sequences and the entity tables move together. `LoopHistory` says what one batch loop has done since its transaction locked its rows, `History` what a whole run has done, and the results about runs are read off `History`.
-/

namespace ShishiTodo

open Lib

/-! ### Reading a run -/

/-- The iterations that processed an operation of the device. -/
def processedBy (steps : List OpStep) (deviceId : Uuid) : List OpStep :=
  steps.filter fun step => step.batch.auth.deviceId == deviceId && step.processed

/-- The log rows an account has ever been given. -/
def givenTo (steps : List OpStep) (userId : Uuid) : List ChangeRow :=
  (steps.flatMap OpStep.logged).filter fun row => row.userId == userId

/-- The entity tables go from the first to the last through the iterations alone. -/
def Follows : Entities → List OpStep → Entities → Prop
  | first, [], last => first = last
  | first, step :: rest, last =>
      step.before.db.entities = first ∧ Follows step.after.db.entities rest last

/-- What is true of each iteration by itself: it leaves a trace only by processing its operation, and a rejection leaves none. -/
structure StepSound (step : OpStep) : Prop where
  effective_processed : step.Effective → step.processed = true
  rejected_unchanged : ∀ ack, step.ack = some ack → ack.status = .rejected →
    step.after.db.entities = step.before.db.entities ∧
      step.after.db.changeLog = step.before.db.changeLog
  logged_le_one : step.logged.length ≤ 1
  advances : step.processed = true →
    step.batch.lastClientSeq < step.mutation.clientSeq ∧
      step.before.expectedClientSeq = step.mutation.clientSeq ∧
      step.after.expectedClientSeq = step.mutation.clientSeq + 1

theorem follows_append {first middle last : Entities} {left right : List OpStep}
    (hleft : Follows first left middle) (hright : Follows middle right last) :
    Follows first (left ++ right) last := by
  induction left generalizing first with
  | nil =>
      cases hleft
      exact hright
  | cons step rest ih => exact ⟨hleft.1, ih hleft.2⟩

/-- What follows a part of the iterations starts where that part ended. -/
theorem Follows.of_append {first middle last : Entities} {left right : List OpStep}
    (h : Follows first (left ++ right) last) (hleft : Follows first left middle) :
    Follows middle right last := by
  induction left generalizing first with
  | nil =>
      cases hleft
      exact h
  | cons step rest ih => exact ih h.2 hleft.2

theorem Follows.exists_middle {first last : Entities} {left right : List OpStep}
    (h : Follows first (left ++ right) last) : ∃ middle, Follows first left middle := by
  induction left generalizing first with
  | nil => exact ⟨first, rfl⟩
  | cons step rest ih =>
      obtain ⟨middle, hmiddle⟩ := ih h.2
      exact ⟨middle, h.1, hmiddle⟩

/-- What every iteration preserves of the tables holds at the end. -/
theorem Follows.preserves {first last : Entities} {steps : List OpStep} (h : Follows first steps last)
    (holds : Entities → Prop) (hstep : ∀ step ∈ steps, holds step.before.db.entities →
      holds step.after.db.entities) (hfirst : holds first) : holds last := by
  induction steps generalizing first with
  | nil =>
      cases h
      exact hfirst
  | cons step rest ih =>
      obtain ⟨rfl, hrest⟩ := h
      exact ih hrest (fun other hother => hstep other (List.mem_cons_of_mem step hother))
        (hstep step List.mem_cons_self hfirst)

theorem processedBy_append (left right : List OpStep) (deviceId : Uuid) :
    processedBy (left ++ right) deviceId = processedBy left deviceId ++ processedBy right deviceId :=
  List.filter_append ..

theorem givenTo_append (left right : List OpStep) (userId : Uuid) :
    givenTo (left ++ right) userId = givenTo left userId ++ givenTo right userId := by
  simp [givenTo]

/-! ### One iteration -/

section Iteration

variable {env : Env} {batch : Batch} {state next : LoopState} {mutation : Mutation}

/-- The record of an iteration. -/
def iteration (batch : Batch) (mutation : Mutation) (state next : LoopState) : OpStep :=
  { batch := batch, mutation := mutation, before := state, after := next }

theorem iteration_sound (h : OpOutcome env batch state mutation next) :
    StepSound (iteration batch mutation state next) := by
  cases h with
  | known receipt hreceipt hsame =>
      have hunprocessed : (iteration batch mutation state
          { state with acks := state.acks ++ [receiptAck receipt] }).processed = false := by
        simp [OpStep.processed, iteration]
      exact ⟨fun h => absurd h (by simp [OpStep.Effective, iteration]),
        fun _ _ _ => ⟨rfl, rfl⟩, by simp [OpStep.logged, iteration],
        fun h => by simp [hunprocessed] at h⟩
  | old hreceipt hseq =>
      have hunprocessed : (iteration batch mutation state
          { state with acks := state.acks ++ [oldAck mutation] }).processed = false := by
        simp [OpStep.processed, iteration]
      exact ⟨fun h => absurd h (by simp [OpStep.Effective, iteration]),
        fun _ _ _ => ⟨rfl, rfl⟩, by simp [OpStep.logged, iteration],
        fun h => by simp [hunprocessed] at h⟩
  | applied patch entities hfresh happly =>
      refine ⟨fun _ => ?_, fun ack hack hrejected => ?_, ?_, fun _ => ?_⟩
      · simp [OpStep.processed, iteration, appliedState, hfresh.noReceiptYet]
      · simp only [OpStep.ack, iteration, appliedState, List.getLast?_concat,
          Option.some.injEq] at hack
        subst hack
        cases hrejected
      · simp [OpStep.logged, iteration, appliedState]
      · exact ⟨hfresh.aboveWatermark, hfresh.expected.symm, by
          simp [iteration, appliedState, hfresh.expected]⟩
  | rejected errorCode hfresh =>
      refine ⟨fun h => absurd h (by simp [OpStep.Effective, iteration, rejectedState]),
        fun _ _ _ => ⟨rfl, rfl⟩, by simp [OpStep.logged, iteration, rejectedState], fun _ => ?_⟩
      exact ⟨hfresh.aboveWatermark, hfresh.expected.symm, by
        simp [iteration, rejectedState, hfresh.expected]⟩

end Iteration

/-! ### One batch loop -/

/-- The loop rule: what every iteration preserves holds when the loop ends. -/
theorem processOps_invariant {env : Env} {batch : Batch} (inv : LoopState → List OpStep → Prop)
    (hstep : ∀ state past mutation next, inv state past → OpOutcome env batch state mutation next →
      inv next (past ++ [iteration batch mutation state next])) :
    ∀ (ops : List Mutation) (state final : LoopState) (past : List OpStep),
      processOps env batch ops state = .ok final → inv state past →
      inv final (past ++ opSteps env batch ops state)
  | [], state, final, past, hloop, hinv => by
      have hfinal := Except.ok.inj hloop
      subst hfinal
      simpa [opSteps] using hinv
  | mutation :: rest, state, final, past, hloop, hinv => by
      simp only [processOps, bind_eq_ok_iff] at hloop
      obtain ⟨next, hnext, hrest⟩ := hloop
      have hinv' := hstep state past mutation next hinv (processOp_outcome hnext)
      have hfinal := processOps_invariant inv hstep rest next final _ hrest hinv'
      simpa [opSteps, hnext, iteration] using hfinal

/-- What a batch loop has done so far, from the state it started in. -/
structure LoopHistory (batch : Batch) (start state : LoopState) (steps : List OpStep) : Prop where
  users : state.db.users = start.db.users
  syncStates : state.db.syncStates = start.db.syncStates
  devices : state.db.devices = start.db.devices
  batches : ∀ step ∈ steps, step.batch = batch
  sound : ∀ step ∈ steps, StepSound step
  expected_le : start.expectedClientSeq ≤ state.expectedClientSeq
  processed : (steps.filter OpStep.processed).map (·.mutation.clientSeq) =
    Int.range start.expectedClientSeq state.expectedClientSeq
  sequence_le : start.nextServerSeq ≤ state.nextServerSeq
  sequence : (steps.flatMap OpStep.logged).map ChangeRow.serverSeq =
    Int.range start.nextServerSeq state.nextServerSeq
  owner : ∀ row ∈ steps.flatMap OpStep.logged, row.userId = batch.auth.userId
  changeLog : state.db.changeLog = start.db.changeLog ++ steps.flatMap OpStep.logged
  receipts : ∀ opId receipt, state.db.opReceipts.lookup opId = some receipt →
    start.db.opReceipts.lookup opId = some receipt ∨
      (receipt.opId = opId ∧ receipt.userId = batch.auth.userId ∧
        receipt.deviceId = batch.auth.deviceId ∧ receipt.clientSeq < state.expectedClientSeq)
  /-- An answer other than the two that process is about an old operation. -/
  answered : ∀ step ∈ steps, step.processed = false →
    step.mutation.clientSeq ≤ batch.lastClientSeq ∨ ∃ receipt,
      batch.receiptByOp step.mutation.opId = some receipt ∧
        receipt.deviceId = batch.auth.deviceId ∧ receipt.clientSeq = step.mutation.clientSeq
  follows : Follows start.db.entities steps state.db.entities

theorem LoopHistory.start (batch : Batch) (start : LoopState) : LoopHistory batch start start [] where
  users := rfl
  syncStates := rfl
  devices := rfl
  batches := by simp
  sound := by simp
  expected_le := le_rfl
  processed := by simp [range_self]
  sequence_le := le_rfl
  sequence := by simp [range_self]
  owner := by simp
  changeLog := by simp
  receipts _ _ h := .inl h
  answered := by simp
  follows := rfl

/-- An iteration that only answers leaves the history as it is. -/
theorem LoopHistory.answer {batch : Batch} {start state : LoopState} {steps : List OpStep}
    (h : LoopHistory batch start state steps) {mutation : Mutation} {ack : Ack}
    (hsound : StepSound
      (iteration batch mutation state { state with acks := state.acks ++ [ack] }))
    (hold : mutation.clientSeq ≤ batch.lastClientSeq ∨ ∃ receipt,
      batch.receiptByOp mutation.opId = some receipt ∧
        receipt.deviceId = batch.auth.deviceId ∧ receipt.clientSeq = mutation.clientSeq) :
    LoopHistory batch start { state with acks := state.acks ++ [ack] }
      (steps ++ [iteration batch mutation state { state with acks := state.acks ++ [ack] }]) where
  users := h.users
  syncStates := h.syncStates
  devices := h.devices
  batches := by
    intro step hstep
    rcases List.mem_append.mp hstep with hold | hnew
    · exact h.batches step hold
    · rw [List.mem_singleton.mp hnew]
      rfl
  sound := by
    intro step hstep
    rcases List.mem_append.mp hstep with hold | hnew
    · exact h.sound step hold
    · rw [List.mem_singleton.mp hnew]
      exact hsound
  expected_le := h.expected_le
  processed := by
    simpa [OpStep.processed, iteration] using h.processed
  sequence_le := h.sequence_le
  sequence := by
    simpa [OpStep.logged, iteration] using h.sequence
  owner := by
    simpa [OpStep.logged, iteration] using h.owner
  changeLog := by
    simpa [OpStep.logged, iteration] using h.changeLog
  receipts := h.receipts
  answered := by
    intro step hstep
    rcases List.mem_append.mp hstep with hmem | hnew
    · exact h.answered step hmem
    · rw [List.mem_singleton.mp hnew]
      exact fun _ => hold
  follows := follows_append h.follows ⟨rfl, rfl⟩

/-- An iteration that decides an operation extends the history by its receipt and by the rows it logged. -/
theorem LoopHistory.decide {batch : Batch} {start state next : LoopState} {steps : List OpStep}
    (h : LoopHistory batch start state steps) {mutation : Mutation} (receipt : ReceiptRow)
    (rows : List ChangeRow)
    (hfresh : Fresh batch state mutation)
    (hsound : StepSound (iteration batch mutation state next))
    (husers : next.db.users = state.db.users)
    (hstates : next.db.syncStates = state.db.syncStates)
    (hdevices : next.db.devices = state.db.devices)
    (hexpected : next.expectedClientSeq = state.expectedClientSeq + 1)
    (hlog : next.db.changeLog = state.db.changeLog ++ rows)
    (hrows : rows.map ChangeRow.serverSeq = Int.range state.nextServerSeq next.nextServerSeq)
    (hnext : state.nextServerSeq ≤ next.nextServerSeq)
    (howner : ∀ row ∈ rows, row.userId = batch.auth.userId)
    (hreceipts : next.db.opReceipts = state.db.opReceipts.insert mutation.opId receipt)
    (hreceipt : receipt.opId = mutation.opId ∧ receipt.userId = batch.auth.userId ∧
      receipt.deviceId = batch.auth.deviceId ∧ receipt.clientSeq = mutation.clientSeq) :
    LoopHistory batch start next (steps ++ [iteration batch mutation state next]) := by
  have hprocessed : (iteration batch mutation state next).processed = true := by
    simp [OpStep.processed, iteration, hfresh.noReceiptYet, hreceipts]
  have hlogged : (iteration batch mutation state next).logged = rows := by
    simp [OpStep.logged, iteration, hlog]
  refine {
    users := husers.trans h.users
    syncStates := hstates.trans h.syncStates
    devices := hdevices.trans h.devices
    batches := ?_
    sound := ?_
    expected_le := by have := h.expected_le; omega
    processed := ?_
    sequence_le := h.sequence_le.trans hnext
    sequence := ?_
    owner := ?_
    changeLog := ?_
    receipts := ?_
    answered := ?_
    follows := follows_append h.follows ⟨rfl, rfl⟩ }
  · intro step hstep
    rcases List.mem_append.mp hstep with hold | hnew
    · exact h.batches step hold
    · rw [List.mem_singleton.mp hnew]
      rfl
  · intro step hstep
    rcases List.mem_append.mp hstep with hold | hnew
    · exact h.sound step hold
    · rw [List.mem_singleton.mp hnew]
      exact hsound
  · have hfilter : [iteration batch mutation state next].filter OpStep.processed =
        [iteration batch mutation state next] := by
      rw [List.filter_cons_of_pos hprocessed, List.filter_nil]
    have hseq : (iteration batch mutation state next).mutation.clientSeq =
        state.expectedClientSeq := hfresh.expected
    rw [List.filter_append, List.map_append, h.processed, hexpected, range_succ h.expected_le,
      hfilter, List.map_singleton, hseq]
  · rw [List.flatMap_append, List.map_append, h.sequence, ← range_append h.sequence_le hnext]
    simp [hlogged, hrows]
  · intro row hrow
    simp only [List.flatMap_append, List.flatMap_singleton, List.mem_append, hlogged] at hrow
    exact hrow.elim (h.owner row) (howner row)
  · rw [hlog, h.changeLog]
    simp [hlogged]
  · intro opId found hfound
    rw [hreceipts, Table.lookup_insert_eq_ite] at hfound
    by_cases hop : opId = mutation.opId
    · rw [if_pos hop, Option.some.injEq] at hfound
      subst hfound
      have hseq := hfresh.expected
      exact .inr ⟨hreceipt.1.trans hop.symm, hreceipt.2.1, hreceipt.2.2.1, by
        rw [hreceipt.2.2.2, hexpected]; omega⟩
    · rw [if_neg hop] at hfound
      rcases h.receipts opId found hfound with hold | ⟨hid, huser, hdevice, hseq⟩
      · exact .inl hold
      · exact .inr ⟨hid, huser, hdevice, by omega⟩
  · intro step hstep hunprocessed
    rcases List.mem_append.mp hstep with hmem | hnew
    · exact h.answered step hmem hunprocessed
    · rw [List.mem_singleton.mp hnew, hprocessed] at hunprocessed
      cases hunprocessed

theorem LoopHistory.step {env : Env} {batch : Batch} {start state next : LoopState}
    {steps : List OpStep} {mutation : Mutation} (h : LoopHistory batch start state steps)
    (houtcome : OpOutcome env batch state mutation next) :
    LoopHistory batch start next (steps ++ [iteration batch mutation state next]) := by
  have hsound := iteration_sound houtcome
  cases houtcome with
  | known receipt hreceipt hsame =>
      exact h.answer hsound (.inr ⟨receipt, hreceipt, hsame.2⟩)
  | old hreceipt hseq => exact h.answer hsound (.inl hseq)
  | applied patch entities hfresh happly =>
      refine h.decide (appliedReceipt batch state mutation)
        [changeOf batch state mutation patch] hfresh hsound rfl rfl rfl rfl rfl ?_ ?_ ?_ rfl
        ⟨rfl, rfl, rfl, rfl⟩
      · change _ = Int.range state.nextServerSeq (state.nextServerSeq + 1)
        rw [range_succ le_rfl, range_self]
        rfl
      · change state.nextServerSeq ≤ state.nextServerSeq + 1
        omega
      · intro row hrow
        rw [List.mem_singleton.mp hrow]
        rfl
  | rejected errorCode hfresh =>
      refine h.decide (rejectedReceipt batch mutation errorCode) [] hfresh hsound rfl rfl rfl rfl (List.append_nil _).symm ?_ le_rfl (by simp) rfl ⟨rfl, rfl, rfl, rfl⟩
      exact (range_self _).symm

theorem loopHistory_of_processOps {env : Env} {batch : Batch} {start final : LoopState}
    {ops : List Mutation} (hloop : processOps env batch ops start = .ok final) :
    LoopHistory batch start final (opSteps env batch ops start) := by
  have hinv := processOps_invariant (LoopHistory batch start)
    (fun state past mutation next h (houtcome : OpOutcome env batch state mutation next) =>
      h.step houtcome) ops start final [] hloop
    (LoopHistory.start batch start)
  simpa using hinv

/-! ### A whole run -/

/-- What a run has done so far, from an empty database. -/
structure History (db : Db) (past : List OpStep) : Prop where
  sound : ∀ step ∈ past, StepSound step
  /-- Each device processed the operations 1, 2, … up to its watermark. -/
  watermark : ∀ deviceId device, db.devices.lookup deviceId = some device →
    0 ≤ device.lastClientSeq ∧ (processedBy past deviceId).map (·.mutation.clientSeq) =
      Int.range 1 (device.lastClientSeq + 1)
  /-- Whoever sent an operation is registered, and the operation is at or below its watermark. -/
  registered : ∀ step ∈ past, ∃ device,
    db.devices.lookup step.batch.auth.deviceId = some device ∧
      step.mutation.clientSeq ≤ device.lastClientSeq
  /-- Each account was given the sequences from 1 up to its next one. -/
  sequence : ∀ userId, 1 ≤ (db.syncState userId).nextServerSeq ∧
    (givenTo past userId).map ChangeRow.serverSeq = Int.range 1 (db.syncState userId).nextServerSeq
  receipts : ∀ opId receipt, db.opReceipts.lookup opId = some receipt →
    receipt.opId = opId ∧ ∃ device, db.devices.lookup receipt.deviceId = some device ∧
      receipt.clientSeq ≤ device.lastClientSeq
  /-- The log holds nothing that was not given. -/
  retained : ∀ row ∈ db.changeLog, row ∈ past.flatMap OpStep.logged
  follows : Follows Entities.empty past db.entities

theorem History.empty : History Db.empty [] where
  sound := by simp
  watermark := by simp [Db.empty]
  registered := by simp
  sequence userId := by simp [Db.syncState, Db.empty, SyncState.default, givenTo, range_self]
  receipts := by simp [Db.empty]
  retained := by simp [Db.empty]
  follows := rfl

/-- A transaction that writes no entity and logs nothing keeps the history when every device keeps its watermark, every account its sequence, and no receipt or log row appears. -/
theorem History.frame {db next : Db} {past : List OpStep} (h : History db past)
    (hdevices : ∀ deviceId device, db.devices.lookup deviceId = some device →
      ∃ device', next.devices.lookup deviceId = some device' ∧
        device'.lastClientSeq = device.lastClientSeq)
    (hnew : ∀ deviceId device', next.devices.lookup deviceId = some device' →
      (∃ device, db.devices.lookup deviceId = some device ∧
        device'.lastClientSeq = device.lastClientSeq) ∨
      (db.devices.lookup deviceId = none ∧ device'.lastClientSeq = 0))
    (hsequence : ∀ userId,
      (next.syncState userId).nextServerSeq = (db.syncState userId).nextServerSeq)
    (hreceipts : ∀ opId receipt, next.opReceipts.lookup opId = some receipt →
      db.opReceipts.lookup opId = some receipt)
    (hlog : ∀ row ∈ next.changeLog, row ∈ db.changeLog)
    (hentities : next.entities = db.entities) : History next past where
  sound := h.sound
  watermark deviceId device' hlookup := by
    rcases hnew deviceId device' hlookup with ⟨device, hdevice, hlast⟩ | ⟨hnone, hlast⟩
    · rw [hlast]
      exact h.watermark deviceId device hdevice
    · have hidle : processedBy past deviceId = [] := by
        refine List.filter_eq_nil_iff.mpr fun step hstep hby => ?_
        obtain ⟨device, hdevice, -⟩ := h.registered step hstep
        simp only [Bool.and_eq_true, beq_iff_eq] at hby
        rw [hby.1, hnone] at hdevice
        cases hdevice
      rw [hlast, hidle]
      exact ⟨le_rfl, (range_self 1).symm⟩
  registered step hstep := by
    obtain ⟨device, hdevice, hle⟩ := h.registered step hstep
    obtain ⟨device', hdevice', hlast⟩ := hdevices _ device hdevice
    exact ⟨device', hdevice', hlast ▸ hle⟩
  sequence userId := by
    rw [hsequence userId]
    exact h.sequence userId
  receipts opId receipt hlookup := by
    obtain ⟨hid, device, hdevice, hle⟩ := h.receipts opId receipt (hreceipts opId receipt hlookup)
    obtain ⟨device', hdevice', hlast⟩ := hdevices _ device hdevice
    exact ⟨hid, device', hdevice', hlast ▸ hle⟩
  retained row hrow := h.retained row (hlog row hrow)
  follows := by
    rw [hentities]
    exact h.follows

/-! ### The retention jobs and the devices -/

theorem raiseMinAvailable_nextServerSeq (db : Db) (userId other : Uuid) :
    ((db.raiseMinAvailable userId).syncState other).nextServerSeq =
      (db.syncState other).nextServerSeq := by
  rw [Db.raiseMinAvailable, syncState_insert]
  by_cases h : other = userId <;> simp [h]

theorem foldl_raiseMinAvailable (userIds : List Uuid) (db : Db) :
    let raised := userIds.foldl Db.raiseMinAvailable db
    raised.devices = db.devices ∧ raised.users = db.users ∧ raised.entities = db.entities ∧
      raised.opReceipts = db.opReceipts ∧ raised.changeLog = db.changeLog ∧
      ∀ other, (raised.syncState other).nextServerSeq = (db.syncState other).nextServerSeq := by
  induction userIds generalizing db with
  | nil => exact ⟨rfl, rfl, rfl, rfl, rfl, fun _ => rfl⟩
  | cons userId rest ih =>
      obtain ⟨hdevices, husers, hentities, hreceipts, hlog, hnext⟩ := ih (db.raiseMinAvailable userId)
      exact ⟨hdevices, husers, hentities, hreceipts, hlog, fun other =>
        (hnext other).trans (raiseMinAvailable_nextServerSeq db userId other)⟩

theorem History.pruneChangeLog {db : Db} {past : List OpStep} (h : History db past)
    (cutoff : Instant) (batchSize : Nat) : History (db.pruneChangeLog cutoff batchSize) past := by
  obtain ⟨hdevices, -, hentities, hreceipts, hlog, hnext⟩ := foldl_raiseMinAvailable
    ((db.pruneSelection cutoff batchSize).map ChangeRow.userId).dedup
    { db with changeLog :=
        db.changeLog.filter fun row => !(db.pruneSelection cutoff batchSize).contains row }
  refine h.frame ?_ ?_ hnext ?_ ?_ hentities
  · intro deviceId device hdevice
    exact ⟨device, by rw [Db.pruneChangeLog, hdevices]; exact hdevice, rfl⟩
  · intro deviceId device hdevice
    rw [Db.pruneChangeLog, hdevices] at hdevice
    exact .inl ⟨device, hdevice, rfl⟩
  · intro opId receipt hreceipt
    rw [Db.pruneChangeLog, hreceipts] at hreceipt
    exact hreceipt
  · intro row hrow
    rw [Db.pruneChangeLog, hlog] at hrow
    exact (List.mem_filter.mp hrow).1

theorem History.cleanupReceipts {db : Db} {past : List OpStep} (h : History db past)
    (cutoff : Instant) (chosen : ReceiptRow → Bool) :
    History (db.cleanupReceipts cutoff chosen) past :=
  h.frame (fun _ device hdevice => ⟨device, hdevice, rfl⟩)
    (fun _ device hdevice => .inl ⟨device, hdevice, rfl⟩) (fun _ => rfl)
    (fun _ _ hreceipt => Table.lookup_of_lookup_select hreceipt) (fun _ hrow => hrow) rfl

/-- A device row is written with the watermark it had, or registered with watermark zero. -/
theorem History.writeDevice {db : Db} {past : List OpStep} (h : History db past)
    {deviceId : Uuid} {written : DeviceRow}
    (hwritten : (∃ device, db.devices.lookup deviceId = some device ∧
        written.lastClientSeq = device.lastClientSeq) ∨
      (db.devices.lookup deviceId = none ∧ written.lastClientSeq = 0)) :
    History { db with devices := db.devices.insert deviceId written } past := by
  refine h.frame ?_ ?_ (fun _ => rfl) (fun _ _ hreceipt => hreceipt) (fun _ hrow => hrow) rfl
  · intro other device hdevice
    rw [Table.lookup_insert_eq_ite]
    by_cases hother : other = deviceId
    · subst hother
      rcases hwritten with ⟨device', hdevice', hlast⟩ | ⟨hnone, -⟩
      · rw [hdevice] at hdevice'
        cases hdevice'
        exact ⟨written, if_pos rfl, hlast⟩
      · rw [hdevice] at hnone
        cases hnone
    · exact ⟨device, by rw [if_neg hother]; exact hdevice, rfl⟩
  · intro other device' hdevice'
    rw [Table.lookup_insert_eq_ite] at hdevice'
    by_cases hother : other = deviceId
    · rw [if_pos hother, Option.some.injEq] at hdevice'
      subst hdevice' hother
      exact hwritten
    · rw [if_neg hother] at hdevice'
      exact .inl ⟨device', hdevice', rfl⟩

theorem History.signUp {db : Db} {past : List OpStep} (h : History db past) (userId : Uuid) :
    History (db.signUp userId) past := by
  unfold Db.signUp
  split
  · exact h
  · exact h.frame (fun _ device hdevice => ⟨device, hdevice, rfl⟩)
      (fun _ device hdevice => .inl ⟨device, hdevice, rfl⟩) (fun _ => rfl)
      (fun _ _ hreceipt => hreceipt) (fun _ hrow => hrow) rfl

theorem History.signIn {db : Db} {past : List OpStep} (h : History db past) (auth : AuthUser) :
    History (db.signIn auth) past := by
  unfold Db.signIn
  split
  · exact h
  · split
    · exact h
    · split
      · rename_i hnone
        exact h.writeDevice (.inr ⟨hnone, rfl⟩)
      · rename_i device hdevice
        split
        · exact h
        · exact h.writeDevice (.inl ⟨device, hdevice, rfl⟩)

theorem History.revokeDevice {db : Db} {past : List OpStep} (h : History db past)
    (auth : AuthUser) (now : Instant) : History (db.revokeDevice auth now) past := by
  unfold Db.revokeDevice
  split
  · exact h
  · rename_i device hdevice
    split
    · exact h
    · exact h.writeDevice (.inl ⟨device, hdevice, rfl⟩)

/-! ### A request -/

namespace Committed

variable {env : Env} {clock : Clock} {auth : AuthUser} {body : SyncRequest} {db : Db}
  (committed : Committed env clock auth body db)

/-- The iterations of the request. -/
def steps : List OpStep := opSteps env committed.batch body.ops committed.start

theorem loopHistory :
    LoopHistory committed.batch committed.start committed.final committed.steps :=
  loopHistory_of_processOps committed.loop_eq_ok

theorem requestSteps_eq (h : sync env clock auth body db =
    .ok (committed.response, committed.result)) :
    requestSteps env clock auth body db = committed.steps := by
  have hdevice := committed.hdevice
  simp only [requestSteps, h, hdevice]
  rfl

theorem device_lookup : db.devices.lookup auth.deviceId = some committed.device :=
  (selectDevice_eq_ok committed.hdevice).1

theorem device_owner : committed.device.userId = auth.userId :=
  (selectDevice_eq_ok committed.hdevice).2.1

theorem result_devices (deviceId : Uuid) :
    committed.result.devices.lookup deviceId =
      if deviceId = auth.deviceId then
        some { committed.device with lastClientSeq := committed.final.expectedClientSeq - 1 }
      else db.devices.lookup deviceId := by
  have hdevices : committed.final.db.devices = db.devices := committed.loopHistory.devices
  have hexpected : committed.device.lastClientSeq + 1 ≤ committed.final.expectedClientSeq :=
    committed.loopHistory.expected_le
  have hresult : committed.result.devices = (committed.final.db.advanceDevice auth.deviceId
      committed.device (committed.final.expectedClientSeq - 1)).devices := by
    unfold result Db.advanceSyncState
    split <;> rfl
  rw [hresult, Db.advanceDevice]
  split
  · rw [Table.lookup_insert_eq_ite, hdevices]
  · have hsame : committed.final.expectedClientSeq - 1 = committed.device.lastClientSeq := by omega
    rw [hdevices, hsame]
    by_cases hid : deviceId = auth.deviceId
    · rw [if_pos hid, hid, committed.device_lookup]
    · rw [if_neg hid]

theorem result_syncState (userId : Uuid) :
    committed.result.syncState userId =
      if userId = auth.userId then
        { db.syncState auth.userId with nextServerSeq := committed.final.nextServerSeq }
      else db.syncState userId := by
  have hstates : committed.final.db.syncStates = committed.locked.syncStates :=
    committed.loopHistory.syncStates
  have hadvanced : ∀ other, (committed.final.db.advanceDevice auth.deviceId committed.device
      (committed.final.expectedClientSeq - 1)).syncState other = db.syncState other := by
    intro other
    have hsame : (committed.final.db.advanceDevice auth.deviceId committed.device
        (committed.final.expectedClientSeq - 1)).syncStates = committed.locked.syncStates := by
      unfold Db.advanceDevice
      split <;> exact hstates
    rw [Db.syncState, hsame]
    exact syncState_ensureSyncState db auth.userId other
  have hlocked : committed.syncState = db.syncState auth.userId :=
    syncState_ensureSyncState db auth.userId auth.userId
  unfold result Db.advanceSyncState
  split
  · rw [syncState_insert, hlocked, hadvanced]
  · rename_i hsame
    rw [hlocked, not_not] at hsame
    rw [hadvanced, hsame]
    by_cases hid : userId = auth.userId
    · rw [if_pos hid, hid]
    · rw [if_neg hid]

theorem result_entities : committed.result.entities = committed.final.db.entities := by
  unfold result Db.advanceSyncState Db.advanceDevice
  split <;> split <;> rfl

theorem result_opReceipts : committed.result.opReceipts = committed.final.db.opReceipts := by
  unfold result Db.advanceSyncState Db.advanceDevice
  split <;> split <;> rfl

theorem result_changeLog : committed.result.changeLog =
    db.changeLog ++ committed.steps.flatMap OpStep.logged := by
  have hlog : committed.final.db.changeLog =
      db.changeLog ++ committed.steps.flatMap OpStep.logged := committed.loopHistory.changeLog
  rw [← hlog]
  unfold result Db.advanceSyncState Db.advanceDevice
  split <;> split <;> rfl

end Committed

theorem History.request {env : Env} {clock : Clock} {auth : AuthUser} {body : SyncRequest} {db : Db}
    {past : List OpStep} (h : History db past) (committed : Committed env clock auth body db) :
    History committed.result (past ++ committed.steps) := by
  have hloop := committed.loopHistory
  have hexpected : committed.device.lastClientSeq + 1 ≤ committed.final.expectedClientSeq :=
    hloop.expected_le
  have hdevices := committed.result_devices
  have hauth : ∀ step ∈ committed.steps, step.batch = committed.batch := hloop.batches
  refine {
    sound := ?_
    watermark := ?_
    registered := ?_
    sequence := ?_
    receipts := ?_
    retained := ?_
    follows := ?_ }
  · intro step hstep
    exact (List.mem_append.mp hstep).elim (h.sound step) (hloop.sound step)
  · intro deviceId device hdevice
    rw [hdevices deviceId] at hdevice
    rw [processedBy_append, List.map_append]
    by_cases hid : deviceId = auth.deviceId
    · rw [if_pos hid, Option.some.injEq] at hdevice
      obtain ⟨hpos, hpast⟩ := h.watermark auth.deviceId committed.device committed.device_lookup
      have hnew : processedBy committed.steps auth.deviceId =
          committed.steps.filter OpStep.processed := by
        refine List.filter_congr fun step hstep => ?_
        rw [hauth step hstep]
        simp [Committed.batch, batchOf]
      subst hdevice hid
      refine ⟨by change 0 ≤ committed.final.expectedClientSeq - 1; omega, ?_⟩
      rw [hpast, hnew, hloop.processed]
      change Int.range 1 (committed.device.lastClientSeq + 1) ++
        Int.range (committed.device.lastClientSeq + 1) committed.final.expectedClientSeq =
        Int.range 1 (committed.final.expectedClientSeq - 1 + 1)
      rw [range_append (by omega) hexpected, Int.sub_add_cancel]
    · rw [if_neg hid] at hdevice
      have hnone : processedBy committed.steps deviceId = [] := by
        refine List.filter_eq_nil_iff.mpr fun step hstep hby => ?_
        rw [hauth step hstep] at hby
        simp only [Bool.and_eq_true, beq_iff_eq] at hby
        exact hid hby.1.symm
      rw [hnone, List.map_nil, List.append_nil]
      exact h.watermark deviceId device hdevice
  · intro step hstep
    rcases List.mem_append.mp hstep with hold | hnew
    · obtain ⟨device, hdevice, hle⟩ := h.registered step hold
      rw [hdevices]
      by_cases hid : step.batch.auth.deviceId = auth.deviceId
      · rw [if_pos hid]
        rw [hid, committed.device_lookup, Option.some.injEq] at hdevice
        subst hdevice
        exact ⟨_, rfl, by
          change _ ≤ committed.final.expectedClientSeq - 1
          omega⟩
      · rw [if_neg hid]
        exact ⟨device, hdevice, hle⟩
    · refine ⟨{ committed.device with
          lastClientSeq := committed.final.expectedClientSeq - 1 }, ?_, ?_⟩
      · rw [hdevices, hauth step hnew]
        exact if_pos rfl
      · change _ ≤ committed.final.expectedClientSeq - 1
        by_cases hprocessed : step.processed = true
        · have hmem : step.mutation.clientSeq ∈
              Int.range committed.start.expectedClientSeq committed.final.expectedClientSeq := by
            rw [← hloop.processed]
            exact List.mem_map_of_mem (List.mem_filter.mpr ⟨hnew, hprocessed⟩)
          have := (Int.mem_range_iff.mp hmem).2
          omega
        · rcases hloop.answered step hnew (by simpa using hprocessed) with
            hle | ⟨receipt, hreceipt, hdevice, hseq⟩
          · have : step.mutation.clientSeq ≤ committed.device.lastClientSeq := hle
            omega
          · obtain ⟨-, device, hlookup, hle⟩ := h.receipts _ receipt hreceipt
            rw [hdevice] at hlookup
            have hsame : device = committed.device :=
              Option.some.inj (hlookup.symm.trans committed.device_lookup)
            rw [hsame, hseq] at hle
            omega
  · intro userId
    have hlogged : givenTo committed.steps userId =
        if userId = auth.userId then committed.steps.flatMap OpStep.logged else [] := by
      by_cases hid : userId = auth.userId
      · rw [if_pos hid]
        refine List.filter_eq_self.mpr fun row hrow => ?_
        rw [hid]
        exact beq_iff_eq.mpr (hloop.owner row hrow)
      · rw [if_neg hid]
        refine List.filter_eq_nil_iff.mpr fun row hrow hby => hid ?_
        rw [← beq_iff_eq.mp hby]
        exact hloop.owner row hrow
    have hstart : committed.start.nextServerSeq = (db.syncState auth.userId).nextServerSeq :=
      congrArg SyncState.nextServerSeq (syncState_ensureSyncState db auth.userId auth.userId)
    obtain ⟨hpos, hpast⟩ := h.sequence userId
    rw [givenTo_append, List.map_append, hpast, hlogged, committed.result_syncState]
    by_cases hid : userId = auth.userId
    · subst hid
      have hle := hloop.sequence_le
      have hsequence := hloop.sequence
      rw [hstart] at hle hsequence
      rw [if_pos rfl, if_pos rfl, hsequence]
      exact ⟨hpos.trans hle, range_append hpos hle⟩
    · rw [if_neg hid, if_neg hid, List.map_nil, List.append_nil]
      exact ⟨hpos, rfl⟩
  · intro opId receipt hreceipt
    rw [committed.result_opReceipts] at hreceipt
    rcases hloop.receipts opId receipt hreceipt with hold | ⟨hopId, -, hdevice, hseq⟩
    · obtain ⟨hopId, device, hlookup, hle⟩ := h.receipts opId receipt hold
      rw [hdevices]
      refine ⟨hopId, ?_⟩
      by_cases hid : receipt.deviceId = auth.deviceId
      · rw [if_pos hid]
        rw [hid, committed.device_lookup, Option.some.injEq] at hlookup
        subst hlookup
        exact ⟨_, rfl, by
          change _ ≤ committed.final.expectedClientSeq - 1
          omega⟩
      · rw [if_neg hid]
        exact ⟨device, hlookup, hle⟩
    · refine ⟨hopId, { committed.device with
          lastClientSeq := committed.final.expectedClientSeq - 1 }, ?_, ?_⟩
      · rw [hdevices, hdevice]
        exact if_pos rfl
      · change _ ≤ committed.final.expectedClientSeq - 1
        omega
  · intro row hrow
    rw [committed.result_changeLog] at hrow
    rw [List.flatMap_append]
    exact (List.mem_append.mp hrow).elim
      (fun hold => List.mem_append_left _ (h.retained row hold)) (List.mem_append_right _)
  · rw [committed.result_entities]
    exact follows_append h.follows hloop.follows

theorem History.step {env : Env} {db : Db} {past : List OpStep} (h : History db past)
    (event : ServerEvent) :
    History ((server env).step db event) (past ++ (server env).emit db event) := by
  cases event with
  | signUp userId => simpa [server, serverStep, serverEmit] using h.signUp userId
  | signIn auth => simpa [server, serverStep, serverEmit] using h.signIn auth
  | revokeDevice auth now => simpa [server, serverStep, serverEmit] using h.revokeDevice auth now
  | cleanupReceipts cutoff chosen =>
      simpa [server, serverStep, serverEmit] using h.cleanupReceipts cutoff chosen
  | pruneChangeLog cutoff batchSize =>
      simpa [server, serverStep, serverEmit] using h.pruneChangeLog cutoff batchSize
  | request clock auth body =>
      change History (serveSync env clock auth body db).2
        (past ++ requestSteps env clock auth body db)
      cases hsync : sync env clock auth body db with
      | error error => simpa [serveSync, requestSteps, hsync] using h
      | ok answer =>
          obtain ⟨committed, hnext, hresponse⟩ := sync_eq_ok hsync
          have hok : sync env clock auth body db =
              .ok (committed.response, committed.result) := by
            rw [hsync, ← hnext, ← hresponse]
          rw [committed.requestSteps_eq hok, serveSync, hok]
          exact h.request committed

theorem history_run (env : Env) (events : List ServerEvent) :
    History ((server env).run Db.empty events) ((server env).trace Db.empty events) :=
  (server env).invariant History (fun _ _ event h => h.step event) History.empty events

/-! ### Exactly once -/

/-- What a run promises about its operations. -/
structure ExactlyOnce (env : Env) (db : Db) (past : List OpStep) : Prop where
  /-- The entity tables changed in the iterations only. -/
  onlyOperations : Follows Entities.empty past db.entities
  /-- No operation took effect in two iterations, and none appended two rows. -/
  effectOnce : past.Pairwise fun earlier later =>
    earlier.Effective → later.Effective → earlier.key ≠ later.key
  appendOnce : ∀ step ∈ past, step.logged.length ≤ 1
  /-- A device's watermark counts its processed operations, and they came in order. -/
  watermark : ∀ deviceId device, db.devices.lookup deviceId = some device →
    device.lastClientSeq = (processedBy past deviceId).length ∧
      (processedBy past deviceId).map (·.mutation.clientSeq) =
        Int.range 1 (device.lastClientSeq + 1)
  /-- The sequences an account was ever given are those below its next one, each once and in order. -/
  sequence : ∀ userId, (givenTo past userId).map ChangeRow.serverSeq =
    Int.range 1 (db.syncState userId).nextServerSeq
  retained : ∀ row ∈ db.changeLog, row ∈ past.flatMap OpStep.logged
  /-- A rejection changes no entity and logs nothing. When it is decided its operation lies above the watermark, and from then on at or below it. -/
  rejection : ∀ step ∈ past, ∀ ack, step.ack = some ack → ack.status = .rejected →
    step.after.db.entities = step.before.db.entities ∧
      step.after.db.changeLog = step.before.db.changeLog ∧
      (step.processed = true → step.batch.lastClientSeq < step.mutation.clientSeq) ∧
      ∃ device, db.devices.lookup step.batch.auth.deviceId = some device ∧
        step.mutation.clientSeq ≤ device.lastClientSeq
  /-- A request that answers an error leaves the database as it was. -/
  errorUnchanged : ∀ clock auth body error,
    (serveSync env clock auth body db).1 = .error error → (serveSync env clock auth body db).2 = db

theorem History.effectOnce {db : Db} {past : List OpStep} (h : History db past) :
    past.Pairwise fun earlier later =>
      earlier.Effective → later.Effective → earlier.key ≠ later.key := by
  rw [List.pairwise_iff_forall_sublist]
  intro earlier later hsub hearlier hlater hkey
  have hmem₁ : earlier ∈ past := hsub.subset (by simp)
  have hmem₂ : later ∈ past := hsub.subset (by simp)
  obtain ⟨device, hdevice, -⟩ := h.registered earlier hmem₁
  obtain ⟨-, hseqs⟩ := h.watermark _ device hdevice
  have hdeviceEq : later.batch.auth.deviceId = earlier.batch.auth.deviceId :=
    (congrArg Prod.fst hkey).symm
  -- Both iterations processed an operation of the device, so their sequences are in strict order.
  have hprocessed := (hsub.filter fun step =>
    step.batch.auth.deviceId == earlier.batch.auth.deviceId && step.processed).map
      (·.mutation.clientSeq)
  rw [show (past.filter fun step =>
    step.batch.auth.deviceId == earlier.batch.auth.deviceId && step.processed) =
      processedBy past earlier.batch.auth.deviceId from rfl, hseqs] at hprocessed
  have hpair := (pairwise_lt_range 1 (device.lastClientSeq + 1)).sublist hprocessed
  have hboth : [earlier, later].filter (fun step =>
      step.batch.auth.deviceId == earlier.batch.auth.deviceId && step.processed) =
      [earlier, later] := by
    refine List.filter_eq_self.mpr fun step hstep => ?_
    rcases List.mem_pair.mp hstep with rfl | rfl
    · simp [(h.sound step hmem₁).effective_processed hearlier]
    · simp [hdeviceEq, (h.sound step hmem₂).effective_processed hlater]
  rw [hboth] at hpair
  have hlt : earlier.mutation.clientSeq < later.mutation.clientSeq := by
    simpa using hpair
  have heq : earlier.mutation.clientSeq = later.mutation.clientSeq := congrArg Prod.snd hkey
  omega

theorem serveSync_error {env : Env} {clock : Clock} {auth : AuthUser} {body : SyncRequest} {db : Db}
    {error : AppError} (h : (serveSync env clock auth body db).1 = .error error) :
    (serveSync env clock auth body db).2 = db := by
  unfold serveSync at h ⊢
  split
  · rename_i hsync
    simp [hsync] at h
  · rfl

end ShishiTodo
