import ShishiTodo.Server.Runs

/-!
# What one iteration of the batch loop can do

The loop body is taken apart once. An iteration repeats the answer of a stored receipt, recognises an operation at or below the watermark, applies the operation, or records its rejection; the rest of the development reads the loop only through `OpOutcome` and `sync_eq_ok`.
-/

namespace ShishiTodo

open Lib

/-! ### Insertions -/

theorem insertChange_eq_ok {db next : Db} {row : ChangeRow} (h : db.insertChange row = .ok next) :
    next = { db with changeLog := db.changeLog ++ [row] } := by
  rw [Db.insertChange, ite_error_eq_ok_iff] at h
  exact (Except.ok.inj h.2).symm

theorem insertReceipt_eq_ok {db next : Db} {row : ReceiptRow} (h : db.insertReceipt row = .ok next) :
    next = { db with opReceipts := db.opReceipts.insert row.opId row } ∧
      db.opReceipts.lookup row.opId = none ∧
      ∃ device, db.devices.lookup row.deviceId = some device ∧ device.userId = row.userId := by
  rw [Db.insertReceipt, ite_error_eq_ok_iff] at h
  obtain ⟨hfree, hnext⟩ := h
  simp only [not_or, Option.isSome_iff_ne_none, not_not] at hfree
  obtain ⟨-, hlookup, -, hdevice⟩ := hfree
  refine ⟨(Except.ok.inj hnext).symm, hlookup, ?_⟩
  cases hfound : db.devices.lookup row.deviceId with
  | none => simp [hfound] at hdevice
  | some device =>
      refine ⟨device, rfl, ?_⟩
      by_contra hne
      simp [hfound, Option.filter, hne] at hdevice

/-! ### Locked rows -/

theorem selectDevice_eq_ok {db : Db} {auth : AuthUser} {device : DeviceRow}
    (h : selectDevice db auth = .ok device) :
    db.devices.lookup auth.deviceId = some device ∧ device.userId = auth.userId ∧
      device.revokedAt = none := by
  unfold selectDevice at h
  split at h
  · exact absurd h (by simp)
  · rename_i found hfound
    obtain ⟨hlookup, howner⟩ := Option.filter_eq_some_iff.mp hfound
    rw [ite_error_eq_ok_iff] at h
    obtain ⟨hrevoked, hdevice⟩ := h
    cases hdevice
    exact ⟨hlookup, by simpa using howner, by simpa using hrevoked⟩

@[simp] theorem syncState_ensureSyncState (db : Db) (userId other : Uuid) :
    (db.ensureSyncState userId).syncState other = db.syncState other := by
  simp only [Db.syncState, Db.ensureSyncState, Table.lookup_insert_eq_ite]
  by_cases h : other = userId
  · rw [if_pos h, h]
    rfl
  · rw [if_neg h]

theorem syncState_insert (db : Db) (userId other : Uuid) (syncState : SyncState) :
    { db with syncStates := db.syncStates.insert userId syncState }.syncState other =
      if other = userId then syncState else db.syncState other := by
  simp only [Db.syncState, Table.lookup_insert_eq_ite]
  by_cases h : other = userId <;> simp [h]

/-! ### The loop body -/

/-- The state after an applied operation. -/
def appliedState (batch : Batch) (state : LoopState) (mutation : Mutation) (patch : Json)
    (entities : Entities) : LoopState where
  db := { state.db with
    entities := entities
    changeLog := state.db.changeLog ++ [changeOf batch state mutation patch]
    opReceipts := state.db.opReceipts.insert mutation.opId (appliedReceipt batch state mutation) }
  expectedClientSeq := state.expectedClientSeq + 1
  nextServerSeq := state.nextServerSeq + 1
  acks := state.acks ++ [{
    opId := mutation.opId
    serverSeq := some state.nextServerSeq
    status := .applied
    errorCode := none }]

/-- The state after a rejected operation. -/
def rejectedState (batch : Batch) (state : LoopState) (mutation : Mutation) (errorCode : String) :
    LoopState where
  db := { state.db with
    opReceipts :=
      state.db.opReceipts.insert mutation.opId (rejectedReceipt batch mutation errorCode) }
  expectedClientSeq := state.expectedClientSeq + 1
  nextServerSeq := state.nextServerSeq
  acks := state.acks ++ [{
    opId := mutation.opId
    serverSeq := none
    status := .rejected
    errorCode := some errorCode }]

/-- An operation the sequence checks let through: it has no receipt, and it is the next one of its device. -/
structure Fresh (batch : Batch) (state : LoopState) (mutation : Mutation) : Prop where
  noReceipt : batch.receiptByOp mutation.opId = none
  aboveWatermark : batch.lastClientSeq < mutation.clientSeq
  expected : mutation.clientSeq = state.expectedClientSeq
  noReceiptYet : state.db.opReceipts.lookup mutation.opId = none

inductive OpOutcome (env : Env) (batch : Batch) (state : LoopState) (mutation : Mutation) :
    LoopState → Prop
  | known (receipt : ReceiptRow) (hreceipt : batch.receiptByOp mutation.opId = some receipt)
      (hsame : receipt.userId = batch.auth.userId ∧ receipt.deviceId = batch.auth.deviceId ∧
        receipt.clientSeq = mutation.clientSeq) :
      OpOutcome env batch state mutation { state with acks := state.acks ++ [receiptAck receipt] }
  | old (hreceipt : batch.receiptByOp mutation.opId = none)
      (hseq : mutation.clientSeq ≤ batch.lastClientSeq) :
      OpOutcome env batch state mutation { state with acks := state.acks ++ [oldAck mutation] }
  | applied (patch : Json) (entities : Entities) (hfresh : Fresh batch state mutation)
      (happly : applyMutation env state.db.entities batch.auth.userId mutation state.nextServerSeq
        batch.now = .ok (patch, entities)) :
      OpOutcome env batch state mutation (appliedState batch state mutation patch entities)
  | rejected (errorCode : String) (hfresh : Fresh batch state mutation) :
      OpOutcome env batch state mutation (rejectedState batch state mutation errorCode)

theorem commitApplied_eq_ok {batch : Batch} {state next : LoopState} {mutation : Mutation}
    {patch : Json} {entities : Entities}
    (h : commitApplied batch state mutation patch entities = .ok next) :
    next = appliedState batch state mutation patch entities ∧
      state.db.opReceipts.lookup mutation.opId = none := by
  simp only [commitApplied, bind_eq_ok_iff] at h
  obtain ⟨db₁, hchange, db₂, hreceipt, hnext⟩ := h
  have hdb₁ := insertChange_eq_ok hchange
  subst hdb₁
  obtain ⟨hdb₂, hnone, -⟩ := insertReceipt_eq_ok hreceipt
  subst hdb₂
  exact ⟨(Except.ok.inj hnext).symm, hnone⟩

theorem commitRejected_eq_ok {batch : Batch} {state next : LoopState} {mutation : Mutation}
    {errorCode : String} (h : commitRejected batch state mutation errorCode = .ok next) :
    next = rejectedState batch state mutation errorCode ∧
      state.db.opReceipts.lookup mutation.opId = none := by
  simp only [commitRejected, bind_eq_ok_iff] at h
  obtain ⟨db, hreceipt, hnext⟩ := h
  obtain ⟨hdb, hnone, -⟩ := insertReceipt_eq_ok hreceipt
  subst hdb
  exact ⟨(Except.ok.inj hnext).symm, hnone⟩

theorem processOp_outcome {env : Env} {batch : Batch} {state next : LoopState} {mutation : Mutation}
    (h : processOp env batch state mutation = .ok next) : OpOutcome env batch state mutation next := by
  unfold processOp at h
  cases hreceipt : batch.receiptByOp mutation.opId with
  | some receipt =>
      simp only [hreceipt, ite_error_eq_ok_iff, not_or, not_not] at h
      obtain ⟨hsame, hnext⟩ := h
      rw [← Except.ok.inj hnext]
      exact .known receipt hreceipt hsame
  | none =>
      simp only [hreceipt] at h
      by_cases hseq : mutation.clientSeq ≤ batch.lastClientSeq
      · rw [if_pos hseq, ite_error_eq_ok_iff] at h
        rw [← Except.ok.inj h.2]
        exact .old hreceipt hseq
      · rw [if_neg hseq, ite_error_eq_ok_iff, ite_error_eq_ok_iff, not_not] at h
        obtain ⟨hexpected, -, hdecide⟩ := h
        have hfresh : state.db.opReceipts.lookup mutation.opId = none →
            Fresh batch state mutation := fun hnone =>
          ⟨hreceipt, by omega, hexpected, hnone⟩
        unfold decideOp at hdecide
        split at hdecide
        · rename_i patch entities happly
          obtain ⟨rfl, hnone⟩ := commitApplied_eq_ok hdecide
          exact .applied patch entities (hfresh hnone) happly
        · obtain ⟨rfl, hnone⟩ := commitRejected_eq_ok hdecide
          exact .rejected _ (hfresh hnone)
        · obtain ⟨rfl, hnone⟩ := commitRejected_eq_ok hdecide
          exact .rejected _ (hfresh hnone)
        · exact absurd hdecide (by simp)

/-! ### The iterations of a run -/

theorem opSteps_processOp {env : Env} {batch : Batch} {ops : List Mutation} {state : LoopState} :
    ∀ step ∈ opSteps env batch ops state,
      processOp env step.batch step.before step.mutation = .ok step.after := by
  induction ops generalizing state with
  | nil => simp [opSteps]
  | cons mutation rest ih =>
      intro step hstep
      unfold opSteps at hstep
      split at hstep
      · cases hstep
      · rename_i next hnext
        rcases List.mem_cons.mp hstep with rfl | hrest
        · exact hnext
        · exact ih step hrest

theorem mutation_mem_of_opSteps {env : Env} {batch : Batch} {ops : List Mutation} {state : LoopState} :
    ∀ step ∈ opSteps env batch ops state, step.mutation ∈ ops := by
  induction ops generalizing state with
  | nil => simp [opSteps]
  | cons mutation rest ih =>
      intro step hstep
      unfold opSteps at hstep
      split at hstep
      · cases hstep
      · rcases List.mem_cons.mp hstep with rfl | hrest
        · exact List.mem_cons_self
        · exact List.mem_cons_of_mem _ (ih step hrest)

/-- Every record of a run is an iteration that went through. -/
theorem trace_processOp {env : Env} (events : List ServerEvent) (db : Db) :
    ∀ step ∈ (server env).trace db events,
      processOp env step.batch step.before step.mutation = .ok step.after := by
  induction events generalizing db with
  | nil => simp
  | cons event rest ih =>
      intro step hstep
      rw [Machine.trace_cons, List.mem_append] at hstep
      rcases hstep with hemit | hrest
      · cases event with
        | request clock auth body =>
            change step ∈ requestSteps env clock auth body db at hemit
            unfold requestSteps at hemit
            split at hemit
            · cases hemit
            · simp only at hemit
              split at hemit
              · cases hemit
              · exact opSteps_processOp step hemit
        | _ => cases hemit
      · exact ih _ step hrest

theorem trace_outcome {env : Env} (events : List ServerEvent) (db : Db) :
    ∀ step ∈ (server env).trace db events,
      OpOutcome env step.batch step.before step.mutation step.after :=
  fun step hstep => processOp_outcome (trace_processOp events db step hstep)

/-! ### The whole request -/

/-- What a committed request went through: the checks before the loop, the loop, and the two counters written after it. -/
structure Committed (env : Env) (clock : Clock) (auth : AuthUser) (body : SyncRequest) (db : Db) where
  limit : Nat
  cursor : Int
  device : DeviceRow
  final : LoopState
  hsame : checkDevice auth body = .ok ()
  hlimit : readLimit body = .ok limit
  hbatch : validateBatch body.ops = .ok ()
  hcursor : readCursor body = .ok cursor
  huser : checkUser db auth.userId = .ok ()
  hcheck : checkCursor ((db.ensureSyncState auth.userId).syncState auth.userId) cursor = .ok ()
  hdevice : selectDevice (db.ensureSyncState auth.userId) auth = .ok device
  hloop : processOps env (batchOf auth clock.transaction (db.ensureSyncState auth.userId) device)
    body.ops (.start (db.ensureSyncState auth.userId) device
      ((db.ensureSyncState auth.userId).syncState auth.userId)) = .ok final

namespace Committed

variable {env : Env} {clock : Clock} {auth : AuthUser} {body : SyncRequest} {db : Db}
  (committed : Committed env clock auth body db)

/-- The database with the account's rows locked. -/
def locked (_ : Committed env clock auth body db) : Db := db.ensureSyncState auth.userId

def syncState : SyncState := committed.locked.syncState auth.userId

def batch : Batch := batchOf auth clock.transaction committed.locked committed.device

def start : LoopState := .start committed.locked committed.device committed.syncState

/-- The database the transaction leaves. -/
def result : Db :=
  (committed.final.db.advanceDevice auth.deviceId committed.device
    (committed.final.expectedClientSeq - 1)).advanceSyncState auth.userId committed.syncState
    committed.final.nextServerSeq

def response : SyncResponse :=
  syncPage committed.result auth.userId committed.cursor committed.limit committed.final.acks
    clock.answer

theorem loop_eq_ok :
    processOps env committed.batch body.ops committed.start = .ok committed.final :=
  committed.hloop

end Committed

theorem sync_eq_ok {env : Env} {clock : Clock} {auth : AuthUser} {body : SyncRequest} {db next : Db}
    {response : SyncResponse} (h : sync env clock auth body db = .ok (response, next)) :
    ∃ committed : Committed env clock auth body db,
      next = committed.result ∧ response = committed.response := by
  simp only [sync, bind_eq_ok_iff] at h
  obtain ⟨_, hsame, limit, hlimit, _, hbatch, cursor, hcursor, _, huser, _, hcheck, device, hdevice,
    final, hloop, hresult⟩ := h
  let committed : Committed env clock auth body db :=
    ⟨limit, cursor, device, final, hsame, hlimit, hbatch, hcursor, huser, hcheck, hdevice, hloop⟩
  have hpair := Except.ok.inj hresult
  exact ⟨committed, (congrArg Prod.snd hpair).symm, (congrArg Prod.fst hpair).symm⟩

end ShishiTodo
