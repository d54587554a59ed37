import ShishiTodo.Codecs
import ShishiTodo.Server.Tenants

/-!
# A request of one account

The whole transaction, between two databases that hold the same rows of its account: the locks, the batch loop and the page of the change log see only those. The ids of operations are the exception, since a receipt is found under its operation's id whoever sent it.
-/

namespace ShishiTodo

open Lib

/-- Both databases hold the same of the account. -/
structure SameFor (userId : Uuid) (left right : Db) : Prop where
  user : left.users.lookup userId = right.users.lookup userId
  syncState : left.syncState userId = right.syncState userId
  devices : SameOwned DeviceRow.userId userId left.devices right.devices
  entities : SameRows userId left.entities right.entities
  receipts : SameOwned ReceiptRow.userId userId left.opReceipts right.opReceipts
  changeLog : (left.changeLog.filter fun row => row.userId == userId) =
    right.changeLog.filter fun row => row.userId == userId

theorem SameFor.refl (userId : Uuid) (db : Db) : SameFor userId db db :=
  ⟨rfl, rfl, .refl _, .refl _ _, .refl _, rfl⟩

/-- Another account has sent an operation with this id. -/
def Db.OpIdTaken (db : Db) (userId : Uuid) (mutation : Mutation) : Prop :=
  ∃ receipt, db.opReceipts.lookup mutation.opId = some receipt ∧ receipt.userId ≠ userId

/-- Neither the operation nor the row it creates comes with an id of another account. -/
structure Db.Untaken (db : Db) (userId : Uuid) (mutation : Mutation) : Prop where
  opId : ¬ db.OpIdTaken userId mutation
  entityId : ¬ db.entities.IdTaken userId mutation

theorem Db.Untaken.receipt {db : Db} {userId : Uuid} {mutation : Mutation}
    (h : db.Untaken userId mutation) :
    Unclaimed ReceiptRow.userId db.opReceipts userId mutation.opId := by
  intro receipt hreceipt
  by_contra howner
  exact h.opId ⟨receipt, hreceipt, howner⟩

/-! ### Insertions -/

section writes

variable {left right : Db}

theorem insertChange_alike {row : ChangeRow} (h : SameFor row.userId left right) :
    Alike (fun leftNext rightNext => SameFor row.userId leftNext rightNext ∧
        leftNext.opReceipts = left.opReceipts ∧ rightNext.opReceipts = right.opReceipts)
      (left.insertChange row) (right.insertChange row) := by
  have hany : (left.changeLog.any fun old => old.userId == row.userId && old.serverSeq == row.serverSeq) =
      right.changeLog.any fun old => old.userId == row.userId && old.serverSeq == row.serverSeq := by
    rw [← List.any_filter, ← List.any_filter, h.changeLog]
  rw [Db.insertChange, Db.insertChange, hany]
  refine alike_ite_error fun _ => ⟨{ h with changeLog := ?_ }, rfl, rfl⟩
  show (left.changeLog ++ [row]).filter _ = (right.changeLog ++ [row]).filter _
  rw [List.filter_append, List.filter_append, h.changeLog]

theorem insertReceipt_alike {row : ReceiptRow} (h : SameFor row.userId left right)
    (hleft : Unclaimed ReceiptRow.userId left.opReceipts row.userId row.opId)
    (hright : Unclaimed ReceiptRow.userId right.opReceipts row.userId row.opId) :
    Alike (SameFor row.userId) (left.insertReceipt row) (right.insertReceipt row) := by
  have hany : (left.opReceipts.any fun _ old => old.userId == row.userId &&
      old.deviceId == row.deviceId && old.clientSeq == row.clientSeq) =
        right.opReceipts.any fun _ old => old.userId == row.userId &&
          old.deviceId == row.deviceId && old.clientSeq == row.clientSeq := by
    apply h.receipts.any
    intro key old htest
    simp only [Bool.and_eq_true, beq_iff_eq] at htest
    exact htest.1.1
  have hdevice : (left.devices.lookup row.deviceId).filter (fun device => device.userId == row.userId) =
      (right.devices.lookup row.deviceId).filter fun device => device.userId == row.userId :=
    h.devices row.deviceId
  rw [Db.insertReceipt, Db.insertReceipt, hany, hdevice, h.receipts.lookup_eq hleft hright]
  exact alike_ite_error fun _ => { h with receipts := h.receipts.insert row.opId row }

end writes

/-! ### The batch loop -/

/-- Two batches of one request, each over its own database. -/
structure SameBatch (left right : Batch) : Prop where
  auth : left.auth = right.auth
  now : left.now = right.now
  lastClientSeq : left.lastClientSeq = right.lastClientSeq
  receipts : SameOwned ReceiptRow.userId left.auth.userId left.receipts right.receipts
  leftKeyed : ∀ opId receipt, left.receipts.lookup opId = some receipt → receipt.opId = opId
  rightKeyed : ∀ opId receipt, right.receipts.lookup opId = some receipt → receipt.opId = opId

structure SameLoop (userId : Uuid) (left right : LoopState) : Prop where
  db : SameFor userId left.db right.db
  expectedClientSeq : left.expectedClientSeq = right.expectedClientSeq
  nextServerSeq : left.nextServerSeq = right.nextServerSeq
  acks : left.acks = right.acks

theorem receiptBySeq_eq_some {batch : Batch} {seq : Int} {receipt : ReceiptRow}
    (h : batch.receiptBySeq seq = some receipt) :
    (∃ opId, batch.receipts.lookup opId = some receipt) ∧ receipt.userId = batch.auth.userId ∧
      receipt.deviceId = batch.auth.deviceId ∧ receipt.clientSeq = seq := by
  have htest := List.find?_some h
  simp only [Bool.and_eq_true, beq_iff_eq] at htest
  exact ⟨Table.mem_values_iff.mp (List.mem_of_find?_eq_some h), htest.1.1, htest.1.2, htest.2⟩

theorem SameBatch.receiptBySeq_of_left {left right : Batch} (h : SameBatch left right) {seq : Int}
    (hleft : (left.receiptBySeq seq).isSome) : (right.receiptBySeq seq).isSome := by
  obtain ⟨receipt, hreceipt⟩ := Option.isSome_iff_exists.mp hleft
  obtain ⟨⟨opId, hlookup⟩, huser, hdevice, hseq⟩ := receiptBySeq_eq_some hreceipt
  rw [Batch.receiptBySeq, List.find?_isSome]
  refine ⟨receipt, Table.mem_values_iff.mpr ⟨opId, h.receipts.lookup hlookup huser⟩, ?_⟩
  simp [huser, hdevice, hseq, h.auth]

theorem SameBatch.symm {left right : Batch} (h : SameBatch left right) : SameBatch right left where
  auth := h.auth.symm
  now := h.now.symm
  lastClientSeq := h.lastClientSeq.symm
  receipts := h.auth ▸ h.receipts.symm
  leftKeyed := h.rightKeyed
  rightKeyed := h.leftKeyed

theorem SameBatch.isSome_receiptBySeq {left right : Batch} (h : SameBatch left right) (seq : Int) :
    (left.receiptBySeq seq).isSome = (right.receiptBySeq seq).isSome := by
  rw [Bool.eq_iff_iff]
  exact ⟨h.receiptBySeq_of_left, h.symm.receiptBySeq_of_left⟩

/-- A receipt that another operation left for the sequence is of another operation. -/
theorem any_receiptBySeq {batch : Batch} {opId : Uuid} {seq : Int}
    (hkeyed : ∀ opId receipt, batch.receipts.lookup opId = some receipt → receipt.opId = opId)
    (hnone : batch.receiptByOp opId = none) :
    ((batch.receiptBySeq seq).any fun receipt => receipt.opId != opId) =
      (batch.receiptBySeq seq).isSome := by
  cases hreceipt : batch.receiptBySeq seq with
  | none => rfl
  | some receipt =>
      obtain ⟨⟨other, hlookup⟩, -⟩ := receiptBySeq_eq_some hreceipt
      have hne : receipt.opId ≠ opId := by
        intro heq
        rw [← heq, hkeyed other receipt hlookup, Batch.receiptByOp, hlookup] at hnone
        cases hnone
      simpa using hne

section loop

variable {env : Env} {left right : Batch} {leftState rightState : LoopState} {mutation : Mutation}

theorem commitApplied_alike {patch : Json} {leftEntities rightEntities : Entities}
    (hbatch : SameBatch left right) (h : SameLoop left.auth.userId leftState rightState)
    (hentities : SameRows left.auth.userId leftEntities rightEntities)
    (hleft : leftState.db.Untaken left.auth.userId mutation)
    (hright : rightState.db.Untaken left.auth.userId mutation) :
    Alike (SameLoop left.auth.userId) (commitApplied left leftState mutation patch leftEntities)
      (commitApplied right rightState mutation patch rightEntities) := by
  have hchange : changeOf right rightState mutation patch = changeOf left leftState mutation patch := by
    simp only [changeOf, hbatch.auth, hbatch.now, h.nextServerSeq]
  have hreceipt : appliedReceipt right rightState mutation = appliedReceipt left leftState mutation := by
    simp only [appliedReceipt, hbatch.auth, hbatch.now, h.nextServerSeq]
  have hwritten : SameFor (changeOf left leftState mutation patch).userId
      { leftState.db with entities := leftEntities } { rightState.db with entities := rightEntities } :=
    { h.db with entities := hentities }
  unfold commitApplied
  simp only [hchange, hreceipt]
  refine Alike.bind (insertChange_alike hwritten) ?_
  rintro leftLogged rightLogged ⟨hlogged, hleftSame, hrightSame⟩
  refine Alike.bind (insertReceipt_alike hlogged ?_ ?_) ?_
  · rw [hleftSame]
    exact hleft.receipt
  · rw [hrightSame]
    exact hright.receipt
  · intro leftNext rightNext hnext
    refine ⟨hnext, ?_, ?_, ?_⟩
    · exact congrArg (· + 1) h.expectedClientSeq
    · exact congrArg (· + 1) h.nextServerSeq
    · simp only [h.acks, h.nextServerSeq]

theorem commitRejected_alike {errorCode : String} (hbatch : SameBatch left right)
    (h : SameLoop left.auth.userId leftState rightState)
    (hleft : leftState.db.Untaken left.auth.userId mutation)
    (hright : rightState.db.Untaken left.auth.userId mutation) :
    Alike (SameLoop left.auth.userId) (commitRejected left leftState mutation errorCode)
      (commitRejected right rightState mutation errorCode) := by
  have hreceipt : rejectedReceipt right mutation errorCode = rejectedReceipt left mutation errorCode := by
    simp only [rejectedReceipt, hbatch.auth, hbatch.now]
  have hsame : SameFor (rejectedReceipt left mutation errorCode).userId leftState.db rightState.db := h.db
  unfold commitRejected
  rw [hreceipt]
  refine Alike.bind (insertReceipt_alike hsame hleft.receipt hright.receipt) ?_
  intro leftNext rightNext hnext
  refine ⟨hnext, ?_, h.nextServerSeq, ?_⟩
  · exact congrArg (· + 1) h.expectedClientSeq
  · simp only [h.acks]

theorem decideOp_alike (hbatch : SameBatch left right)
    (h : SameLoop left.auth.userId leftState rightState)
    (hleft : leftState.db.Untaken left.auth.userId mutation)
    (hright : rightState.db.Untaken left.auth.userId mutation) :
    Alike (SameLoop left.auth.userId) (decideOp env left leftState mutation)
      (decideOp env right rightState mutation) := by
  have happly := applyMutation_alike env leftState.nextServerSeq left.now
    h.db.entities hleft.entityId hright.entityId
  unfold decideOp
  rw [← hbatch.auth, ← hbatch.now, ← h.nextServerSeq]
  cases hleftApply : applyMutation env leftState.db.entities left.auth.userId mutation
      leftState.nextServerSeq left.now with
  | ok applied =>
      cases hrightApply : applyMutation env rightState.db.entities left.auth.userId mutation
          leftState.nextServerSeq left.now with
      | error failure =>
          rw [hleftApply, hrightApply] at happly
          exact happly.elim
      | ok other =>
          rw [hleftApply, hrightApply] at happly
          obtain ⟨patch, leftEntities⟩ := applied
          obtain ⟨_, rightEntities⟩ := other
          obtain ⟨rfl, hentities⟩ := happly
          exact commitApplied_alike hbatch h hentities hleft hright
  | error failure =>
      cases hrightApply : applyMutation env rightState.db.entities left.auth.userId mutation
          leftState.nextServerSeq left.now with
      | ok other =>
          rw [hleftApply, hrightApply] at happly
          exact happly.elim
      | error other =>
          rw [hleftApply, hrightApply] at happly
          cases happly
          cases failure with
          | reject rejection => exact commitRejected_alike hbatch h hleft hright
          | database error =>
              cases error with
              | constraint => exact commitRejected_alike hbatch h hleft hright
              | other => exact rfl

theorem processOp_alike (hbatch : SameBatch left right)
    (h : SameLoop left.auth.userId leftState rightState)
    (hleft : leftState.db.Untaken left.auth.userId mutation)
    (hright : rightState.db.Untaken left.auth.userId mutation)
    (hleftReceipt : Unclaimed ReceiptRow.userId left.receipts left.auth.userId mutation.opId)
    (hrightReceipt : Unclaimed ReceiptRow.userId right.receipts left.auth.userId mutation.opId) :
    Alike (SameLoop left.auth.userId) (processOp env left leftState mutation)
      (processOp env right rightState mutation) := by
  have hbyOp : left.receiptByOp mutation.opId = right.receiptByOp mutation.opId :=
    hbatch.receipts.lookup_eq hleftReceipt hrightReceipt
  unfold processOp
  rw [← hbatch.auth, ← hbatch.lastClientSeq, ← h.expectedClientSeq, ← hbyOp]
  cases hreceipt : left.receiptByOp mutation.opId with
  | some receipt =>
      refine alike_ite_error fun _ => ⟨h.db, rfl, h.nextServerSeq, ?_⟩
      exact congrArg (· ++ [receiptAck receipt]) h.acks
  | none =>
      have hbySeq := hbatch.isSome_receiptBySeq mutation.clientSeq
      simp only [any_receiptBySeq hbatch.leftKeyed hreceipt,
        any_receiptBySeq hbatch.rightKeyed (hbyOp ▸ hreceipt), hbySeq]
      split
      · refine alike_ite_error fun _ => ⟨h.db, rfl, h.nextServerSeq, ?_⟩
        exact congrArg (· ++ [oldAck mutation]) h.acks
      · exact alike_ite_error fun _ => alike_ite_error fun _ => decideOp_alike hbatch h hleft hright

/-- An operation decided for the account takes no id away from its later ones. -/
theorem untaken_of_outcome {later : Mutation} {next : LoopState}
    (houtcome : OpOutcome env left leftState mutation next)
    (h : leftState.db.Untaken left.auth.userId later) : next.db.Untaken left.auth.userId later := by
  have hreceipts : ∀ receipt, receipt.userId = left.auth.userId →
      Unclaimed ReceiptRow.userId (leftState.db.opReceipts.insert mutation.opId receipt)
        left.auth.userId later.opId := fun receipt howner => h.receipt.insert howner
  cases houtcome with
  | known receipt => exact h
  | old => exact h
  | rejected errorCode =>
      refine ⟨?_, h.entityId⟩
      rintro ⟨found, hfound, howner⟩
      exact howner (hreceipts (rejectedReceipt left mutation errorCode) rfl found hfound)
  | applied patch entities _ happly =>
      refine ⟨?_, ?_⟩
      · rintro ⟨found, hfound, howner⟩
        exact howner (hreceipts (appliedReceipt left leftState mutation) rfl found hfound)
      · rintro ⟨hkind, status, hstatus, howner⟩
        have hwritten := applyMutation_written happly
        by_cases hkey : (later.entity, later.entityId) = (mutation.entity, mutation.entityId)
        · obtain ⟨written, hfound, hmine⟩ := hwritten.written
          rw [← hkey] at hfound
          rw [show (appliedState left leftState mutation patch entities).db.entities.status
            (later.entity, later.entityId) = some written from hfound] at hstatus
          cases hstatus
          exact howner hmine
        · exact h.entityId ⟨hkind, status, (hwritten.others _ hkey).symm.trans hstatus, howner⟩

theorem processOps_alike (hbatch : SameBatch left right) :
    ∀ {ops : List Mutation} {leftState rightState : LoopState},
      SameLoop left.auth.userId leftState rightState →
      (∀ op ∈ ops, leftState.db.Untaken left.auth.userId op) →
      (∀ op ∈ ops, rightState.db.Untaken left.auth.userId op) →
      (∀ op ∈ ops, Unclaimed ReceiptRow.userId left.receipts left.auth.userId op.opId) →
      (∀ op ∈ ops, Unclaimed ReceiptRow.userId right.receipts left.auth.userId op.opId) →
      Alike (SameLoop left.auth.userId) (processOps env left ops leftState)
        (processOps env right ops rightState)
  | [], _, _, h, _, _, _, _ => h
  | op :: rest, leftState, rightState, h, hleft, hright, hleftReceipts, hrightReceipts => by
      have hhead : op ∈ op :: rest := List.mem_cons_self
      have hop : Alike (SameLoop left.auth.userId) (processOp env left leftState op)
          (processOp env right rightState op) :=
        processOp_alike hbatch h (hleft op hhead) (hright op hhead) (hleftReceipts op hhead)
          (hrightReceipts op hhead)
      rw [processOps, processOps]
      cases hleftNext : processOp env left leftState op with
      | error error =>
          cases hrightNext : processOp env right rightState op with
          | error other =>
              rw [hleftNext, hrightNext] at hop
              exact hop
          | ok next =>
              rw [hleftNext, hrightNext] at hop
              exact hop.elim
      | ok leftNext =>
          cases hrightNext : processOp env right rightState op with
          | error other =>
              rw [hleftNext, hrightNext] at hop
              exact hop.elim
          | ok rightNext =>
              rw [hleftNext, hrightNext] at hop
              have hleftRest : ∀ later ∈ rest, leftNext.db.Untaken left.auth.userId later :=
                fun later hlater => untaken_of_outcome (processOp_outcome hleftNext)
                  (hleft later (List.mem_cons_of_mem op hlater))
              have hrightRest : ∀ later ∈ rest, rightNext.db.Untaken left.auth.userId later := by
                intro later hlater
                have hlater := hright later (List.mem_cons_of_mem op hlater)
                rw [hbatch.auth] at hlater ⊢
                exact untaken_of_outcome (processOp_outcome hrightNext) hlater
              exact processOps_alike hbatch hop hleftRest hrightRest
                (fun later hlater => hleftReceipts later (List.mem_cons_of_mem op hlater))
                (fun later hlater => hrightReceipts later (List.mem_cons_of_mem op hlater))

end loop

/-! ### The transaction -/

section transaction

variable {userId : Uuid} {left right : Db}

theorem SameFor.ensureSyncState (h : SameFor userId left right) :
    SameFor userId (left.ensureSyncState userId) (right.ensureSyncState userId) := by
  refine { h with syncState := ?_ }
  rw [syncState_ensureSyncState, syncState_ensureSyncState, h.syncState]

theorem selectDevice_congr {auth : AuthUser} (h : SameFor auth.userId left right) :
    selectDevice left auth = selectDevice right auth := by
  have hdevice : (left.devices.lookup auth.deviceId).filter (fun device => device.userId == auth.userId) =
      (right.devices.lookup auth.deviceId).filter fun device => device.userId == auth.userId :=
    h.devices auth.deviceId
  rw [selectDevice, selectDevice, hdevice]

theorem SameFor.advanceDevice (h : SameFor userId left right) (deviceId : Uuid) (device : DeviceRow)
    (lastClientSeq : Int) : SameFor userId (left.advanceDevice deviceId device lastClientSeq)
      (right.advanceDevice deviceId device lastClientSeq) := by
  unfold Db.advanceDevice
  split
  · exact { h with devices := h.devices.insert deviceId _ }
  · exact h

theorem SameFor.advanceSyncState (h : SameFor userId left right) (syncState : SyncState)
    (nextServerSeq : Int) : SameFor userId (left.advanceSyncState userId syncState nextServerSeq)
      (right.advanceSyncState userId syncState nextServerSeq) := by
  unfold Db.advanceSyncState
  split
  · refine { h with syncState := ?_ }
    rw [syncState_insert, syncState_insert, if_pos rfl, if_pos rfl]
  · exact h

theorem changesAfter_congr (h : SameFor userId left right) (cursor : Int) :
    left.changesAfter userId cursor = right.changesAfter userId cursor := by
  have hrows : ∀ db : Db, (db.changeLog.filter fun row => row.userId == userId && cursor < row.serverSeq) =
      (db.changeLog.filter fun row => row.userId == userId).filter fun row => cursor < row.serverSeq := by
    intro db
    rw [List.filter_filter]
    congr 1
    funext row
    exact Bool.and_comm _ _
  rw [Db.changesAfter, Db.changesAfter, hrows, hrows, h.changeLog]

theorem syncPage_congr (h : SameFor userId left right) (cursor : Int) (limit : Nat) (acks : List Ack)
    (answer : Instant) :
    syncPage left userId cursor limit acks answer = syncPage right userId cursor limit acks answer := by
  rw [syncPage, syncPage, changesAfter_congr h]

/-- Two databases with the same rows of the account answer its request alike, where no operation comes with a taken id. -/
theorem sync_alike {env : Env} {clock : Clock} {auth : AuthUser} {body : SyncRequest}
    (h : SameFor auth.userId left right)
    (hleftKeyed : ∀ opId receipt, left.opReceipts.lookup opId = some receipt → receipt.opId = opId)
    (hrightKeyed : ∀ opId receipt, right.opReceipts.lookup opId = some receipt → receipt.opId = opId)
    (hleft : ∀ op ∈ body.ops, left.Untaken auth.userId op)
    (hright : ∀ op ∈ body.ops, right.Untaken auth.userId op) :
    Alike (fun first second => first.1 = second.1 ∧ SameFor auth.userId first.2 second.2)
      (sync env clock auth body left) (sync env clock auth body right) := by
  have huser : checkUser left auth.userId = checkUser right auth.userId := by
    rw [checkUser, checkUser, h.user]
  have hlocked := h.ensureSyncState
  unfold sync
  rw [huser]
  refine Alike.bind_same _ fun _ => Alike.bind_same _ fun limit => Alike.bind_same _ fun _ =>
    Alike.bind_same _ fun cursor => Alike.bind_same _ fun _ => ?_
  simp only [hlocked.syncState, selectDevice_congr hlocked]
  refine Alike.bind_same _ fun _ => Alike.bind_same _ fun device => ?_
  have hbatch : SameBatch (batchOf auth clock.transaction (left.ensureSyncState auth.userId) device)
      (batchOf auth clock.transaction (right.ensureSyncState auth.userId) device) :=
    ⟨rfl, rfl, rfl, h.receipts, hleftKeyed, hrightKeyed⟩
  have hstart : SameLoop auth.userId
      (.start (left.ensureSyncState auth.userId) device
        ((right.ensureSyncState auth.userId).syncState auth.userId))
      (.start (right.ensureSyncState auth.userId) device
        ((right.ensureSyncState auth.userId).syncState auth.userId)) := ⟨hlocked, rfl, rfl, rfl⟩
  refine Alike.bind (processOps_alike hbatch hstart ?_ ?_ ?_ ?_) ?_
  · exact fun op hop => ⟨(hleft op hop).opId, (hleft op hop).entityId⟩
  · exact fun op hop => ⟨(hright op hop).opId, (hright op hop).entityId⟩
  · exact fun op hop => (hleft op hop).receipt
  · exact fun op hop => (hright op hop).receipt
  · intro leftFinal rightFinal hfinal
    have hresult : SameFor auth.userId
        ((leftFinal.db.advanceDevice auth.deviceId device (leftFinal.expectedClientSeq - 1)).advanceSyncState
          auth.userId ((right.ensureSyncState auth.userId).syncState auth.userId)
          leftFinal.nextServerSeq)
        ((rightFinal.db.advanceDevice auth.deviceId device
          (rightFinal.expectedClientSeq - 1)).advanceSyncState auth.userId
          ((right.ensureSyncState auth.userId).syncState auth.userId) rightFinal.nextServerSeq) := by
      rw [hfinal.expectedClientSeq, hfinal.nextServerSeq]
      exact (hfinal.db.advanceDevice _ _ _).advanceSyncState _ _
    refine ⟨?_, hresult⟩
    rw [hfinal.acks]
    exact syncPage_congr hresult _ _ _ _

end transaction

/-! ### The other accounts -/

/-- An iteration writes no row of another account. -/
theorem others_of_outcome {env : Env} {batch : Batch} {state next : LoopState} {mutation : Mutation}
    {other : Uuid} (hother : other ≠ batch.auth.userId) (h : OpOutcome env batch state mutation next) :
    SameRows other state.db.entities next.db.entities ∧
      SameOwned ReceiptRow.userId other state.db.opReceipts next.db.opReceipts := by
  have hreceipts : ∀ receipt, receipt.userId = batch.auth.userId → Fresh batch state mutation →
      SameOwned ReceiptRow.userId other state.db.opReceipts
        (state.db.opReceipts.insert mutation.opId receipt) := by
    intro receipt howner hfresh
    apply SameOwned.insert_other
    · exact fun heq => hother (heq.symm.trans howner)
    · intro old hold
      rw [hfresh.noReceiptYet] at hold
      cases hold
  cases h with
  | known receipt => exact ⟨.refl _ _, .refl _⟩
  | old => exact ⟨.refl _ _, .refl _⟩
  | rejected errorCode hfresh => exact ⟨.refl _ _, hreceipts _ rfl hfresh⟩
  | applied patch entities hfresh happly =>
      exact ⟨applyMutation_others hother happly, hreceipts _ rfl hfresh⟩

section committed

variable {env : Env} {clock : Clock} {auth : AuthUser} {body : SyncRequest} {db : Db}

theorem Committed.others (committed : Committed env clock auth body db) {other : Uuid}
    (hother : other ≠ auth.userId) : SameFor other db committed.result := by
  have hhistory := committed.loopHistory
  have hrows := processOps_invariant (fun state _ =>
      SameRows other db.entities state.db.entities ∧
        SameOwned ReceiptRow.userId other db.opReceipts state.db.opReceipts)
    (fun state _ mutation next hbefore houtcome => by
      obtain ⟨hentities, hreceipts⟩ := others_of_outcome hother houtcome
      refine ⟨⟨?_, ?_, ?_, ?_⟩, fun key => (hbefore.2 key).trans (hreceipts key)⟩
      · exact fun key => (hbefore.1.lists key).trans (hentities.lists key)
      · exact fun key => (hbefore.1.tasks key).trans (hentities.tasks key)
      · exact fun key => (hbefore.1.steps key).trans (hentities.steps key)
      · exact fun key => (hbefore.1.dayPlans key).trans (hentities.dayPlans key))
    body.ops committed.start committed.final [] committed.loop_eq_ok ⟨.refl _ _, .refl _⟩
  refine {
    user := ?_
    syncState := ?_
    devices := fun key => ?_
    entities := ?_
    receipts := ?_
    changeLog := ?_ }
  · have husers : committed.final.db.users = db.users := hhistory.users
    have hresult : committed.result.users = committed.final.db.users := by
      unfold Committed.result Db.advanceSyncState Db.advanceDevice
      split <;> split <;> rfl
    rw [hresult, husers]
  · rw [committed.result_syncState, if_neg hother]
  · rw [ownRow, ownRow, committed.result_devices]
    split
    · rename_i hkey
      subst hkey
      have hforeign : ¬ auth.userId = other := fun heq => hother heq.symm
      rw [committed.device_lookup]
      simp [Option.filter, committed.device_owner, hforeign]
    · rfl
  · rw [committed.result_entities]
    exact hrows.1
  · rw [committed.result_opReceipts]
    exact hrows.2
  · rw [committed.result_changeLog, List.filter_append]
    have hnone : (committed.steps.flatMap OpStep.logged).filter (fun row => row.userId == other) = [] := by
      rw [List.filter_eq_nil_iff]
      intro row hrow
      have howner : row.userId = auth.userId := hhistory.owner row hrow
      simpa [howner] using fun heq => hother heq.symm
    rw [hnone, List.append_nil]

/-- A request leaves the rows of every other account as they are. -/
theorem serveSync_others {other : Uuid} (hother : other ≠ auth.userId) :
    SameFor other db (serveSync env clock auth body db).2 := by
  unfold serveSync
  cases hsync : sync env clock auth body db with
  | error error => exact .refl _ _
  | ok answer =>
      obtain ⟨response, next⟩ := answer
      obtain ⟨committed, rfl, -⟩ := sync_eq_ok hsync
      exact committed.others hother

theorem receiptByOp_owner {batch : Batch} : ∀ {ops : List Mutation} {state final : LoopState},
    processOps env batch ops state = .ok final → ∀ op ∈ ops,
      ∀ receipt, batch.receiptByOp op.opId = some receipt → receipt.userId = batch.auth.userId
  | [], _, _, _, _, hop => (List.not_mem_nil hop).elim
  | first :: rest, state, final, h, op, hop => by
      rw [processOps] at h
      obtain ⟨next, hnext, hrest⟩ := bind_eq_ok_iff.mp h
      rcases List.mem_cons.mp hop with rfl | hmem
      · intro receipt hreceipt
        cases processOp_outcome hnext with
        | known found hfound hsame =>
            rw [hfound] at hreceipt
            cases hreceipt
            exact hsame.1
        | old hnone =>
            rw [hnone] at hreceipt
            cases hreceipt
        | rejected _ hfresh =>
            rw [hfresh.noReceipt] at hreceipt
            cases hreceipt
        | applied _ _ hfresh =>
            rw [hfresh.noReceipt] at hreceipt
            cases hreceipt
      · exact receiptByOp_owner hrest op hmem

/-- An operation with the id of another account's operation fails the whole request. -/
theorem sync_of_opIdTaken {op : Mutation} (hop : op ∈ body.ops) (h : db.OpIdTaken auth.userId op) :
    ∃ error, sync env clock auth body db = .error error := by
  cases hsync : sync env clock auth body db with
  | error error => exact ⟨error, rfl⟩
  | ok answer =>
      obtain ⟨committed, -, -⟩ := sync_eq_ok hsync
      obtain ⟨receipt, hreceipt, howner⟩ := h
      exact absurd (receiptByOp_owner committed.loop_eq_ok op hop receipt hreceipt) howner

end committed

/-- An operation that creates a row under a taken id is rejected for that, unless its own checks reject it. -/
theorem taken_rejected {env : Env} {batch : Batch} {state next : LoopState} {mutation : Mutation}
    (h : processOp env batch state mutation = .ok next)
    (hprocessed : (iteration batch mutation state next).processed = true)
    (htaken : state.db.entities.IdTaken batch.auth.userId mutation) :
    ∃ code, next = rejectedState batch state mutation code ∧
      (code = "CONSTRAINT_VIOLATION" ∨ ∃ rejection : MutationError, code = rejection.code ∧
        ∀ right, SameRows batch.auth.userId state.db.entities right →
          applyMutation env right batch.auth.userId mutation state.nextServerSeq batch.now =
            .error (.reject rejection)) := by
  have hunchanged : ∀ other : LoopState, other.db.opReceipts = state.db.opReceipts →
      (iteration batch mutation state other).processed ≠ true := by
    intro other hsame
    simp [OpStep.processed, iteration, hsame]
  have hfails := fun right (hsame : SameRows batch.auth.userId state.db.entities right) =>
    applyMutation_taken env state.nextServerSeq batch.now hsame htaken
  have hfresh : Fresh batch state mutation := by
    cases processOp_outcome h with
    | known receipt => exact absurd hprocessed (hunchanged _ rfl)
    | old => exact absurd hprocessed (hunchanged _ rfl)
    | rejected _ hfresh => exact hfresh
    | applied _ _ hfresh => exact hfresh
  unfold processOp at h
  rw [hfresh.noReceipt] at h
  simp only [if_neg (not_le_of_gt hfresh.aboveWatermark), ite_error_eq_ok_iff] at h
  have hdecide := h.2.2
  unfold decideOp at hdecide
  cases happly : applyMutation env state.db.entities batch.auth.userId mutation state.nextServerSeq
      batch.now with
  | ok applied =>
      rcases hfails _ (.refl _ _) with hconstraint | ⟨failure, hfailure, -⟩
      · rw [hconstraint] at happly
        cases happly
      · rw [hfailure] at happly
        cases happly
  | error failure =>
      rw [happly] at hdecide
      cases failure with
      | reject rejection =>
          refine ⟨rejection.code, (commitRejected_eq_ok hdecide).1, Or.inr ⟨rejection, rfl, ?_⟩⟩
          intro right hsame
          rcases hfails right hsame with hconstraint | ⟨failure, hfailure, hright⟩
          · rw [hconstraint] at happly
            cases happly
          · rw [hfailure] at happly
            cases happly
            exact hright
      | database error =>
          cases error with
          | constraint => exact ⟨_, (commitRejected_eq_ok hdecide).1, Or.inl rfl⟩
          | other => cases hdecide

/-! ### The server -/

/-- What the server keeps of tombstones, parents and accounts, in a state it has reached. -/
structure Isolation (env : Env) (db : Db) (past : List OpStep) : Prop where
  /-- The entity tables changed in the iterations only. -/
  onlyOperations : Follows Entities.empty past db.entities
  kept : ∀ step ∈ past, TombstonesKept step
  /-- A create under an id of another account is rejected. -/
  takenId : ∀ step ∈ past, step.processed = true →
    step.before.db.entities.IdTaken step.batch.auth.userId step.mutation →
    ∃ code, step.after = rejectedState step.batch step.before step.mutation code ∧
      (code = "CONSTRAINT_VIOLATION" ∨ ∃ rejection : MutationError, code = rejection.code ∧
        ∀ right, SameRows step.batch.auth.userId step.before.db.entities right →
          applyMutation env right step.batch.auth.userId step.mutation step.before.nextServerSeq
            step.batch.now = .error (.reject rejection))
  /-- An operation id of another account fails the request. -/
  takenOpId : ∀ clock auth body, ∀ op ∈ body.ops, db.OpIdTaken auth.userId op →
    ∃ error, sync env clock auth body db = .error error
  /-- Otherwise the rows of other accounts make no difference. -/
  answersAlike : ∀ events clock auth body,
    SameFor auth.userId db ((server env).run Db.empty events) →
    (∀ op ∈ body.ops, db.Untaken auth.userId op) →
    (∀ op ∈ body.ops, ((server env).run Db.empty events).Untaken auth.userId op) →
    Alike (fun first second => first.1 = second.1 ∧ SameFor auth.userId first.2 second.2)
      (sync env clock auth body db) (sync env clock auth body ((server env).run Db.empty events))
  /-- No request changes them. -/
  others : ∀ clock auth body other, other ≠ auth.userId →
    SameFor other db (serveSync env clock auth body db).2

theorem server_isolation (env : Env) (events : List ServerEvent) :
    Isolation env ((server env).run Db.empty events) ((server env).trace Db.empty events) where
  onlyOperations := (history_run env events).follows
  kept := trace_tombstonesKept env events Db.empty
  takenId step hstep hprocessed htaken :=
    taken_rejected (trace_processOp events Db.empty step hstep) hprocessed htaken
  takenOpId _ _ _ _ hop htaken := sync_of_opIdTaken hop htaken
  answersAlike other _ _ _ hsame hleft hright :=
    sync_alike hsame (fun opId receipt h => ((history_run env events).receipts opId receipt h).1)
      (fun opId receipt h => ((history_run env other).receipts opId receipt h).1) hleft hright
  others _ _ _ _ hother := serveSync_others hother

/-! ### An operation id used twice -/

def firstAccount : AuthUser := ⟨⟨1⟩, ⟨2⟩⟩

def secondAccount : AuthUser := ⟨⟨11⟩, ⟨12⟩⟩

def signedIn : List ServerEvent :=
  [.signUp firstAccount.userId, .signIn firstAccount, .signUp secondAccount.userId,
    .signIn secondAccount]

/-- Creates a list; the operation has the same id whoever sends it. -/
def newListRequest (auth : AuthUser) (entityId : Uuid) : SyncRequest where
  deviceId := auth.deviceId
  cursor := "0"
  ops := [⟨⟨3⟩, 1, .list, entityId, .create, .obj [("name", .str "Groceries")]⟩]
  limit := none

/-- The other account has used the id. -/
def usedElsewhere : List ServerEvent :=
  signedIn ++ [.request ⟨⟨1000⟩, ⟨2000⟩⟩ secondAccount (newListRequest secondAccount ⟨20⟩)]

/-- The receipt of the other account alone makes the request fail, and no row is in the way. -/
theorem taken_op_id_refused :
    ¬ ∀ (env : Env) (events others : List ServerEvent) (clock : Clock) (auth : AuthUser)
      (body : SyncRequest),
      SameFor auth.userId ((server env).run Db.empty events) ((server env).run Db.empty others) →
      Alike (fun first second => first.1 = second.1 ∧ SameFor auth.userId first.2 second.2)
        (sync env clock auth body ((server env).run Db.empty events))
        (sync env clock auth body ((server env).run Db.empty others)) ∨
      ∃ answer ack, ack ∈ answer.1.ack ∧ ack.errorCode = some "CONSTRAINT_VIOLATION" ∧
        (sync env clock auth body ((server env).run Db.empty events) = .ok answer ∨
          sync env clock auth body ((server env).run Db.empty others) = .ok answer) := by
  intro hall
  have hsame : SameFor firstAccount.userId ((server Env.utc).run Db.empty signedIn)
      ((server Env.utc).run Db.empty usedElsewhere) := by
    rw [usedElsewhere, Machine.run_append]
    exact serveSync_others (by decide)
  have hfirst : ((sync Env.utc ⟨⟨3000⟩, ⟨4000⟩⟩ firstAccount (newListRequest firstAccount ⟨10⟩)
      ((server Env.utc).run Db.empty signedIn)).toOption.map fun answer =>
        answer.1.ack.map Ack.errorCode) = some [none] := by
    decide
  have hsecond : (sync Env.utc ⟨⟨3000⟩, ⟨4000⟩⟩ firstAccount (newListRequest firstAccount ⟨10⟩)
      ((server Env.utc).run Db.empty usedElsewhere)).toOption.isNone = true := by
    decide
  have hclaim := hall Env.utc signedIn usedElsewhere ⟨⟨3000⟩, ⟨4000⟩⟩ firstAccount
    (newListRequest firstAccount ⟨10⟩) hsame
  cases hleft : sync Env.utc ⟨⟨3000⟩, ⟨4000⟩⟩ firstAccount (newListRequest firstAccount ⟨10⟩)
      ((server Env.utc).run Db.empty signedIn) with
  | error error =>
      rw [hleft] at hfirst
      cases hfirst
  | ok first =>
      cases hright : sync Env.utc ⟨⟨3000⟩, ⟨4000⟩⟩ firstAccount
          (newListRequest firstAccount ⟨10⟩) ((server Env.utc).run Db.empty usedElsewhere) with
      | ok second =>
          rw [hright] at hsecond
          cases hsecond
      | error error =>
          rw [hleft, hright] at hclaim
          rcases hclaim with halike | ⟨answer, ack, hack, hcode, hanswer | hanswer⟩
          · exact halike
          · cases hanswer
            rw [hleft] at hfirst
            have hcodes : first.1.ack.map Ack.errorCode = [none] := Option.some.inj hfirst
            have hmem : some "CONSTRAINT_VIOLATION" ∈ first.1.ack.map Ack.errorCode :=
              hcode ▸ List.mem_map_of_mem hack
            rw [hcodes] at hmem
            simp at hmem
          · cases hanswer

end ShishiTodo
