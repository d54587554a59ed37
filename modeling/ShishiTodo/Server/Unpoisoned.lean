import ShishiTodo.Server.Fitting
import ShishiTodo.Server.ExactlyOnce
import ShishiTodo.Codecs

/-!
# No poison operation

An operation that the batch loop comes to is answered from what was decided before, refused for its sequence, or decided now; and what is decided now is applied or rejected. No value of a patch can make a statement fail in another way, which would end the request and every retry of it.
-/

namespace ShishiTodo

open Lib

/-! ### No error of another class -/

/-- Any error but a database error of no integrity class. -/
def Classified {α : Type} (result : Applied α) : Prop := result ≠ .error (.database .other)

theorem classified_ok {α : Type} (value : α) : Classified (.ok value : Applied α) := nofun

theorem classified_orReject {α : Type} (checked : Checked α) : Classified (orReject checked) := by
  cases checked <;> exact nofun

theorem classified_refuseIf {condition : Prop} [Decidable condition] (error : MutationError) :
    Classified (refuseIf condition (.reject error)) := by
  unfold refuseIf
  split <;> exact nofun

theorem Classified.bind {α β : Type} {first : Applied α} {rest : α → Applied β}
    (hfirst : Classified first) (hrest : ∀ value, Classified (rest value)) :
    Classified (first >>= rest) := by
  cases first with
  | error error => exact fun h => hfirst (by cases h; rfl)
  | ok value => exact hrest value

section Apply

variable {V : Type} {spec : EntitySpec V} {entities : Entities} {userId : Uuid}
  {mutation : Mutation} {serverSeq : Int} {now : Instant}

theorem classified_insertRow {id : Uuid} {values : V} :
    Classified (spec.insertRow entities userId id values serverSeq now) := by
  unfold EntitySpec.insertRow
  split <;> exact nofun

theorem classified_updateRow {id : Uuid} {row : EntityRow V} {values : V} {restoring : Bool} :
    Classified (spec.updateRow entities userId id row values serverSeq now restoring) := by
  unfold EntitySpec.updateRow
  split <;> exact nofun

theorem EntitySpec.classified_apply :
    Classified (spec.apply entities userId mutation serverSeq now) := by
  unfold EntitySpec.apply
  split
  · refine (classified_orReject _).bind fun _ => (classified_refuseIf _).bind fun _ =>
      (classified_orReject _).bind fun values => (classified_orReject _).bind fun _ =>
        (classified_orReject _).bind fun _ => (classified_orReject _).bind fun _ => ?_
    exact classified_insertRow.bind fun tables => classified_ok _
  · unfold EntitySpec.patch
    split
    · exact nofun
    · refine (classified_refuseIf _).bind fun _ => (classified_orReject _).bind fun values =>
        (classified_orReject _).bind fun _ => (classified_orReject _).bind fun _ => ?_
      exact classified_updateRow.bind fun tables => classified_ok _
  · unfold EntitySpec.delete
    split
    · exact nofun
    · exact (classified_refuseIf _).bind fun _ => (classified_orReject _).bind fun _ =>
        classified_ok _
  · unfold EntitySpec.restore
    split
    · exact nofun
    · refine (classified_refuseIf _).bind fun _ => (classified_orReject _).bind fun values =>
        (classified_orReject _).bind fun _ => (classified_orReject _).bind fun _ => ?_
      exact classified_updateRow.bind fun tables => classified_ok _

end Apply

theorem classified_applyMutation {env : Env} {entities : Entities} {userId : Uuid}
    {mutation : Mutation} {serverSeq : Int} {now : Instant} :
    Classified (applyMutation env entities userId mutation serverSeq now) := by
  unfold applyMutation
  split <;> exact EntitySpec.classified_apply

/-! ### What is decided -/

/-- The sequence checks let an operation through to be decided. -/
def Batch.decides (batch : Batch) (state : LoopState) (mutation : Mutation) : Bool :=
  (batch.receiptByOp mutation.opId).isNone && decide (batch.lastClientSeq < mutation.clientSeq) &&
    mutation.clientSeq == state.expectedClientSeq &&
    (batch.receiptBySeq mutation.clientSeq).isNone

/-- How an operation that is decided ends. -/
inductive Ending (env : Env) (batch : Batch) (state : LoopState) (mutation : Mutation) :
    LoopState → Prop
  | applied (patch : Json) (entities : Entities)
      (happly : applyMutation env state.db.entities batch.auth.userId mutation state.nextServerSeq
        batch.now = .ok (patch, entities)) :
      Ending env batch state mutation (appliedState batch state mutation patch entities)
  | rejected (error : MutationError)
      (happly : applyMutation env state.db.entities batch.auth.userId mutation state.nextServerSeq
        batch.now = .error (.reject error)) :
      Ending env batch state mutation (rejectedState batch state mutation error.code)
  | violated
      (happly : applyMutation env state.db.entities batch.auth.userId mutation state.nextServerSeq
        batch.now = .error (.database .constraint)) :
      Ending env batch state mutation (rejectedState batch state mutation "CONSTRAINT_VIOLATION")

section Decide

variable {env : Env} {batch : Batch} {state : LoopState} {mutation : Mutation}

/-- An operation that is not decided is answered, or its sequence is refused. -/
theorem processOp_of_not_decides (h : batch.decides state mutation = false) :
    (∃ next, processOp env batch state mutation = .ok next) ∨
      ∃ message, processOp env batch state mutation = .error (.sequenceMismatch message) := by
  unfold processOp
  split
  · split
    · exact .inr ⟨_, rfl⟩
    · exact .inl ⟨_, rfl⟩
  · rename_i hnone
    split
    · split
      · exact .inr ⟨_, rfl⟩
      · exact .inl ⟨_, rfl⟩
    · rename_i habove
      split
      · exact .inr ⟨_, rfl⟩
      · rename_i hexpected
        split
        · exact .inr ⟨_, rfl⟩
        · rename_i hseq
          refine absurd h ?_
          rw [not_not] at hexpected
          simp only [Option.isSome_iff_ne_none, not_not] at hseq
          have hlt : batch.lastClientSeq < mutation.clientSeq := by omega
          simp [Batch.decides, hnone, hlt, ← hexpected, hseq]

theorem processOp_of_decides (h : batch.decides state mutation = true) :
    processOp env batch state mutation = decideOp env batch state mutation := by
  simp only [Batch.decides, Bool.and_eq_true, Option.isNone_iff_eq_none, decide_eq_true_eq,
    beq_iff_eq] at h
  obtain ⟨⟨⟨hnone, habove⟩, hexpected⟩, hseq⟩ := h
  have hnotOld : ¬ mutation.clientSeq ≤ batch.lastClientSeq := by omega
  have hnext : ¬ mutation.clientSeq ≠ state.expectedClientSeq := by omega
  simp only [processOp, hnone]
  rw [if_neg hnotOld, if_neg hnext, hseq]
  rfl

/-- What the rows of receipts and changes have no conflict with. -/
structure Insertable (batch : Batch) (state : LoopState) (mutation : Mutation) : Prop where
  sequence : 0 < state.nextServerSeq
  change : ∀ old ∈ state.db.changeLog, old.userId = batch.auth.userId →
    old.serverSeq < state.nextServerSeq
  clientSeq : 0 < mutation.clientSeq
  receipt : state.db.opReceipts.lookup mutation.opId = none
  receiptSeq : ∀ opId old, state.db.opReceipts.lookup opId = some old →
    old.userId = batch.auth.userId → old.deviceId = batch.auth.deviceId →
    old.clientSeq ≠ mutation.clientSeq
  device : ∃ device, state.db.devices.lookup batch.auth.deviceId = some device ∧
    device.userId = batch.auth.userId

theorem insertChange_ok {db : Db} {row : ChangeRow} (hpos : 0 < row.serverSeq)
    (hfree : ∀ old ∈ db.changeLog, old.userId = row.userId → old.serverSeq < row.serverSeq) :
    db.insertChange row = .ok { db with changeLog := db.changeLog ++ [row] } := by
  have hany : (db.changeLog.any fun old =>
      old.userId == row.userId && old.serverSeq == row.serverSeq) = false := by
    rw [List.any_eq_false]
    intro old hold
    simp only [Bool.and_eq_true, beq_iff_eq, not_and]
    intro huser heq
    have hlt := hfree old hold huser
    omega
  rw [Db.insertChange, hany, if_neg]
  simp only [Bool.false_eq_true, or_false]
  omega

theorem insertReceipt_ok {db : Db} {row : ReceiptRow} {device : DeviceRow}
    (hpos : 0 < row.clientSeq) (hop : db.opReceipts.lookup row.opId = none)
    (hseq : ∀ opId old, db.opReceipts.lookup opId = some old → old.userId = row.userId →
      old.deviceId = row.deviceId → old.clientSeq ≠ row.clientSeq)
    (hdevice : db.devices.lookup row.deviceId = some device) (howner : device.userId = row.userId) :
    db.insertReceipt row = .ok { db with opReceipts := db.opReceipts.insert row.opId row } := by
  have hany : (db.opReceipts.any fun _ old => old.userId == row.userId &&
      old.deviceId == row.deviceId && old.clientSeq == row.clientSeq) = false := by
    rw [Table.any_eq_false_iff]
    intro opId old hold
    by_contra htaken
    simp only [Bool.not_eq_false, Bool.and_eq_true, beq_iff_eq] at htaken
    exact hseq opId old hold htaken.1.1 htaken.1.2 htaken.2
  have hfound : ((db.devices.lookup row.deviceId).filter fun device =>
      device.userId == row.userId).isNone = false := by
    simp [hdevice, Option.filter, howner]
  rw [Db.insertReceipt, hany, hfound, hop, if_neg]
  simp only [Option.isSome_none, Bool.false_eq_true, or_false]
  omega

theorem commitApplied_ok (h : Insertable batch state mutation) (patch : Json)
    (entities : Entities) :
    commitApplied batch state mutation patch entities =
      .ok (appliedState batch state mutation patch entities) := by
  obtain ⟨device, hdevice, howner⟩ := h.device
  let written : Db := { state.db with entities := entities }
  let logged : Db :=
    { written with changeLog := written.changeLog ++ [changeOf batch state mutation patch] }
  have hchange : written.insertChange (changeOf batch state mutation patch) = .ok logged :=
    insertChange_ok h.sequence h.change
  have hreceipt : logged.insertReceipt (appliedReceipt batch state mutation) =
      .ok { logged with opReceipts :=
        logged.opReceipts.insert mutation.opId (appliedReceipt batch state mutation) } :=
    insertReceipt_ok h.clientSeq h.receipt h.receiptSeq hdevice howner
  show (written.insertChange (changeOf batch state mutation patch) >>= fun db =>
    db.insertReceipt (appliedReceipt batch state mutation) >>= _) = _
  rw [hchange]
  show (logged.insertReceipt (appliedReceipt batch state mutation) >>= _) = _
  rw [hreceipt]
  rfl

theorem commitRejected_ok (h : Insertable batch state mutation) (errorCode : String) :
    commitRejected batch state mutation errorCode =
      .ok (rejectedState batch state mutation errorCode) := by
  obtain ⟨device, hdevice, howner⟩ := h.device
  have hreceipt : state.db.insertReceipt (rejectedReceipt batch mutation errorCode) =
      .ok { state.db with opReceipts :=
        state.db.opReceipts.insert mutation.opId (rejectedReceipt batch mutation errorCode) } :=
    insertReceipt_ok h.clientSeq h.receipt h.receiptSeq hdevice howner
  rw [commitRejected, hreceipt]
  rfl

theorem decideOp_of_ending {next : LoopState} (h : Insertable batch state mutation)
    (hending : Ending env batch state mutation next) :
    decideOp env batch state mutation = .ok next := by
  cases hending with
  | applied patch entities happly =>
      simp only [decideOp, happly]
      exact commitApplied_ok h patch entities
  | rejected error happly =>
      simp only [decideOp, happly]
      exact commitRejected_ok h error.code
  | violated happly =>
      simp only [decideOp, happly]
      exact commitRejected_ok h "CONSTRAINT_VIOLATION"

/-- The step: a decided operation ends, over tables that fit. -/
theorem typedDecideOp_ends (hcrates : env.Crates) (hrows : state.db.entities.Fits env)
    (hdistinct : mutation.patch.Distinct) (h : Insertable batch state mutation) :
    ∃ next, typedDecideOp env batch state mutation = .ok next ∧
      Ending env batch state mutation next := by
  unfold typedDecideOp
  rw [typedApplyMutation_eq hcrates hrows]
  cases happly : applyMutation env state.db.entities batch.auth.userId mutation
      state.nextServerSeq batch.now with
  | ok done =>
      obtain ⟨patch, entities⟩ := done
      have hjson := (applyMutation_fits hcrates hrows happly).2 hdistinct
      refine ⟨_, ?_, .applied patch entities happly⟩
      simp only [hjson, if_true]
      exact commitApplied_ok h patch entities
  | error failure =>
      cases failure with
      | reject error => exact ⟨_, commitRejected_ok h error.code, .rejected error happly⟩
      | database error =>
          cases error with
          | constraint => exact ⟨_, commitRejected_ok h _, .violated happly⟩
          | other => exact absurd happly classified_applyMutation

end Decide

/-! ### A request -/

/-- An operation that the loop of a request comes to. -/
structure ReachedOp (env : Env) (clock : Clock) (auth : AuthUser) (body : SyncRequest) (db : Db) where
  device : DeviceRow
  past : List Mutation
  op : Mutation
  rest : List Mutation
  state : LoopState
  hbatch : validateBatch body.ops = .ok ()
  hdevice : selectDevice (db.ensureSyncState auth.userId) auth = .ok device
  hops : body.ops = past ++ op :: rest
  hloop : processOps env (batchOf auth clock.transaction (db.ensureSyncState auth.userId) device)
    past (.start (db.ensureSyncState auth.userId) device
      ((db.ensureSyncState auth.userId).syncState auth.userId)) = .ok state

/-- The ids of a batch that was validated are distinct. -/
theorem validateOps_eq_ok {ops : List Mutation} :
    ∀ {seq : Int} {seen : List Uuid}, validateOps ops seq seen = .ok () →
      (ops.map Mutation.opId).Nodup ∧ ∀ op ∈ ops, op.opId ∉ seen := by
  induction ops with
  | nil => simp
  | cons op rest ih =>
      intro seq seen h
      rw [validateOps, ite_error_eq_ok_iff, ite_error_eq_ok_iff, ite_error_eq_ok_iff] at h
      obtain ⟨-, -, hseen, hrest⟩ := h
      obtain ⟨hnodup, hnew⟩ := ih hrest
      have hop : op.opId ∉ seen := by simpa using hseen
      refine ⟨?_, ?_⟩
      · rw [List.map_cons, List.nodup_cons]
        refine ⟨fun hmem => ?_, hnodup⟩
        obtain ⟨other, hother, hsame⟩ := List.mem_map.mp hmem
        exact hnew other hother (hsame ▸ List.mem_cons_self)
      · intro other hother
        rcases List.mem_cons.mp hother with rfl | hother
        · exact hop
        · exact fun hmem => hnew other hother (List.mem_cons_of_mem _ hmem)

/-- The loop makes receipts for its own operations only. -/
theorem processOps_receipts {env : Env} {batch : Batch} {ops : List Mutation} :
    ∀ {state final : LoopState}, processOps env batch ops state = .ok final →
      ∀ opId receipt, final.db.opReceipts.lookup opId = some receipt →
        state.db.opReceipts.lookup opId = some receipt ∨ opId ∈ ops.map Mutation.opId := by
  induction ops with
  | nil =>
      intro state final h opId receipt hreceipt
      cases h
      exact .inl hreceipt
  | cons op rest ih =>
      intro state final h opId receipt hreceipt
      simp only [processOps, bind_eq_ok_iff] at h
      obtain ⟨next, hnext, hrest⟩ := h
      rw [List.map_cons, List.mem_cons]
      rcases ih hrest opId receipt hreceipt with hfound | hlater
      · have hinsert : ∀ new : ReceiptRow,
            (state.db.opReceipts.insert op.opId new).lookup opId = some receipt →
              state.db.opReceipts.lookup opId = some receipt ∨ opId = op.opId := by
          intro new hnew
          rw [Table.lookup_insert_eq_ite] at hnew
          by_cases hsame : opId = op.opId
          · exact .inr hsame
          · rw [if_neg hsame] at hnew
            exact .inl hnew
        rcases processOp_outcome hnext with _ | _ | _ | _
        · exact .inl hfound
        · exact .inl hfound
        · exact (hinsert _ hfound).imp_right .inl
        · exact (hinsert _ hfound).imp_right .inl
      · exact .inr (.inr hlater)

namespace ReachedOp

variable {env : Env} {clock : Clock} {auth : AuthUser} {body : SyncRequest} {db : Db}
  (reached : ReachedOp env clock auth body db)

def batch : Batch := batchOf auth clock.transaction (db.ensureSyncState auth.userId) reached.device

/-- Over a run, nothing is in the way of what a decided operation leaves behind. -/
theorem insertable {past : List OpStep} (h : History db past)
    (hdecides : reached.batch.decides reached.state reached.op = true) :
    Insertable reached.batch reached.state reached.op := by
  simp only [Batch.decides, Bool.and_eq_true, Option.isNone_iff_eq_none, decide_eq_true_eq,
    beq_iff_eq] at hdecides
  obtain ⟨⟨⟨hnone, habove⟩, hexpected⟩, hseq⟩ := hdecides
  have hloop := loopHistory_of_processOps reached.hloop
  obtain ⟨hdevice, howner, -⟩ := selectDevice_eq_ok reached.hdevice
  obtain ⟨hpos, hgiven⟩ := h.sequence auth.userId
  have hnext := hloop.sequence_le
  rw [show (LoopState.start (db.ensureSyncState auth.userId) reached.device
    ((db.ensureSyncState auth.userId).syncState auth.userId)).nextServerSeq =
      (db.syncState auth.userId).nextServerSeq from
    congrArg SyncState.nextServerSeq (syncState_ensureSyncState db auth.userId auth.userId)] at hnext
  have hstart : ∀ opId receipt, reached.state.db.opReceipts.lookup opId = some receipt →
      db.opReceipts.lookup opId = some receipt ∨ opId ∈ reached.past.map Mutation.opId :=
    processOps_receipts reached.hloop
  have hunused : db.opReceipts.lookup reached.op.opId = none := hnone
  refine ⟨by omega, ?_, ?_, ?_, ?_, ?_⟩
  · intro old hold huser
    rw [hloop.changeLog] at hold
    rcases List.mem_append.mp hold with hpast | hnew
    · have hmem : old ∈ givenTo past auth.userId :=
        List.mem_filter.mpr ⟨h.retained old hpast, beq_iff_eq.mpr huser⟩
      have hrange := hgiven ▸ List.mem_map_of_mem (f := ChangeRow.serverSeq) hmem
      have hlt := (Int.mem_range_iff.mp hrange).2
      omega
    · have hrange := hloop.sequence ▸ List.mem_map_of_mem (f := ChangeRow.serverSeq) hnew
      exact (Int.mem_range_iff.mp hrange).2
  · have hwatermark := (h.watermark auth.deviceId reached.device hdevice).1
    have hlt : reached.device.lastClientSeq < reached.op.clientSeq := habove
    omega
  · cases hreceipt : reached.state.db.opReceipts.lookup reached.op.opId with
    | none => rfl
    | some receipt =>
        rcases hstart reached.op.opId receipt hreceipt with hold | hpast
        · rw [hunused] at hold
          cases hold
        · -- The id would stand twice in the batch.
          have hbatch := reached.hbatch
          rw [validateBatch, ite_error_eq_ok_iff] at hbatch
          have hnodup := (validateOps_eq_ok hbatch.2).1
          rw [reached.hops, List.map_append, List.map_cons] at hnodup
          exact absurd (List.mem_cons_self) (List.disjoint_of_nodup_append hnodup hpast)
  · intro opId old hold huser hdeviceId hsame
    rcases hloop.receipts opId old hold with hfirst | ⟨-, -, -, hlt⟩
    · have hfind := List.find?_eq_none.mp hseq old (Table.mem_values_iff.mpr ⟨opId, hfirst⟩)
      simp only [Bool.and_eq_true, beq_iff_eq, not_and] at hfind
      exact hfind ⟨huser, hdeviceId⟩ hsame
    · omega
  · refine ⟨reached.device, ?_, howner⟩
    rw [hloop.devices]
    exact hdevice

end ReachedOp

theorem outcome_fits {env : Env} {batch : Batch} {state next : LoopState} {mutation : Mutation}
    (hcrates : env.Crates) (h : OpOutcome env batch state mutation next)
    (hrows : state.db.entities.Fits env) : next.db.entities.Fits env := by
  cases h with
  | known receipt hreceipt hsame => exact hrows
  | old hreceipt hseq => exact hrows
  | applied patch entities hfresh happly => exact (applyMutation_fits hcrates hrows happly).1
  | rejected errorCode hfresh => exact hrows

/-- In every run every row fits its columns. -/
theorem fits_run {env : Env} (hcrates : env.Crates) (events : List ServerEvent) :
    ((server env).run Db.empty events).entities.Fits env :=
  (history_run env events).follows.preserves (Entities.Fits env)
    (fun step hstep => outcome_fits hcrates (trace_outcome events Db.empty step hstep))
    (Entities.fits_empty env)

theorem processOps_fits {env : Env} {batch : Batch} (hcrates : env.Crates) {ops : List Mutation} :
    ∀ {state final : LoopState}, processOps env batch ops state = .ok final →
      state.db.entities.Fits env → final.db.entities.Fits env := by
  induction ops with
  | nil =>
      intro state final h hrows
      cases h
      exact hrows
  | cons op rest ih =>
      intro state final h hrows
      simp only [processOps, bind_eq_ok_iff] at h
      obtain ⟨next, hnext, hrest⟩ := h
      exact ih hrest (outcome_fits hcrates (processOp_outcome hnext) hrows)

/-- After every run, an operation that a batch comes to and that is decided is applied or rejected, over typed statements as well; any other is answered, or refused for its sequence. -/
theorem no_poison_operation (env : Env) (hcrates : env.Crates) (events : List ServerEvent)
    (clock : Clock) (auth : AuthUser) (body : SyncRequest)
    (hdistinct : ∀ op ∈ body.ops, op.patch.Distinct)
    (reached : ReachedOp env clock auth body ((server env).run Db.empty events)) :
    (reached.batch.decides reached.state reached.op = true →
      ∃ next, typedDecideOp env reached.batch reached.state reached.op = .ok next ∧
        processOp env reached.batch reached.state reached.op = .ok next ∧
        Ending env reached.batch reached.state reached.op next) ∧
    (reached.batch.decides reached.state reached.op = false →
      (∃ next, processOp env reached.batch reached.state reached.op = .ok next) ∨
        ∃ message, processOp env reached.batch reached.state reached.op =
          .error (.sequenceMismatch message)) := by
  refine ⟨?_, processOp_of_not_decides⟩
  intro hdecides
  have hmem : reached.op ∈ body.ops := by
    rw [reached.hops]
    exact List.mem_append_right _ List.mem_cons_self
  have hrows := processOps_fits hcrates reached.hloop (fits_run hcrates events)
  have hinsertable := reached.insertable (history_run env events) hdecides
  obtain ⟨next, hnext, hending⟩ :=
    typedDecideOp_ends hcrates hrows (hdistinct reached.op hmem) hinsertable
  refine ⟨next, hnext, ?_, hending⟩
  rw [processOp_of_decides hdecides]
  exact decideOp_of_ending hinsertable hending

/-! ### On concrete codecs -/

theorem Env.utc_crates : Env.utc.Crates where
  uuidText _ _ h := Codecs.parseUuid_text h
  dateText _ _ h := Codecs.containsNul_eq_false_iff.mpr (Codecs.readDate_sound h).1
  instantText _ _ h := (Codecs.parseInstant_sound h).1
  uuidPrint := Codecs.uuid_print
  datePrint date := by
    rw [Codecs.containsNul_eq_false_iff]
    intro c hc
    exact Codecs.dateChars_ne_nul date c (by simpa [Env.utc, Codecs.date] using hc)
  instantPrint := Codecs.instant_print
  dateMax _ _ h := (Codecs.readDate_sound h).2.trans (by decide)
  instantMax _ _ h := (Codecs.parseInstant_sound h).2.trans (by decide)

/-- A task with a reminder in the last year that `chrono` reads of four digits. -/
def remindedTask : Mutation where
  opId := ⟨3⟩
  clientSeq := 1
  entity := .task
  entityId := ⟨4⟩
  kind := .create
  patch := .obj [("title", .str "Pay rent"), ("remind_at", .str "9999-12-31T23:59:59Z")]

def remindedRequest : SyncRequest where
  deviceId := ⟨2⟩
  cursor := "0"
  ops := [remindedTask]
  limit := none

def oneDevice : List ServerEvent := [.signUp ⟨1⟩, .signIn ⟨⟨1⟩, ⟨2⟩⟩]

def reachedTask : ReachedOp Env.utc ⟨⟨1000⟩, ⟨2000⟩⟩ ⟨⟨1⟩, ⟨2⟩⟩ remindedRequest
    ((server Env.utc).run Db.empty oneDevice) where
  device := { userId := ⟨1⟩, lastClientSeq := 0, revokedAt := none }
  past := []
  op := remindedTask
  rest := []
  state := .start (((server Env.utc).run Db.empty oneDevice).ensureSyncState ⟨1⟩)
    { userId := ⟨1⟩, lastClientSeq := 0, revokedAt := none }
    ((((server Env.utc).run Db.empty oneDevice).ensureSyncState ⟨1⟩).syncState ⟨1⟩)
  hbatch := rfl
  hdevice := rfl
  hops := rfl
  hloop := rfl

theorem no_poison_operation_reminded :
    ∃ next, typedDecideOp Env.utc reachedTask.batch reachedTask.state remindedTask = .ok next := by
  have hdistinct : ∀ op ∈ remindedRequest.ops, op.patch.Distinct := by
    intro op hop members hmembers
    rw [List.mem_singleton.mp hop] at hmembers
    cases hmembers
    decide
  have hdecides : reachedTask.batch.decides reachedTask.state reachedTask.op = true := by
    decide
  obtain ⟨next, htyped, -, -⟩ := (no_poison_operation Env.utc Env.utc_crates oneDevice
    ⟨⟨1000⟩, ⟨2000⟩⟩ ⟨⟨1⟩, ⟨2⟩⟩ remindedRequest hdistinct reachedTask).1 hdecides
  exact ⟨next, htyped⟩

end ShishiTodo
