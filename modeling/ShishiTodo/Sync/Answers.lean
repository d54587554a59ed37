import ShishiTodo.Server.LogTip
import ShishiTodo.Sync.Engine

/-!
# What an answer tells the engine

An answered request acknowledges every operation it carried; the page of changes it returns moves the cursor on when there are more, and brings it to the account's last sequence when there are none and the newest change is in the log. The server says that a cursor expired only of one older than what it retains.
-/

namespace ShishiTodo

open Lib

/-! ### Cursors -/

theorem parse_digits {chars : List Char} (hsome : chars ≠ [])
    (hdigits : ∀ c ∈ chars, c.isDigit = true) :
    ChangeCursor.parse (String.ofList chars) =
      if Nat.ofDigitChars 10 chars 0 < 2 ^ 63 then some ↑(Nat.ofDigitChars 10 chars 0) else none := by
  have hall : chars.all (fun c => decide (48 ≤ c.toNat) && decide (c.toNat ≤ 57)) = true := by
    refine List.all_eq_true.mpr fun c hc => ?_
    have hdigit := hdigits c hc
    simp only [Char.isDigit, Bool.and_eq_true, decide_eq_true_eq] at hdigit ⊢
    exact hdigit
  simp [ChangeCursor.parse, hsome, hall]

/-- A cursor that is read back is the one that was written. -/
theorem ChangeCursor.parse_render {cursor read : Int}
    (h : ChangeCursor.parse (ChangeCursor.render cursor) = some read) : read = cursor := by
  rcases cursor with value | value
  · have htext : ChangeCursor.render (Int.ofNat value) =
        String.ofList (Nat.toDigits 10 value) := rfl
    have hdigits : ∀ c ∈ Nat.toDigits 10 value, c.isDigit = true := fun c hc =>
      Nat.isDigit_of_mem_toDigits (by decide) (by decide) hc
    rw [htext, parse_digits Nat.toDigits_ne_nil hdigits, Nat.ofDigitChars_ten_toDigits] at h
    split at h
    · exact (Option.some.inj h).symm
    · cases h
  · have hminus : (ChangeCursor.render (Int.negSucc value)).toList =
        '-' :: Nat.toDigits 10 (value + 1) := by
      simp [ChangeCursor.render, Int.repr]
    simp [ChangeCursor.parse, hminus] at h

theorem ChangeCursor.parse_nonneg {text : String} {cursor : Int}
    (h : ChangeCursor.parse text = some cursor) : 0 ≤ cursor := by
  unfold ChangeCursor.parse at h
  simp only at h
  split at h
  · cases h
  · split at h
    · cases h
      exact Int.natCast_nonneg _
    · cases h

theorem readCursor_eq_ok {body : SyncRequest} {cursor : Int} (h : readCursor body = .ok cursor) :
    ChangeCursor.parse body.cursor = some cursor := by
  unfold readCursor at h
  split at h
  · rename_i found hparse
    rw [hparse, Except.ok.inj h]
  · cases h

/-! ### The page of changes -/

theorem mem_changesAfter {db : Db} {userId : Uuid} {cursor : Int} {row : ChangeRow} :
    row ∈ db.changesAfter userId cursor ↔ row ∈ accountLog db userId ∧ cursor < row.serverSeq := by
  simp [Db.changesAfter, accountLog, List.mem_insertionSort, and_assoc]

/-- Where the next cursor stands: it goes on when there are more changes, and is past the log when there are none. -/
structure PageReaches (db : Db) (userId : Uuid) (cursor : Int) (response : SyncResponse)
    (reached : Int) : Prop where
  nextCursor : response.nextCursor = ChangeCursor.render reached
  le : cursor ≤ reached
  le_lastSeq : reached ≤ db.lastSeq userId
  more : response.hasMore = true → cursor < reached
  all : response.hasMore = false → ∀ row ∈ accountLog db userId, row.serverSeq ≤ reached

theorem syncPage_reaches {db : Db} {userId : Uuid} {cursor : Int} {limit : Nat} {acks : List Ack}
    {answer : Instant} (hlimit : 0 < limit)
    (hbelow : ∀ row ∈ accountLog db userId, row.serverSeq ≤ db.lastSeq userId)
    (hcursor : cursor ≤ db.lastSeq userId) :
    ∃ reached, PageReaches db userId cursor (syncPage db userId cursor limit acks answer) reached := by
  set rows := (db.changesAfter userId cursor).take (limit + 1) with hrows
  have hchanges : (syncPage db userId cursor limit acks answer).changes =
      (rows.take limit).map ChangeRow.toChange := rfl
  have hmore : (syncPage db userId cursor limit acks answer).hasMore =
      decide (rows.length > limit) := rfl
  have hnext : (syncPage db userId cursor limit acks answer).nextCursor = ChangeCursor.render
      ((((rows.take limit).map ChangeRow.toChange).getLast?.map Change.serverSeq).getD cursor) := rfl
  rw [List.getLast?_map] at hnext
  cases hlast : (rows.take limit).getLast? with
  | none =>
      have hnone : rows.take limit = [] := List.getLast?_eq_none_iff.mp hlast
      have hempty : rows = [] := (List.take_eq_nil_iff.mp hnone).resolve_left (by omega)
      have hnothing : db.changesAfter userId cursor = [] :=
        (List.take_eq_nil_iff.mp (hrows.symm.trans hempty)).resolve_left (by omega)
      refine ⟨cursor, ?_, le_rfl, hcursor, ?_, ?_⟩
      · rw [hnext, hlast]
        rfl
      · rw [hmore, hempty]
        simp
      · intro _ row hrow
        by_contra hlt
        have hmem := mem_changesAfter.mpr ⟨hrow, not_le.mp hlt⟩
        rw [hnothing] at hmem
        cases hmem
  | some last =>
      have hmem : last ∈ db.changesAfter userId cursor :=
        List.mem_of_mem_take (List.mem_of_mem_take (List.mem_of_getLast? hlast))
      obtain ⟨hlogged, hafter⟩ := mem_changesAfter.mp hmem
      refine ⟨last.serverSeq, ?_, hafter.le, hbelow last hlogged, fun _ => hafter, ?_⟩
      · rw [hnext, hlast]
        rfl
      · intro hdone row hrow
        by_contra hlt
        have hfits : rows.length ≤ limit := by simpa [hmore] using hdone
        have hwhole : rows.take limit = db.changesAfter userId cursor := by
          rw [List.take_of_length_le hfits, hrows]
          rw [hrows, List.length_take] at hfits
          exact List.take_of_length_le (by omega)
        have hrowMem : row ∈ db.changesAfter userId cursor :=
          mem_changesAfter.mpr ⟨hrow, by omega⟩
        have hsorted : (db.changesAfter userId cursor).Pairwise
            fun left right => left.serverSeq ≤ right.serverSeq :=
          List.pairwise_insertionSort _ _
        rw [hwhole] at hlast
        obtain ⟨front, hfront⟩ := List.getLast?_eq_some_iff.mp hlast
        rw [hfront, List.pairwise_append] at hsorted
        rw [hfront, List.mem_append, List.mem_singleton] at hrowMem
        rcases hrowMem with hbefore | rfl
        · exact hlt (hsorted.2.2 row hbefore last List.mem_cons_self)
        · exact hlt le_rfl

/-! ### An answered request -/

section Answered

variable {env : Env} {clock : Clock} {auth : AuthUser} {body : SyncRequest} {db : Db}

theorem parsePageLimit_pos {value : Option Nat} {default maximum limit : Nat} (hdefault : 0 < default)
    (h : parsePageLimit value default maximum = some limit) : 0 < limit := by
  cases value with
  | none =>
      cases h
      exact hdefault
  | some value =>
      simp only [parsePageLimit] at h
      split at h
      · rename_i hbounds
        cases h
        omega
      · cases h

theorem readLimit_pos {limit : Nat} (h : readLimit body = .ok limit) : 0 < limit := by
  unfold readLimit at h
  split at h
  · rename_i found hfound
    cases h
    exact parsePageLimit_pos (by decide) hfound
  · cases h

theorem Committed.accepted (committed : Committed env clock auth body db) :
    committed.cursor ≤ db.lastSeq auth.userId ∧
      (db.syncState auth.userId).minAvailableSeq - 1 ≤ committed.cursor := by
  have hcheck := checkCursor_eq_ok_iff.mp committed.hcheck
  rw [syncState_ensureSyncState] at hcheck
  unfold Db.lastSeq
  omega

theorem Committed.reaches (committed : Committed env clock auth body db)
    (hstanding : LogStanding committed.result auth.userId) :
    ∃ reached, PageReaches committed.result auth.userId committed.cursor committed.response
      reached :=
  syncPage_reaches (readLimit_pos committed.hlimit) hstanding.le_lastSeq
    (committed.accepted.1.trans (committed.lastSeq_le auth.userId))

/-- Once the newest change is readable, a page with nothing behind it ends at the last sequence. -/
theorem PageReaches.eq_lastSeq {userId : Uuid} {cursor reached : Int} {response : SyncResponse}
    (h : PageReaches db userId cursor response reached) (htip : Tip db userId) (hpos : 0 ≤ cursor)
    (haccepted : (db.syncState userId).minAvailableSeq - 1 ≤ cursor)
    (hdone : response.hasMore = false) : reached = db.lastSeq userId := by
  have hle := h.le_lastSeq
  have hcursor := h.le
  rcases htip with hpast | ⟨row, hrow, hseq⟩
  · omega
  · have := h.all hdone row hrow
    omega

/-- A loop over no operation gives out no sequence. -/
theorem Committed.lastSeq_idle (committed : Committed env clock auth body db)
    (hidle : body.ops = []) (userId : Uuid) :
    committed.result.lastSeq userId = db.lastSeq userId := by
  have hloop := committed.loop_eq_ok
  rw [hidle] at hloop
  have hfinal : committed.final = committed.start := (Except.ok.inj hloop).symm
  have hstart : committed.start.nextServerSeq = (db.syncState auth.userId).nextServerSeq :=
    congrArg SyncState.nextServerSeq (syncState_ensureSyncState db auth.userId auth.userId)
  unfold Db.lastSeq
  rw [committed.result_syncState, hfinal, hstart]
  split
  · rename_i hid
    rw [hid]
  · rfl

theorem opOutcome_acks {batch : Batch} {state next : LoopState} {mutation : Mutation}
    (h : OpOutcome env batch state mutation next)
    (hkeyed : ∀ opId receipt, batch.receipts.lookup opId = some receipt → receipt.opId = opId) :
    ∃ ack, ack.opId = mutation.opId ∧ next.acks = state.acks ++ [ack] := by
  cases h with
  | known receipt hreceipt hsame =>
      exact ⟨receiptAck receipt, hkeyed _ receipt hreceipt, rfl⟩
  | old hreceipt hseq => exact ⟨oldAck mutation, rfl, rfl⟩
  | applied patch entities hfresh happly => exact ⟨_, rfl, rfl⟩
  | rejected errorCode hfresh => exact ⟨_, rfl, rfl⟩

theorem processOps_acks {batch : Batch}
    (hkeyed : ∀ opId receipt, batch.receipts.lookup opId = some receipt → receipt.opId = opId) :
    ∀ {ops : List Mutation} {state final : LoopState}, processOps env batch ops state = .ok final →
      final.acks.map Ack.opId = state.acks.map Ack.opId ++ ops.map Mutation.opId
  | [], state, final, hloop => by
      rw [← Except.ok.inj hloop]
      simp
  | mutation :: rest, state, final, hloop => by
      simp only [processOps, bind_eq_ok_iff] at hloop
      obtain ⟨next, hnext, hrest⟩ := hloop
      obtain ⟨ack, hack, hacks⟩ := opOutcome_acks (processOp_outcome hnext) hkeyed
      rw [processOps_acks hkeyed hrest, hacks]
      simp [hack]

/-- Every operation of an answered request has its acknowledgement. -/
theorem Committed.acks (committed : Committed env clock auth body db)
    (hrecorded : ∃ past, History db past) :
    committed.response.ack.map Ack.opId = body.ops.map Mutation.opId := by
  obtain ⟨past, hpast⟩ := hrecorded
  have hkeyed : ∀ opId receipt, committed.batch.receipts.lookup opId = some receipt →
      receipt.opId = opId := fun opId receipt hreceipt => (hpast.receipts opId receipt hreceipt).1
  exact processOps_acks hkeyed committed.loop_eq_ok

end Answered

/-! ### A refused request -/

/-- The code of an error answer. -/
def AppError.answerCode (error : AppError) : String := error.intoResponse.2.1

theorem answerCode_sequenceMismatch (message : String) :
    (AppError.sequenceMismatch message).answerCode ≠ "CURSOR_EXPIRED" := by
  simp [AppError.answerCode, AppError.intoResponse, AppError.sequenceMismatch]

theorem answerCode_validation (message : String) :
    (AppError.validation message).answerCode ≠ "CURSOR_EXPIRED" := by
  simp [AppError.answerCode, AppError.intoResponse, AppError.validation]

theorem validateOps_error {ops : List Mutation} {previousSeq : Int} {opIds : List Uuid}
    {error : AppError} (h : validateOps ops previousSeq opIds = .error error) :
    error.answerCode ≠ "CURSOR_EXPIRED" := by
  induction ops generalizing previousSeq opIds with
  | nil => cases h
  | cons op rest ih =>
      unfold validateOps at h
      repeat' split at h
      · exact Except.error.inj h ▸ answerCode_sequenceMismatch _
      · exact Except.error.inj h ▸ answerCode_sequenceMismatch _
      · exact Except.error.inj h ▸ answerCode_sequenceMismatch _
      · exact ih h

theorem validateBatch_error {ops : List Mutation} {error : AppError}
    (h : validateBatch ops = .error error) : error.answerCode ≠ "CURSOR_EXPIRED" := by
  unfold validateBatch at h
  split at h
  · exact Except.error.inj h ▸ answerCode_validation _
  · exact validateOps_error h

theorem commitApplied_error {batch : Batch} {state : LoopState} {mutation : Mutation} {patch : Json}
    {entities : Entities} {error : AppError}
    (h : commitApplied batch state mutation patch entities = .error error) : error = .database := by
  simp only [commitApplied, bind_eq_error_iff, Db.insertChange, Db.insertReceipt] at h
  rcases h with h | ⟨db₁, -, h | ⟨db₂, -, h⟩⟩
  · split at h
    · exact (Except.error.inj h).symm
    · cases h
  · split at h
    · exact (Except.error.inj h).symm
    · cases h
  · cases h

theorem commitRejected_error {batch : Batch} {state : LoopState} {mutation : Mutation}
    {errorCode : String} {error : AppError}
    (h : commitRejected batch state mutation errorCode = .error error) : error = .database := by
  simp only [commitRejected, bind_eq_error_iff, Db.insertReceipt] at h
  rcases h with h | ⟨db, -, h⟩
  · split at h
    · exact (Except.error.inj h).symm
    · cases h
  · cases h

theorem decideOp_error {env : Env} {batch : Batch} {state : LoopState} {mutation : Mutation}
    {error : AppError} (h : decideOp env batch state mutation = .error error) : error = .database := by
  unfold decideOp at h
  split at h
  · exact commitApplied_error h
  · exact commitRejected_error h
  · exact commitRejected_error h
  · exact (Except.error.inj h).symm

theorem processOp_error {env : Env} {batch : Batch} {state : LoopState} {mutation : Mutation}
    {error : AppError} (h : processOp env batch state mutation = .error error) :
    error.answerCode ≠ "CURSOR_EXPIRED" := by
  unfold processOp at h
  repeat' split at h
  · exact Except.error.inj h ▸ answerCode_sequenceMismatch _
  · cases h
  · exact Except.error.inj h ▸ answerCode_sequenceMismatch _
  · cases h
  · exact Except.error.inj h ▸ answerCode_sequenceMismatch _
  · exact Except.error.inj h ▸ answerCode_sequenceMismatch _
  · rw [decideOp_error h]
    decide

theorem processOps_error {env : Env} {batch : Batch} {ops : List Mutation} {state : LoopState}
    {error : AppError} (h : processOps env batch ops state = .error error) :
    error.answerCode ≠ "CURSOR_EXPIRED" := by
  induction ops generalizing state with
  | nil => cases h
  | cons mutation rest ih =>
      rcases bind_eq_error_iff.mp h with hfirst | ⟨next, -, hrest⟩
      · exact processOp_error hfirst
      · exact ih hrest

theorem readLimit_error {body : SyncRequest} {error : AppError} (h : readLimit body = .error error) :
    error.answerCode ≠ "CURSOR_EXPIRED" := by
  unfold readLimit at h
  split at h
  · cases h
  · exact Except.error.inj h ▸ answerCode_validation _

theorem readCursor_error {body : SyncRequest} {error : AppError}
    (h : readCursor body = .error error) : error.answerCode ≠ "CURSOR_EXPIRED" := by
  unfold readCursor at h
  split at h
  · cases h
  · exact Except.error.inj h ▸ answerCode_validation _

theorem checkUser_error {db : Db} {userId : Uuid} {error : AppError}
    (h : checkUser db userId = .error error) : error = .unauthorizedSession := by
  unfold checkUser at h
  repeat' split at h
  · exact (Except.error.inj h).symm
  · exact (Except.error.inj h).symm
  · cases h

theorem selectDevice_error {db : Db} {auth : AuthUser} {error : AppError}
    (h : selectDevice db auth = .error error) : error.answerCode ≠ "CURSOR_EXPIRED" := by
  unfold selectDevice at h
  repeat' split at h
  · cases h
    decide
  · cases h
    decide
  · cases h

theorem checkCursor_error {syncState : SyncState} {cursor : Int} {error : AppError}
    (h : checkCursor syncState cursor = .error error) (hcode : error.answerCode = "CURSOR_EXPIRED") :
    cursor < syncState.minAvailableSeq - 1 := by
  unfold checkCursor at h
  repeat' split at h
  · cases h
    exact absurd hcode (by decide)
  · assumption
  · cases h

/-- The server calls a cursor expired only when it is older than what the log retains. -/
theorem sync_cursorExpired {env : Env} {clock : Clock} {auth : AuthUser} {body : SyncRequest}
    {db : Db} {error : AppError} (h : sync env clock auth body db = .error error)
    (hcode : error.answerCode = "CURSOR_EXPIRED") :
    ∃ cursor, ChangeCursor.parse body.cursor = some cursor ∧
      cursor < (db.syncState auth.userId).minAvailableSeq - 1 := by
  simp only [sync, bind_eq_error_iff] at h
  rcases h with hdevice | ⟨_, -, hlimit | ⟨limit, -, hbatch | ⟨_, -, hread | ⟨cursor, hcursor,
    huser | ⟨_, -, hcheck | ⟨_, -, hselect | ⟨device, -, hloop | ⟨final, -, hdone⟩⟩⟩⟩⟩⟩⟩⟩
  · rw [refuseIf_eq_error hdevice] at hcode
    exact absurd hcode (by decide)
  · exact absurd hcode (readLimit_error hlimit)
  · exact absurd hcode (validateBatch_error hbatch)
  · exact absurd hcode (readCursor_error hread)
  · rw [checkUser_error huser] at hcode
    exact absurd hcode (by decide)
  · refine ⟨cursor, readCursor_eq_ok hcursor, ?_⟩
    rw [syncState_ensureSyncState] at hcheck
    exact checkCursor_error hcheck hcode
  · exact absurd hcode (selectDevice_error hselect)
  · exact absurd hcode (processOps_error hloop)
  · cases hdone

end ShishiTodo
