import ShishiTodo.Server.Retention

/-!
# The newest change of an account

A device that asks for the changes after its cursor learns how far the log goes from the last row it is given, so it gets to the account's last sequence only while the log still holds that sequence. A prune may delete an old row and keep a younger one with a smaller sequence; the newest change stays readable as long as no prune takes it and leaves another row of the account behind.
-/

namespace ShishiTodo

open Lib

/-- The last sequence the account was given. -/
def Db.lastSeq (db : Db) (userId : Uuid) : Int := (db.syncState userId).nextServerSeq - 1

/-- What holds of an account's log in every state of the server. -/
structure LogStanding (db : Db) (userId : Uuid) : Prop where
  recorded : ∃ past, History db past
  min_le_next : (db.syncState userId).minAvailableSeq ≤ (db.syncState userId).nextServerSeq
  min_le_row : ∀ row ∈ accountLog db userId,
    (db.syncState userId).minAvailableSeq ≤ row.serverSeq

/-- The newest change is in the log, or every accepted cursor is past it. -/
def Tip (db : Db) (userId : Uuid) : Prop :=
  db.lastSeq userId ≤ max 0 ((db.syncState userId).minAvailableSeq - 1) ∨
    ∃ row ∈ accountLog db userId, row.serverSeq = db.lastSeq userId

/-- A prune that deletes the account's newest change leaves none of its changes. -/
def KeepsTip (userId : Uuid) (db : Db) : ServerEvent → Prop
  | .pruneChangeLog cutoff batchSize =>
      (∃ row ∈ db.pruneSelection cutoff batchSize,
        row.userId = userId ∧ row.serverSeq = db.lastSeq userId) →
      ∀ row ∈ accountLog db userId, row ∈ db.pruneSelection cutoff batchSize
  | _ => True

instance (userId : Uuid) (db : Db) (event : ServerEvent) : Decidable (KeepsTip userId db event) := by
  unfold KeepsTip
  split <;> infer_instance

/-! ### The bounds of a log -/

theorem History.given_of_mem {db : Db} {past : List OpStep} (h : History db past) {userId : Uuid}
    {row : ChangeRow} (hrow : row ∈ accountLog db userId) : row ∈ givenTo past userId := by
  obtain ⟨hmem, huser⟩ := List.mem_filter.mp hrow
  exact List.mem_filter.mpr ⟨h.retained row hmem, huser⟩

theorem History.le_lastSeq {db : Db} {past : List OpStep} (h : History db past) {userId : Uuid} :
    ∀ row ∈ accountLog db userId, row.serverSeq ≤ db.lastSeq userId := by
  intro row hrow
  have hseq := List.mem_map_of_mem (f := ChangeRow.serverSeq) (h.given_of_mem hrow)
  rw [(h.sequence userId).2, Int.mem_range_iff] at hseq
  unfold Db.lastSeq
  omega

theorem LogStanding.le_lastSeq {db : Db} {userId : Uuid} (h : LogStanding db userId) :
    ∀ row ∈ accountLog db userId, row.serverSeq ≤ db.lastSeq userId := by
  obtain ⟨past, hpast⟩ := h.recorded
  exact hpast.le_lastSeq

/-! ### What a step keeps -/

theorem lastSeq_pruneChangeLog (db : Db) (cutoff : Instant) (batchSize : Nat) (userId : Uuid) :
    (db.pruneChangeLog cutoff batchSize).lastSeq userId = db.lastSeq userId := by
  rw [Db.lastSeq, pruneChangeLog_syncState]
  split <;> rfl

/-- The oldest row that is left is none above the next sequence. -/
theorem LogStanding.pruneChangeLog {db : Db} {userId : Uuid} (h : LogStanding db userId)
    (cutoff : Instant) (batchSize : Nat) :
    LogStanding (db.pruneChangeLog cutoff batchSize) userId := by
  obtain ⟨past, hpast⟩ := h.recorded
  have hpruned := hpast.pruneChangeLog cutoff batchSize
  have hbelow : ∀ row ∈ accountLog (db.pruneChangeLog cutoff batchSize) userId,
      row.serverSeq ≤ (db.pruneChangeLog cutoff batchSize).lastSeq userId := hpruned.le_lastSeq
  rw [lastSeq_pruneChangeLog] at hbelow
  unfold Db.lastSeq at hbelow
  have hkept : ∀ row ∈ accountLog (db.pruneChangeLog cutoff batchSize) userId,
      row ∈ accountLog db userId := by
    intro row hrow
    rw [accountLog_pruneChangeLog] at hrow
    exact (List.mem_filter.mp hrow).1
  refine ⟨⟨past, hpruned⟩, ?_, ?_⟩
  · rw [pruneChangeLog_syncState]
    split
    · change max _ _ ≤ (db.syncState userId).nextServerSeq
      refine max_le h.min_le_next ?_
      cases holdest : ((accountLog (db.pruneChangeLog cutoff batchSize) userId).map
          ChangeRow.serverSeq).min? with
      | none => exact le_rfl
      | some oldest =>
          obtain ⟨row, hrow, hseq⟩ := List.mem_map.mp (List.min?_mem holdest)
          have hle := hbelow row hrow
          change oldest ≤ _
          omega
    · exact h.min_le_next
  · intro row hrow
    rw [pruneChangeLog_syncState]
    split
    · change max _ _ ≤ row.serverSeq
      refine max_le (h.min_le_row row (hkept row hrow)) ?_
      have hmem := List.mem_map_of_mem (f := ChangeRow.serverSeq) hrow
      cases holdest : ((accountLog (db.pruneChangeLog cutoff batchSize) userId).map
          ChangeRow.serverSeq).min? with
      | none =>
          rw [List.min?_eq_none_iff.mp holdest] at hmem
          cases hmem
      | some oldest => exact (List.min?_eq_some_iff.mp holdest).2 _ hmem
    · exact h.min_le_row row (hkept row hrow)

theorem Tip.pruneChangeLog {db : Db} {userId : Uuid} (h : Tip db userId) {cutoff : Instant}
    {batchSize : Nat} (hkeeps : KeepsTip userId db (.pruneChangeLog cutoff batchSize)) :
    Tip (db.pruneChangeLog cutoff batchSize) userId := by
  have hnext := lastSeq_pruneChangeLog db cutoff batchSize userId
  have hstate := pruneChangeLog_syncState db cutoff batchSize userId
  rw [Tip, hnext, accountLog_pruneChangeLog]
  rcases h with hpast | ⟨tip, htip, hseq⟩
  · left
    rw [hstate]
    split
    · exact hpast.trans (max_le_max_left 0 (Int.sub_le_sub_right (le_max_left _ _) 1))
    · exact hpast
  · by_cases hselected : tip ∈ db.pruneSelection cutoff batchSize
    · have huser : tip.userId = userId := beq_iff_eq.mp (List.mem_filter.mp htip).2
      have hall := hkeeps ⟨tip, hselected, huser, hseq⟩
      have hnone : accountLog (db.pruneChangeLog cutoff batchSize) userId = [] := by
        rw [accountLog_pruneChangeLog]
        refine List.filter_eq_nil_iff.mpr fun row hrow => ?_
        simpa using hall row hrow
      left
      rw [hstate, if_pos (List.mem_map.mpr ⟨tip, hselected, huser⟩), hnone]
      change _ ≤ max 0 (max (db.syncState userId).minAvailableSeq
        (db.syncState userId).nextServerSeq - 1)
      unfold Db.lastSeq
      omega
    · exact .inr ⟨tip, List.mem_filter.mpr ⟨htip, by simpa using hselected⟩, hseq⟩

section Request

variable {env : Env} {clock : Clock} {auth : AuthUser} {body : SyncRequest} {db : Db} {userId : Uuid}

theorem Committed.minAvailableSeq_eq (committed : Committed env clock auth body db) (userId : Uuid) :
    (committed.result.syncState userId).minAvailableSeq = (db.syncState userId).minAvailableSeq := by
  rw [committed.result_syncState]
  split
  · rename_i hid
    rw [hid]
  · rfl

theorem Committed.lastSeq_le (committed : Committed env clock auth body db) (userId : Uuid) :
    db.lastSeq userId ≤ committed.result.lastSeq userId := by
  have hle : (db.syncState auth.userId).nextServerSeq ≤ committed.final.nextServerSeq := by
    have hstart : committed.start.nextServerSeq = (db.syncState auth.userId).nextServerSeq :=
      congrArg SyncState.nextServerSeq (syncState_ensureSyncState db auth.userId auth.userId)
    exact hstart ▸ committed.loopHistory.sequence_le
  unfold Db.lastSeq
  rw [committed.result_syncState]
  split
  · rename_i hid
    rw [hid]
    exact Int.sub_le_sub_right hle 1
  · exact le_rfl

/-- A request logs nothing above its last sequence and reaches it when it logs at all. -/
theorem Tip.request (h : Tip db userId) (committed : Committed env clock auth body db) :
    Tip committed.result userId := by
  have hmin := committed.minAvailableSeq_eq userId
  have hold : ∀ row ∈ accountLog db userId, row ∈ accountLog committed.result userId := by
    intro row hrow
    rw [accountLog, committed.result_changeLog, List.filter_append]
    exact List.mem_append_left _ hrow
  by_cases hgrown : committed.result.lastSeq userId = db.lastSeq userId
  · rw [Tip, hgrown, hmin]
    exact h.imp_right fun htip => htip.imp fun row hrow => ⟨hold row hrow.1, hrow.2⟩
  · have hid : userId = auth.userId := by
      by_contra hother
      apply hgrown
      rw [Db.lastSeq, committed.result_syncState, if_neg hother, Db.lastSeq]
    subst hid
    have hloop := committed.loopHistory
    have hstart : committed.start.nextServerSeq = (db.syncState auth.userId).nextServerSeq :=
      congrArg SyncState.nextServerSeq (syncState_ensureSyncState db auth.userId auth.userId)
    have hsequence := hloop.sequence
    have hlast : committed.result.lastSeq auth.userId = committed.final.nextServerSeq - 1 := by
      rw [Db.lastSeq, committed.result_syncState, if_pos rfl]
    have hle := committed.lastSeq_le auth.userId
    have hmem : committed.final.nextServerSeq - 1 ∈
        (committed.steps.flatMap OpStep.logged).map ChangeRow.serverSeq := by
      rw [hsequence, Int.mem_range_iff, hstart]
      unfold Db.lastSeq at hgrown hle hlast
      omega
    obtain ⟨row, hrow, hseq⟩ := List.mem_map.mp hmem
    right
    refine ⟨row, ?_, hseq.trans hlast.symm⟩
    rw [accountLog, committed.result_changeLog, List.filter_append]
    refine List.mem_append_right _ (List.mem_filter.mpr ⟨hrow, ?_⟩)
    exact beq_iff_eq.mpr (hloop.owner row hrow)

theorem LogStanding.request (h : LogStanding db userId)
    (committed : Committed env clock auth body db)
    (hrecorded : ∃ past, History committed.result past) : LogStanding committed.result userId := by
  have hmin := h.min_le_next
  refine ⟨hrecorded, ?_, ?_⟩
  · have hle := committed.lastSeq_le userId
    unfold Db.lastSeq at hle
    rw [committed.minAvailableSeq_eq]
    omega
  · intro row hrow
    rw [committed.minAvailableSeq_eq]
    obtain ⟨hmem, huser⟩ := List.mem_filter.mp hrow
    rw [committed.result_changeLog] at hmem
    rcases List.mem_append.mp hmem with hold | hnew
    · exact h.min_le_row row (List.mem_filter.mpr ⟨hold, huser⟩)
    · have howner : row.userId = auth.userId := committed.loopHistory.owner row hnew
      have hseq := List.mem_map_of_mem (f := ChangeRow.serverSeq) hnew
      have hstart : committed.start.nextServerSeq = (db.syncState auth.userId).nextServerSeq :=
        congrArg SyncState.nextServerSeq (syncState_ensureSyncState db auth.userId auth.userId)
      rw [committed.loopHistory.sequence, Int.mem_range_iff, hstart, ← howner,
        beq_iff_eq.mp huser] at hseq
      omega

end Request

/-- A transaction that leaves the account's counters alone and logs nothing. -/
theorem Tip.frame {db next : Db} {userId : Uuid} (h : Tip db userId)
    (hstates : next.syncState userId = db.syncState userId)
    (hlog : next.changeLog = db.changeLog) : Tip next userId := by
  rw [Tip, Db.lastSeq, hstates, accountLog, hlog]
  exact h

theorem signUp_frame (db : Db) (userId other : Uuid) :
    (db.signUp userId).syncState other = db.syncState other ∧
      (db.signUp userId).changeLog = db.changeLog := by
  unfold Db.signUp
  split <;> exact ⟨rfl, rfl⟩

theorem signIn_frame (db : Db) (auth : AuthUser) (other : Uuid) :
    (db.signIn auth).syncState other = db.syncState other ∧
      (db.signIn auth).changeLog = db.changeLog := by
  unfold Db.signIn
  repeat' split
  all_goals exact ⟨rfl, rfl⟩

theorem revokeDevice_frame (db : Db) (auth : AuthUser) (now : Instant) (other : Uuid) :
    (db.revokeDevice auth now).syncState other = db.syncState other ∧
      (db.revokeDevice auth now).changeLog = db.changeLog := by
  unfold Db.revokeDevice
  repeat' split
  all_goals exact ⟨rfl, rfl⟩

/-- Every step but a request and a prune. -/
def ServerEvent.Quiet : ServerEvent → Prop
  | .request .. => False
  | .pruneChangeLog .. => False
  | _ => True

theorem quiet_frame (env : Env) (db : Db) {event : ServerEvent} (h : event.Quiet) (userId : Uuid) :
    (serverStep env db event).syncState userId = db.syncState userId ∧
      (serverStep env db event).changeLog = db.changeLog := by
  cases event with
  | signUp other => exact signUp_frame db other userId
  | signIn auth => exact signIn_frame db auth userId
  | revokeDevice auth now => exact revokeDevice_frame db auth now userId
  | cleanupReceipts cutoff chosen => exact ⟨rfl, rfl⟩
  | request clock auth body => exact h.elim
  | pruneChangeLog cutoff batchSize => exact h.elim

theorem LogStanding.step {env : Env} {db : Db} {userId : Uuid} (h : LogStanding db userId)
    (event : ServerEvent) : LogStanding (serverStep env db event) userId := by
  have hrecorded : ∃ past, History (serverStep env db event) past :=
    h.recorded.elim fun past hpast => ⟨_, hpast.step event⟩
  by_cases hquiet : event.Quiet
  · obtain ⟨hstates, hlog⟩ := quiet_frame env db hquiet userId
    refine ⟨hrecorded, ?_, ?_⟩
    · rw [hstates]
      exact h.min_le_next
    · rw [hstates, accountLog, hlog]
      exact h.min_le_row
  cases event with
  | pruneChangeLog cutoff batchSize => exact h.pruneChangeLog cutoff batchSize
  | request clock auth body =>
      change LogStanding (serveSync env clock auth body db).2 userId
      cases hsync : sync env clock auth body db with
      | error error => simpa [serveSync, hsync] using h
      | ok answer =>
          obtain ⟨committed, hnext, -⟩ := sync_eq_ok hsync
          have hresult : (serveSync env clock auth body db).2 = committed.result := by
            rw [serveSync, hsync]
            exact hnext
          rw [hresult]
          exact h.request committed (hresult ▸ hrecorded)
  | _ => exact absurd trivial hquiet

theorem Tip.step {env : Env} {db : Db} {userId : Uuid} (h : Tip db userId) {event : ServerEvent}
    (hkeeps : KeepsTip userId db event) : Tip (serverStep env db event) userId := by
  by_cases hquiet : event.Quiet
  · obtain ⟨hstates, hlog⟩ := quiet_frame env db hquiet userId
    exact h.frame hstates hlog
  cases event with
  | pruneChangeLog cutoff batchSize => exact h.pruneChangeLog hkeeps
  | request clock auth body =>
      change Tip (serveSync env clock auth body db).2 userId
      cases hsync : sync env clock auth body db with
      | error error => simpa [serveSync, hsync] using h
      | ok answer =>
          obtain ⟨committed, hnext, -⟩ := sync_eq_ok hsync
          have hresult : (serveSync env clock auth body db).2 = committed.result := by
            rw [serveSync, hsync]
            exact hnext
          rw [hresult]
          exact h.request committed
  | _ => exact absurd trivial hquiet

theorem LogStanding.ensureSyncState {db : Db} {userId : Uuid} (h : LogStanding db userId)
    (other : Uuid) (hrecorded : ∃ past, History (db.ensureSyncState other) past) :
    LogStanding (db.ensureSyncState other) userId := by
  refine ⟨hrecorded, ?_, ?_⟩
  · rw [syncState_ensureSyncState]
    exact h.min_le_next
  · rw [syncState_ensureSyncState]
    exact h.min_le_row

/-! ### Runs -/

theorem LogStanding.empty (userId : Uuid) : LogStanding Db.empty userId :=
  ⟨⟨[], .empty⟩, by simp [Db.syncState, Db.empty, SyncState.default],
    by simp [accountLog, Db.empty]⟩

theorem Tip.empty (userId : Uuid) : Tip Db.empty userId := by
  left
  simp [Db.lastSeq, Db.syncState, Db.empty, SyncState.default]

theorem logStanding_run (env : Env) (events : List ServerEvent) (userId : Uuid) :
    LogStanding ((server env).run Db.empty events) userId :=
  (server env).invariant (fun db _ => LogStanding db userId)
    (fun _ _ event h => h.step event) (.empty userId) events

/-- In a run whose prunes keep the newest change, it stays readable. -/
theorem tip_run (env : Env) (events : List ServerEvent) {userId : Uuid}
    (hkeeps : (server env).Along (KeepsTip userId) Db.empty events) :
    Tip ((server env).run Db.empty events) userId :=
  (server env).invariant_along (KeepsTip userId) (fun db _ => Tip db userId)
    (fun _ _ _ h hevent => h.step hevent) events Db.empty [] (.empty userId) hkeeps

end ShishiTodo
