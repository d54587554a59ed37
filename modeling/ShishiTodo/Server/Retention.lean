import ShishiTodo.Codecs
import ShishiTodo.Server.ExactlyOnce
import ShishiTodo.Lib.Sorted
import Mathlib.Data.List.Dedup

/-!
# Pruning the change log

`prune_change_log` deletes by `created_at`, the start of the transaction that wrote a row; a cursor is read by `server_seq`, which that transaction got later, under the account's lock. The log keeps no gap as long as the two orders agree on what a prune deletes, and a prune that finds them disagreeing can leave one.
-/

namespace ShishiTodo

open Lib

/-- An account's rows of the change log. -/
def accountLog (db : Db) (userId : Uuid) : List ChangeRow :=
  db.changeLog.filter fun row => row.userId == userId

/-- An account's log holds every sequence from the oldest readable one up to the next. -/
structure Gapless (db : Db) (userId : Uuid) : Prop where
  min_nonneg : 0 ≤ (db.syncState userId).minAvailableSeq
  min_le_next : (db.syncState userId).minAvailableSeq ≤ (db.syncState userId).nextServerSeq
  next_pos : 1 ≤ (db.syncState userId).nextServerSeq
  sequences : (accountLog db userId).map ChangeRow.serverSeq =
    Int.range (max 1 (db.syncState userId).minAvailableSeq) (db.syncState userId).nextServerSeq

/-- A cursor that is accepted skips no change, and one whose next change is gone is refused as expired. -/
structure CursorSound (db : Db) (userId : Uuid) : Prop where
  served : ∀ cursor, 0 ≤ cursor → checkCursor (db.syncState userId) cursor = .ok () →
    (db.changesAfter userId cursor).map ChangeRow.serverSeq =
      Int.range (cursor + 1) (db.syncState userId).nextServerSeq
  refused : ∀ cursor, 0 ≤ cursor → cursor + 1 < max 1 (db.syncState userId).minAvailableSeq →
    checkCursor (db.syncState userId) cursor = .error .cursorExpired

/-- No row the cutoff reaches was written by a transaction that started before the one of an earlier sequence. -/
def InOrderBelow (db : Db) (cutoff : Instant) : Prop :=
  ∀ early ∈ db.changeLog, ∀ late ∈ db.changeLog, early.userId = late.userId →
    early.serverSeq < late.serverSeq → late.createdAt.nanos < cutoff.nanos →
    early.createdAt.nanos ≤ late.createdAt.nanos

/-- The condition on the steps of a run: each prune finds the two orders in agreement. -/
def PrunesInOrder (db : Db) : ServerEvent → Prop
  | .pruneChangeLog cutoff _ => InOrderBelow db cutoff
  | _ => True

/-! ### Accepted cursors -/

theorem checkCursor_eq_ok_iff {syncState : SyncState} {cursor : Int} :
    checkCursor syncState cursor = .ok () ↔
      cursor < syncState.nextServerSeq ∧ syncState.minAvailableSeq - 1 ≤ cursor := by
  simp only [checkCursor, ite_error_eq_ok_iff]
  constructor
  · rintro ⟨hahead, hbehind, -⟩
    omega
  · rintro ⟨hahead, hbehind⟩
    exact ⟨by omega, by omega, trivial⟩

theorem changesAfter_eq_filter {db : Db} {userId : Uuid} (cursor : Int)
    (hsorted : ((accountLog db userId).map ChangeRow.serverSeq).Pairwise (· < ·)) :
    db.changesAfter userId cursor =
      (accountLog db userId).filter fun row => decide (cursor + 1 ≤ row.serverSeq) := by
  have hfilter : (db.changeLog.filter fun row => row.userId == userId && cursor < row.serverSeq) =
      (accountLog db userId).filter fun row => decide (cursor + 1 ≤ row.serverSeq) := by
    rw [accountLog, List.filter_filter]
    refine List.filter_congr fun row _ => ?_
    rw [Bool.and_comm]
    rfl
  rw [Db.changesAfter, hfilter]
  rw [List.pairwise_map] at hsorted
  have hle : (accountLog db userId).Pairwise fun a b => a.serverSeq ≤ b.serverSeq :=
    hsorted.imp fun h => le_of_lt h
  exact (hle.filter _).insertionSort_eq

theorem Gapless.cursorSound {db : Db} {userId : Uuid} (h : Gapless db userId) :
    CursorSound db userId where
  served cursor hpos haccepted := by
    obtain ⟨hahead, hbehind⟩ := checkCursor_eq_ok_iff.mp haccepted
    have hsorted : ((accountLog db userId).map ChangeRow.serverSeq).Pairwise (· < ·) := by
      rw [h.sequences]
      exact pairwise_lt_range _ _
    rw [changesAfter_eq_filter cursor hsorted]
    exact map_filter_ge_range h.sequences (by omega) (by omega)
  refused cursor hpos hgone := by
    have hnext := h.min_le_next
    rw [checkCursor, if_neg (by omega), if_pos (by omega)]

/-! ### One prune -/

theorem Uuid.lt_total (left right : Uuid) :
    left.lt right = true ∨ left = right ∨ right.lt left = true := by
  simp only [Uuid.lt, decide_eq_true_eq]
  rcases Nat.lt_trichotomy left.bits.toNat right.bits.toNat with h | h | h
  · exact .inl h
  · refine .inr (.inl ?_)
    cases left
    cases right
    exact congrArg Uuid.mk (BitVec.eq_of_toNat_eq h)
  · exact .inr (.inr h)

theorem Uuid.lt_trans {left middle right : Uuid} (h₁ : left.lt middle = true)
    (h₂ : middle.lt right = true) : left.lt right = true := by
  simp only [Uuid.lt, decide_eq_true_eq] at h₁ h₂ ⊢
  omega

instance : Std.Total pruneOrder where
  total left right := by
    unfold pruneOrder
    rcases Uuid.lt_total left.userId right.userId with h | h | h
    · rcases Int.lt_trichotomy left.createdAt.nanos right.createdAt.nanos with ht | ht | ht <;>
        simp [h, ht]
    · have hseq := le_total left.serverSeq right.serverSeq
      rcases Int.lt_trichotomy left.createdAt.nanos right.createdAt.nanos with ht | ht | ht
      · simp [ht]
      · rcases hseq with hle | hle <;> simp [h, ht, hle]
      · simp [ht]
    · rcases Int.lt_trichotomy left.createdAt.nanos right.createdAt.nanos with ht | ht | ht <;>
        simp [h, ht]

instance : IsTrans ChangeRow pruneOrder where
  trans a b c := by
    unfold pruneOrder
    rintro (h₁ | ⟨t₁, h₁⟩) (h₂ | ⟨t₂, h₂⟩)
    · exact .inl (by omega)
    · exact .inl (by omega)
    · exact .inl (by omega)
    · refine .inr ⟨by omega, ?_⟩
      rcases h₁ with h₁ | ⟨u₁, h₁⟩ <;> rcases h₂ with h₂ | ⟨u₂, h₂⟩
      · exact .inl (Uuid.lt_trans h₁ h₂)
      · exact .inl (u₂ ▸ h₁)
      · exact .inl (u₁ ▸ h₂)
      · exact .inr ⟨u₁.trans u₂, h₁.trans h₂⟩

theorem pruneSelection_sorted (db : Db) (cutoff : Instant) :
    ((db.changeLog.filter fun row => row.createdAt.nanos < cutoff.nanos).insertionSort
      pruneOrder).Pairwise pruneOrder :=
  List.pairwise_insertionSort pruneOrder _

theorem mem_pruneSelection {db : Db} {cutoff : Instant} {batchSize : Nat} {row : ChangeRow}
    (h : row ∈ db.pruneSelection cutoff batchSize) :
    row ∈ db.changeLog ∧ row.createdAt.nanos < cutoff.nanos := by
  have hmem := (List.mem_insertionSort _).mp (List.mem_of_mem_take h)
  simpa using hmem

/-- Where the two orders agree, a selected row takes every earlier row of its account with it. -/
theorem InOrderBelow.selected {db : Db} {cutoff : Instant} (h : InOrderBelow db cutoff)
    {batchSize : Nat} {early late : ChangeRow} (hearly : early ∈ db.changeLog)
    (hlate : late ∈ db.pruneSelection cutoff batchSize) (huser : early.userId = late.userId)
    (hseq : early.serverSeq < late.serverSeq) : early ∈ db.pruneSelection cutoff batchSize := by
  obtain ⟨hmem, hreached⟩ := mem_pruneSelection hlate
  have hstart := h early hearly late hmem huser hseq hreached
  refine mem_take_of_not_rel (pruneSelection_sorted db cutoff) ?_ hlate ?_
  · rw [List.mem_insertionSort]
    exact List.mem_filter.mpr ⟨hearly, by simpa using hstart.trans_lt hreached⟩
  · rintro (hlt | ⟨-, hlt | ⟨-, hle⟩⟩)
    · omega
    · rw [huser, Uuid.lt] at hlt
      simp at hlt
    · omega

theorem raiseMinAvailable_syncState (db : Db) (userId other : Uuid) :
    (db.raiseMinAvailable userId).syncState other =
      if other = userId then
        { db.syncState userId with
          minAvailableSeq := max (db.syncState userId).minAvailableSeq (db.oldestRetained userId) }
      else db.syncState other := by
  rw [Db.raiseMinAvailable, syncState_insert]

/-- Raising an account's oldest sequence twice is raising it once. -/
theorem foldl_raiseMinAvailable_syncState (userIds : List Uuid) (hnodup : userIds.Nodup) (db : Db)
    (other : Uuid) :
    (userIds.foldl Db.raiseMinAvailable db).syncState other =
      if other ∈ userIds then
        { db.syncState other with
          minAvailableSeq := max (db.syncState other).minAvailableSeq (db.oldestRetained other) }
      else db.syncState other := by
  induction userIds generalizing db with
  | nil => simp
  | cons userId rest ih =>
      obtain ⟨hnotMem, hrest⟩ := List.nodup_cons.mp hnodup
      rw [List.foldl_cons, ih hrest, raiseMinAvailable_syncState]
      by_cases hother : other = userId
      · subst hother
        rw [if_neg hnotMem, if_pos rfl, if_pos List.mem_cons_self]
      · have holdest : (db.raiseMinAvailable userId).oldestRetained other =
            db.oldestRetained other := by
          simp only [Db.oldestRetained, raiseMinAvailable_nextServerSeq]
          rfl
        rw [if_neg hother, holdest]
        by_cases hmem : other ∈ rest
        · rw [if_pos hmem, if_pos (List.mem_cons_of_mem userId hmem)]
        · rw [if_neg hmem, if_neg (List.not_mem_cons_of_ne_of_not_mem hother hmem)]

theorem pruneChangeLog_changeLog (db : Db) (cutoff : Instant) (batchSize : Nat) :
    (db.pruneChangeLog cutoff batchSize).changeLog =
      db.changeLog.filter fun row => !(db.pruneSelection cutoff batchSize).contains row :=
  (foldl_raiseMinAvailable _ _).2.2.2.2.1

theorem accountLog_pruneChangeLog (db : Db) (cutoff : Instant) (batchSize : Nat) (userId : Uuid) :
    accountLog (db.pruneChangeLog cutoff batchSize) userId =
      (accountLog db userId).filter fun row =>
        !(db.pruneSelection cutoff batchSize).contains row := by
  rw [accountLog, pruneChangeLog_changeLog, accountLog, List.filter_filter, List.filter_filter]
  exact List.filter_congr fun row _ => Bool.and_comm ..

/-- The database a prune leaves before it raises the oldest sequences. -/
def Db.withoutSelected (db : Db) (cutoff : Instant) (batchSize : Nat) : Db :=
  { db with changeLog :=
      db.changeLog.filter fun row => !(db.pruneSelection cutoff batchSize).contains row }

theorem pruneChangeLog_syncState (db : Db) (cutoff : Instant) (batchSize : Nat) (userId : Uuid) :
    (db.pruneChangeLog cutoff batchSize).syncState userId =
      if userId ∈ (db.pruneSelection cutoff batchSize).map ChangeRow.userId then
        { db.syncState userId with
          minAvailableSeq := max (db.syncState userId).minAvailableSeq
            ((((accountLog (db.pruneChangeLog cutoff batchSize) userId).map
              ChangeRow.serverSeq).min?).getD (db.syncState userId).nextServerSeq) }
      else db.syncState userId := by
  have hfold := foldl_raiseMinAvailable_syncState
    ((db.pruneSelection cutoff batchSize).map ChangeRow.userId).dedup (List.nodup_dedup _)
    (db.withoutSelected cutoff batchSize) userId
  have holdest : (db.withoutSelected cutoff batchSize).oldestRetained userId =
      (((accountLog (db.pruneChangeLog cutoff batchSize) userId).map
        ChangeRow.serverSeq).min?).getD (db.syncState userId).nextServerSeq := by
    rw [accountLog, pruneChangeLog_changeLog]
    rfl
  rw [holdest] at hfold
  simp only [List.mem_dedup] at hfold
  exact hfold

theorem Gapless.pruneChangeLog {db : Db} {userId : Uuid} (h : Gapless db userId) {cutoff : Instant}
    (horder : InOrderBelow db cutoff) (batchSize : Nat) :
    Gapless (db.pruneChangeLog cutoff batchSize) userId := by
  have hmax : max 1 (db.syncState userId).minAvailableSeq ≤ (db.syncState userId).nextServerSeq :=
    max_le h.next_pos h.min_le_next
  obtain ⟨middle, hfirst, hnext, hkept⟩ := map_filter_range
    (fun row => !(db.pruneSelection cutoff batchSize).contains row) hmax h.sequences (by
      intro early hearly late hlate hlt hkeep
      simp only [Bool.not_eq_true', List.contains_eq_mem, decide_eq_false_iff_not] at hkeep ⊢
      intro hselected
      have huser : early.userId = late.userId := by
        rw [beq_iff_eq.mp (List.mem_filter.mp hearly).2, beq_iff_eq.mp (List.mem_filter.mp hlate).2]
      exact hkeep (horder.selected (List.mem_filter.mp hearly).1 hselected huser hlt))
  rw [← accountLog_pruneChangeLog] at hkept
  by_cases haffected : userId ∈ (db.pruneSelection cutoff batchSize).map ChangeRow.userId
  · have hstate := pruneChangeLog_syncState db cutoff batchSize userId
    rw [if_pos haffected, hkept, min?_range hnext,
      max_eq_right ((le_max_right 1 _).trans hfirst)] at hstate
    have hpos : 1 ≤ middle := (le_max_left 1 _).trans hfirst
    exact {
      min_nonneg := by rw [hstate]; change 0 ≤ middle; omega
      min_le_next := by rw [hstate]; exact hnext
      next_pos := by rw [hstate]; exact h.next_pos
      sequences := by rw [hstate, hkept, max_eq_right hpos] }
  · have hstate := pruneChangeLog_syncState db cutoff batchSize userId
    rw [if_neg haffected] at hstate
    have hall : accountLog (db.pruneChangeLog cutoff batchSize) userId = accountLog db userId := by
      rw [accountLog_pruneChangeLog]
      refine List.filter_eq_self.mpr fun row hrow => ?_
      simp only [Bool.not_eq_true', List.contains_eq_mem, decide_eq_false_iff_not]
      intro hselected
      refine haffected (List.mem_map.mpr ⟨row, hselected, ?_⟩)
      exact beq_iff_eq.mp (List.mem_filter.mp hrow).2
    exact {
      min_nonneg := by rw [hstate]; exact h.min_nonneg
      min_le_next := by rw [hstate]; exact h.min_le_next
      next_pos := by rw [hstate]; exact h.next_pos
      sequences := by rw [hstate, hall]; exact h.sequences }

/-! ### Every other step -/

theorem Gapless.frame {db next : Db} {userId : Uuid} (h : Gapless db userId)
    (hstates : next.syncState userId = db.syncState userId)
    (hlog : next.changeLog = db.changeLog) : Gapless next userId where
  min_nonneg := by rw [hstates]; exact h.min_nonneg
  min_le_next := by rw [hstates]; exact h.min_le_next
  next_pos := by rw [hstates]; exact h.next_pos
  sequences := by rw [hstates, accountLog, hlog]; exact h.sequences

theorem Gapless.request {env : Env} {clock : Clock} {auth : AuthUser} {body : SyncRequest} {db : Db}
    {userId : Uuid} (h : Gapless db userId) (committed : Committed env clock auth body db) :
    Gapless committed.result userId := by
  have hloop := committed.loopHistory
  have hlog : accountLog committed.result userId = accountLog db userId ++
      (committed.steps.flatMap OpStep.logged).filter fun row => row.userId == userId := by
    rw [accountLog, committed.result_changeLog, List.filter_append]
    rfl
  have hstate := committed.result_syncState userId
  by_cases hid : userId = auth.userId
  · subst hid
    rw [if_pos rfl] at hstate
    have hstart : committed.start.nextServerSeq = (db.syncState auth.userId).nextServerSeq :=
      congrArg SyncState.nextServerSeq (syncState_ensureSyncState db auth.userId auth.userId)
    have hle := hloop.sequence_le
    have hsequence := hloop.sequence
    rw [hstart] at hle hsequence
    have hall : ((committed.steps.flatMap OpStep.logged).filter fun row =>
        row.userId == auth.userId) = committed.steps.flatMap OpStep.logged :=
      List.filter_eq_self.mpr fun row hrow => beq_iff_eq.mpr (hloop.owner row hrow)
    exact {
      min_nonneg := by rw [hstate]; exact h.min_nonneg
      min_le_next := by rw [hstate]; exact h.min_le_next.trans hle
      next_pos := by rw [hstate]; exact h.next_pos.trans hle
      sequences := by
        rw [hstate, hlog, hall, List.map_append, h.sequences, hsequence]
        exact range_append (max_le h.next_pos h.min_le_next) hle }
  · rw [if_neg hid] at hstate
    have hnone : ((committed.steps.flatMap OpStep.logged).filter fun row =>
        row.userId == userId) = [] := by
      refine List.filter_eq_nil_iff.mpr fun row hrow hby => hid ?_
      rw [← beq_iff_eq.mp hby]
      exact hloop.owner row hrow
    rw [hnone, List.append_nil] at hlog
    exact {
      min_nonneg := by rw [hstate]; exact h.min_nonneg
      min_le_next := by rw [hstate]; exact h.min_le_next
      next_pos := by rw [hstate]; exact h.next_pos
      sequences := by rw [hstate, hlog]; exact h.sequences }

theorem Gapless.step {env : Env} {db : Db} {event : ServerEvent} {userId : Uuid}
    (h : Gapless db userId) (horder : PrunesInOrder db event) :
    Gapless ((server env).step db event) userId := by
  cases event with
  | signUp other =>
      refine h.frame ?_ ?_ <;> (simp only [server, serverStep, Db.signUp]; split <;> rfl)
  | signIn auth =>
      refine h.frame ?_ ?_ <;>
        (simp only [server, serverStep, Db.signIn]; repeat' split) <;> rfl
  | revokeDevice auth now =>
      refine h.frame ?_ ?_ <;>
        (simp only [server, serverStep, Db.revokeDevice]; repeat' split) <;> rfl
  | cleanupReceipts cutoff chosen => exact h.frame rfl rfl
  | pruneChangeLog cutoff batchSize => exact h.pruneChangeLog horder batchSize
  | request clock auth body =>
      change Gapless (serveSync env clock auth body db).2 userId
      cases hsync : sync env clock auth body db with
      | error error => simpa [serveSync, hsync] using h
      | ok answer =>
          obtain ⟨committed, hnext, -⟩ := sync_eq_ok hsync
          have hresult : (serveSync env clock auth body db).2 = committed.result := by
            rw [serveSync, hsync]
            exact hnext
          rw [hresult]
          exact h.request committed

theorem Gapless.empty (userId : Uuid) : Gapless Db.empty userId where
  min_nonneg := by simp [Db.syncState, Db.empty, SyncState.default]
  min_le_next := by simp [Db.syncState, Db.empty, SyncState.default]
  next_pos := by simp [Db.syncState, Db.empty, SyncState.default]
  sequences := by simp [Db.syncState, Db.empty, SyncState.default, accountLog, range_self]

/-- In a run whose prunes all find the orders in agreement, every account's log stays gapless and every cursor is answered soundly. -/
theorem pruned_log_sound (env : Env) (events : List ServerEvent)
    (horder : (server env).Along PrunesInOrder Db.empty events) (userId : Uuid) :
    Gapless ((server env).run Db.empty events) userId ∧
      CursorSound ((server env).run Db.empty events) userId := by
  have hgapless := (server env).invariant_along PrunesInOrder
    (fun db _ => Gapless db userId)
    (fun db _ event h hevent => h.step hevent) events Db.empty [] (Gapless.empty userId) horder
  exact ⟨hgapless, hgapless.cursorSound⟩

/-! ### Transactions that commit out of order -/

/-- A device's request that creates one list, in a transaction that starts at `start`. -/
def createListRequest (auth : AuthUser) (opId listId : Uuid) (start : Instant) : ServerEvent :=
  let op : Mutation := {
    opId := opId
    clientSeq := 1
    entity := .list
    entityId := listId
    kind := .create
    patch := .obj [("name", .str "Groceries")] }
  .request ⟨start, ⟨3000⟩⟩ auth { deviceId := auth.deviceId, cursor := "0", ops := [op], limit := none }

/-- Two devices of one account sync; the transaction that started second gets the lock first. A prune follows whose cutoff keeps what the given instant keeps. -/
def twoDevices (cutoff : Instant) : List ServerEvent :=
  [ .signUp ⟨1⟩,
    .signIn ⟨⟨1⟩, ⟨2⟩⟩,
    .signIn ⟨⟨1⟩, ⟨3⟩⟩,
    createListRequest ⟨⟨1⟩, ⟨3⟩⟩ ⟨4⟩ ⟨5⟩ ⟨2000⟩,
    createListRequest ⟨⟨1⟩, ⟨2⟩⟩ ⟨6⟩ ⟨7⟩ ⟨1000⟩,
    .pruneChangeLog cutoff 1000 ]

/-- A prune before both transactions finds no disagreement it would act on. -/
theorem pruned_log_sound_early :
    Gapless ((server Env.utc).run Db.empty (twoDevices ⟨1000⟩)) ⟨1⟩ ∧
      CursorSound ((server Env.utc).run Db.empty (twoDevices ⟨1000⟩)) ⟨1⟩ := by
  refine pruned_log_sound Env.utc (twoDevices ⟨1000⟩) ⟨trivial, trivial, trivial, trivial, trivial, ?_,
    trivial⟩ ⟨1⟩
  simp only [PrunesInOrder, InOrderBelow]
  decide

/-- A prune whose cutoff lies between the two starts deletes the second sequence and keeps the first. -/
theorem prune_between_starts_leaves_gap :
    ¬ ∀ (env : Env) (events : List ServerEvent) (userId : Uuid),
      Gapless ((server env).run Db.empty events) userId ∧
        CursorSound ((server env).run Db.empty events) userId := by
  intro hall
  have hgap := (hall Env.utc (twoDevices ⟨2000⟩) ⟨1⟩).1.sequences
  revert hgap
  decide

end ShishiTodo
