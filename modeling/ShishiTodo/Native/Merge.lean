import ShishiTodo.Native.Snapshots
import ShishiTodo.Native.Sync

/-!
# Joining an account

`sync_initialize_cloud`: the outbox is emptied, the tables become the server's, or in a merge the later of both sides, and what the server has to learn from this side is logged as new operations.
-/

namespace ShishiTodo.Native

open Lib

/-! ### What a merge does with a local row -/

structure PreparedOp where
  key : RowKey
  kind : MutationKind
  patch : Data
  deriving DecidableEq, Repr

/-- Timestamps are compared as texts. -/
def later (left right : String) : Bool :=
  if left.isEmpty then false else right.isEmpty || decide (right < left)

def Row.updatedAt : Row → String
  | .list value => value.updatedAt
  | .task value => value.updatedAt
  | .step value => value.updatedAt
  | .dayPlan value => value.updatedAt

/-- The branches of a merge: the server's row stays, the local one is taken as it is, or it is taken with an operation. -/
inductive Verdict where
  | leave | keep | create | delete | restore | patch
  deriving DecidableEq, Repr

def Verdict.takes (verdict : Verdict) : Bool := verdict ≠ .leave

/-- The operation about a row, with the patch that holds all its fields. -/
def Verdict.op (full : Data) (key : RowKey) : Verdict → Option PreparedOp
  | .leave | .keep => none
  | .create => some ⟨key, .create, full⟩
  | .delete => some ⟨key, .delete, []⟩
  | .restore => some ⟨key, .restore, full⟩
  | .patch => some ⟨key, .patch, full⟩

section

variable (snapshot : CloudSnapshot)

def mergeVerdict (row : Row) : Verdict :=
  match snapshot.find row.key with
  | none =>
      if row.deletedAt.isSome then .leave
      -- The server's plan keeps the slot.
      else if snapshot.holdsSlot row then .leave
      else .create
  | some server =>
      if row.deletedAt.isSome then if server.deletedAt.isNone then .delete else .keep
      else if server.deletedAt.isSome then
        if later row.updatedAt server.updatedAt then .restore else .leave
      else if later row.updatedAt server.updatedAt then .patch else .leave

/-- The server's rows, and over them the local ones that are taken. -/
def mergedLocal (rows : List Row) : Tables :=
  rows.foldl (fun merged row => if (mergeVerdict snapshot row).takes then merged.put row else merged)
    (.collect snapshot.rows)

/-- The operations of lists, of tasks, of steps and of plans, in this order. -/
def preparedOps (rows : List Row) : List PreparedOp :=
  rows.filterMap fun row => (mergeVerdict snapshot row).op (fullPatch row.entity row.data) row.key

end

/-! ### The operation -/

/-- `trim().to_ascii_lowercase()`. -/
def normalizeEmail (email : String) : String :=
  String.ofList ((trim email).toList.map Char.toLower)

def normalizeApiUrl (url : String) : Option String :=
  let url := trim url
  if url.isEmpty then none
  else some (String.ofList ((url.toList.reverse.dropWhile (· == '/')).reverse.map Char.toLower))

/-- The store without its outbox and without the server's copies. -/
def Store.forgotten (store : Store) : Store := { store with outbox := ∅, shadow := ∅ }

/-- Sequences start anew, and what is logged from here on is sent. -/
def Tx.joined (tx : Tx) (snapshot : CloudSnapshot) : Tx := { tx with
  store := { tx.store with
    shadow := shadowOfSnapshot snapshot
    kv := { tx.store.kv with
      clientSeq := 0
      syncEnabled := true } } }

def Tx.bound (tx : Tx) (cursor account : String) (apiUrl : Option String) : Tx := { tx with
  store := { tx.store with
    kv := { tx.store.kv with
      syncCursor := cursor
      boundAccount := some account
      boundApiUrl := apiUrl
      bootstrapRequired := false } } }

/-- The number of operations, and the transaction. -/
def syncInitializeCloud (supply : Supply) (store : Store) (request : CloudInitializeRequest) :
    StoreResult (Nat × Tx) := do
  let account := normalizeEmail request.accountEmail
  refuseIf account.isEmpty (.validation "accountEmail 不能为空")
  let apiUrl := request.accountApiUrl.bind normalizeApiUrl
  assertSyncSession store request.sessionId
  let snapshot := request.snapshot
  let (merged, prepared) := match request.mode with
    | .cloud => (Tables.collect snapshot.rows, [])
    | .merge => (mergedLocal snapshot store.rows.val.rows, preparedOps snapshot store.rows.val.rows)
  let tx ← writeMaterialized store.forgotten.begin merged
  let tx ← prepared.foldlM (fun tx op => tx.appendMutation supply op.key op.kind op.patch)
    (tx.joined snapshot)
  return (prepared.length, tx.bound snapshot.cursor account apiUrl)

/-! ### The operations are logged in their order -/

def OutboxRow.prepared (row : OutboxRow) : PreparedOp := ⟨row.key, row.kind, row.patch⟩

/-- Every row of the outbox has the identifier that was drawn for a sequence up to the last one. -/
def Numbered (supply : Supply) (tx : Tx) : Prop :=
  ∀ opId row, tx.store.outbox.lookup opId = some row →
    ∃ seq ≤ tx.store.kv.clientSeq, opId = supply.opId seq

section

variable {supply : Supply} {tx : Tx}

theorem Numbered.mutation_fresh (h : Numbered supply tx) (hfresh : Function.Injective supply.opId)
    (key : RowKey) (kind : MutationKind) (patch : Data) :
    tx.store.outbox.lookup (tx.mutation supply key kind patch).opId = none := by
  cases hlookup : tx.store.outbox.lookup (tx.mutation supply key kind patch).opId with
  | none => rfl
  | some row =>
      obtain ⟨seq, hseq, hid⟩ := h _ row hlookup
      have hsame : tx.nextClientSeq = seq := hfresh hid
      rw [Tx.nextClientSeq] at hsame
      omega

theorem Numbered.withMutation (h : Numbered supply tx) (key : RowKey) (kind : MutationKind)
    (patch : Data) : Numbered supply (tx.withMutation (tx.mutation supply key kind patch)) := by
  intro opId row hlookup
  rw [Tx.withMutation_outbox, Table.lookup_insert_eq_ite] at hlookup
  show ∃ seq ≤ tx.nextClientSeq, opId = supply.opId seq
  split at hlookup
  · rename_i hid
    exact ⟨tx.nextClientSeq, le_refl _, hid⟩
  · obtain ⟨seq, hseq, hid⟩ := h opId row hlookup
    refine ⟨seq, ?_, hid⟩
    rw [Tx.nextClientSeq]
    omega

/-- Fresh identifiers let every operation be logged, each after the one before. -/
theorem appendMutations_ok (hfresh : Function.Injective supply.opId) (ops : List PreparedOp) {tx : Tx}
    (h : Numbered supply tx) :
    ∃ after, ops.foldlM (fun tx op => tx.appendMutation supply op.key op.kind op.patch) tx = .ok after ∧
      after.store.rows = tx.store.rows ∧
      after.appended.map OutboxRow.prepared = tx.appended.map OutboxRow.prepared ++ ops := by
  induction ops generalizing tx with
  | nil => exact ⟨tx, rfl, rfl, by simp⟩
  | cons op rest ih =>
      have happend : tx.appendMutation supply op.key op.kind op.patch =
          .ok (tx.withMutation (tx.mutation supply op.key op.kind op.patch)) := by
        rw [Tx.appendMutation]
        simp only [h.mutation_fresh hfresh, Option.isSome_none, refuseIf]
        rfl
      obtain ⟨after, hafter, hrows, happended⟩ := ih (h.withMutation op.key op.kind op.patch)
      refine ⟨after, ?_, hrows, ?_⟩
      · rw [List.foldlM_cons, happend]
        exact hafter
      · rw [happended, Tx.withMutation_appended, List.map_append, List.append_assoc]
        rfl

end

/-! ### What a merge leaves -/

/-- The side that wins keeps its row: the local one where it is taken, else the server's. -/
def Stays (store : Store) (snapshot : CloudSnapshot) (row : Row) : Prop :=
  (store.find row.key = some row ∧ (mergeVerdict snapshot row).takes = true) ∨
    (snapshot.find row.key = some row ∧
      ∀ own, store.find row.key = some own → (mergeVerdict snapshot own).takes = false)

/-- The rows that stay have their parents among them, and no two plans share a slot. -/
structure MergeClosed (store : Store) (snapshot : CloudSnapshot) : Prop where
  lists : ∀ task listId, Stays store snapshot (.task task) → task.listId = some listId →
    ∃ list, Stays store snapshot (.list list) ∧ list.id = listId
  steps : ∀ step, Stays store snapshot (.step step) →
    ∃ task, Stays store snapshot (.task task) ∧ task.id = step.taskId
  plans : ∀ plan, Stays store snapshot (.dayPlan plan) →
    ∃ task, Stays store snapshot (.task task) ∧ task.id = plan.taskId
  slots : ∀ plan other, Stays store snapshot (.dayPlan plan) → Stays store snapshot (.dayPlan other) →
    other.taskId = plan.taskId → other.localDate = plan.localDate → other.id = plan.id

section

variable {store : Store} {snapshot : CloudSnapshot}

theorem find_mergedLocal (key : RowKey) :
    (mergedLocal snapshot store.rows.val.rows).find key =
      ((store.find key).filter fun row => (mergeVerdict snapshot row).takes).or (snapshot.find key) := by
  rw [mergedLocal, Tables.find_foldl_take store.rows.property.keyed
    (fun row => (mergeVerdict snapshot row).takes), Tables.find_collect]
  rfl

theorem key_of_find_snapshot {key : RowKey} {row : Row} (h : snapshot.find key = some row) :
    row.key = key := by
  simpa using List.find?_some h

theorem keyed_mergedLocal : (mergedLocal snapshot store.rows.val.rows).Keyed := by
  intro key row hfind
  rw [find_mergedLocal, Option.or_eq_some_iff] at hfind
  rcases hfind with hown | ⟨-, hserver⟩
  · exact store.key_of_find (Option.filter_eq_some_iff.mp hown).1
  · exact key_of_find_snapshot hserver

theorem find_mergedLocal_eq_some_iff {row : Row} :
    (mergedLocal snapshot store.rows.val.rows).find row.key = some row ↔ Stays store snapshot row := by
  rw [find_mergedLocal, Option.or_eq_some_iff, Option.filter_eq_some_iff, Stays,
    Option.filter_eq_none_iff]
  refine or_congr_right ?_
  simp only [Bool.not_eq_true, and_comm]

theorem consistent_mergedLocal_iff :
    (mergedLocal snapshot store.rows.val.rows).Consistent ↔ MergeClosed store snapshot := by
  have hkeyed : (mergedLocal snapshot store.rows.val.rows).Keyed := keyed_mergedLocal
  have hsome : ∀ {row : Row}, (mergedLocal snapshot store.rows.val.rows).find row.key = some row ↔
      Stays store snapshot row := find_mergedLocal_eq_some_iff
  rw [Tables.consistent_iff_rows hkeyed]
  generalize mergedLocal snapshot store.rows.val.rows = merged at hkeyed hsome
  have hlist : ∀ id, (merged.find (.list, id)).isSome ↔
      ∃ list, Stays store snapshot (.list list) ∧ list.id = id := by
    intro id
    rw [Option.isSome_iff_exists]
    constructor
    · rintro ⟨row, hfind⟩
      have hkey := hkeyed _ _ hfind
      cases row with
      | list list => exact ⟨list, hsome.mp (by rwa [hkey]), congrArg Prod.snd hkey⟩
      | task => cases hkey
      | step => cases hkey
      | dayPlan => cases hkey
    · rintro ⟨list, hstays, rfl⟩
      exact ⟨_, hsome.mpr hstays⟩
  have htask : ∀ id, (merged.find (.task, id)).isSome ↔
      ∃ task, Stays store snapshot (.task task) ∧ task.id = id := by
    intro id
    rw [Option.isSome_iff_exists]
    constructor
    · rintro ⟨row, hfind⟩
      have hkey := hkeyed _ _ hfind
      cases row with
      | task task => exact ⟨task, hsome.mp (by rwa [hkey]), congrArg Prod.snd hkey⟩
      | list => cases hkey
      | step => cases hkey
      | dayPlan => cases hkey
    · rintro ⟨task, hstays, rfl⟩
      exact ⟨_, hsome.mpr hstays⟩
  constructor
  · rintro ⟨hlists, hsteps, hplans, hslots⟩
    exact ⟨fun task listId hstays hlistId => (hlist listId).mp (hlists task listId (hsome.mpr hstays) hlistId),
      fun step hstays => (htask _).mp (hsteps step (hsome.mpr hstays)),
      fun plan hstays => (htask _).mp (hplans plan (hsome.mpr hstays)),
      fun plan other hstays hother => hslots plan other (hsome.mpr hstays) (hsome.mpr hother)⟩
  · intro h
    exact ⟨fun task listId hfind hlistId => (hlist listId).mpr (h.lists task listId (hsome.mp hfind) hlistId),
      fun step hfind => (htask _).mpr (h.steps step (hsome.mp hfind)),
      fun plan hfind => (htask _).mpr (h.plans plan (hsome.mp hfind)),
      fun plan other hfind hother => h.slots plan other (hsome.mp hfind) (hsome.mp hother)⟩

/-! ### The whole initialization -/

variable {supply : Supply} {request : CloudInitializeRequest}

theorem syncInitializeCloud_eq_ok (hmode : request.mode = .merge) {count : Nat} {tx : Tx} :
    syncInitializeCloud supply store request = .ok (count, tx) ↔
      normalizeEmail request.accountEmail ≠ "" ∧ assertSyncSession store request.sessionId = .ok () ∧
      ∃ written logged, writeMaterialized store.forgotten.begin
          (mergedLocal request.snapshot store.rows.val.rows) = .ok written ∧
        (preparedOps request.snapshot store.rows.val.rows).foldlM
          (fun tx op => tx.appendMutation supply op.key op.kind op.patch)
          (written.joined request.snapshot) = .ok logged ∧
        (preparedOps request.snapshot store.rows.val.rows).length = count ∧
        logged.bound request.snapshot.cursor (normalizeEmail request.accountEmail)
          (request.accountApiUrl.bind normalizeApiUrl) = tx := by
  rw [syncInitializeCloud, hmode]
  simp only [bind_eq_ok_iff, refuseIf_eq_ok_iff, pure, Except.pure, Except.ok.injEq, Prod.mk.injEq,
    String.isEmpty_iff]
  constructor
  · rintro ⟨_, haccount, _, hsession, written, hwrite, logged, hlogged, hcount, htx⟩
    exact ⟨haccount, hsession, written, logged, hwrite, hlogged, hcount, htx⟩
  · rintro ⟨haccount, hsession, written, logged, hwrite, hlogged, hcount, htx⟩
    exact ⟨(), haccount, (), hsession, written, hwrite, logged, hlogged, hcount, htx⟩

/-- Nothing is in the outbox when the operations are logged. -/
theorem numbered_joined (rows : Rows) :
    Numbered supply ((store.forgotten.begin.withRows rows).joined snapshot) := by
  intro opId row hlookup
  cases hlookup

theorem syncInitializeCloud_ok (hfresh : Function.Injective supply.opId)
    (hmode : request.mode = .merge) {count : Nat} {tx : Tx}
    (h : syncInitializeCloud supply store request = .ok (count, tx)) :
    tx.appended.map OutboxRow.prepared = preparedOps request.snapshot store.rows.val.rows ∧
      ∀ key, tx.tables.find key =
        (mergedLocal request.snapshot store.rows.val.rows).materialized.find key := by
  obtain ⟨-, -, written, logged, hwrite, hlogged, -, rfl⟩ := (syncInitializeCloud_eq_ok hmode).mp h
  obtain ⟨⟨rows, rfl⟩, hfind⟩ := writeMaterialized_ok keyed_mergedLocal hwrite
  obtain ⟨after, hafter, hrows, happended⟩ := appendMutations_ok hfresh
    (preparedOps request.snapshot store.rows.val.rows) (numbered_joined rows)
  have hsame : logged = after := Except.ok.inj (hlogged.symm.trans hafter)
  subst hsame
  refine ⟨happended, fun key => ?_⟩
  rw [← hfind]
  show logged.store.rows.val.find key = _
  rw [hrows]
  rfl

/-- A merge succeeds exactly when the account is named and the rows with their parents keep the constraints. -/
theorem syncInitializeCloud_succeeds_iff (hfresh : Function.Injective supply.opId)
    (hmode : request.mode = .merge) (hsession : request.sessionId = none) :
    (∃ count tx, syncInitializeCloud supply store request = .ok (count, tx)) ↔
      normalizeEmail request.accountEmail ≠ "" ∧
        (mergedLocal request.snapshot store.rows.val.rows).materialized.Consistent := by
  rw [← writeMaterialized_succeeds_iff keyed_mergedLocal store.forgotten.begin]
  constructor
  · rintro ⟨count, tx, h⟩
    obtain ⟨haccount, -, written, logged, hwrite, -⟩ := (syncInitializeCloud_eq_ok hmode).mp h
    exact ⟨haccount, written, hwrite⟩
  · rintro ⟨haccount, written, hwrite⟩
    obtain ⟨⟨rows, rfl⟩, -⟩ := writeMaterialized_ok keyed_mergedLocal hwrite
    obtain ⟨after, hafter, -, -⟩ := appendMutations_ok hfresh
      (preparedOps request.snapshot store.rows.val.rows) (numbered_joined rows)
    have hchecked : assertSyncSession store request.sessionId = .ok () := by
      rw [assertSyncSession, refuseIf_eq_ok_iff, hsession]
      simp
    exact ⟨_, _, (syncInitializeCloud_eq_ok hmode).mpr
      ⟨haccount, hchecked, _, after, hwrite, hafter, rfl, rfl⟩⟩

end

end ShishiTodo.Native
