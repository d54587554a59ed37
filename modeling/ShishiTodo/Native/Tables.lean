import ShishiTodo.Native.Models
import ShishiTodo.Lib.Table

/-!
# The tables of the native store

The four tables with their constraints, the server's copy of each entity, the outbox and the `kv_state` rows. SQLite checks the constraints after every statement, so a store holds no tables that break one.
-/

namespace ShishiTodo.Native

open Lib

/-- A row of one of the four tables. -/
inductive Row where
  | list (list : TaskList)
  | task (task : Task)
  | step (step : Step)
  | dayPlan (plan : DayPlan)
  deriving DecidableEq, Repr

/-- Where a row is found: its type and its id. -/
abbrev RowKey := EntityType × String

namespace Row

def entity : Row → EntityType
  | .list _ => .list
  | .task _ => .task
  | .step _ => .step
  | .dayPlan _ => .dayPlan

def id : Row → String
  | .list value => value.id
  | .task value => value.id
  | .step value => value.id
  | .dayPlan value => value.id

def key (row : Row) : RowKey := (row.entity, row.id)

/-- `entity_data`. -/
def data : Row → Data
  | .list value => value.data
  | .task value => value.data
  | .step value => value.data
  | .dayPlan value => value.data

def deletedAt : Row → Option String
  | .list value => value.deletedAt
  | .task value => value.deletedAt
  | .step value => value.deletedAt
  | .dayPlan value => value.deletedAt

end Row

/-- What a bundle has of the four tables. -/
def ExportBundle.rows (bundle : ExportBundle) : List Row :=
  bundle.lists.map .list ++ bundle.tasks.map .task ++ bundle.steps.map .step ++
    bundle.dayPlans.map .dayPlan

structure Tables where
  lists : Table String TaskList
  tasks : Table String Task
  steps : Table String Step
  dayPlans : Table String DayPlan

namespace Tables

def empty : Tables where
  lists := ∅
  tasks := ∅
  steps := ∅
  dayPlans := ∅

variable (tables : Tables)

def find : RowKey → Option Row
  | (.list, id) => (tables.lists.lookup id).map .list
  | (.task, id) => (tables.tasks.lookup id).map .task
  | (.step, id) => (tables.steps.lookup id).map .step
  | (.dayPlan, id) => (tables.dayPlans.lookup id).map .dayPlan

/-- The row takes the place of the one under its key. -/
def put : Row → Tables
  | .list list => { tables with lists := tables.lists.insert list.id list }
  | .task task => { tables with tasks := tables.tasks.insert task.id task }
  | .step step => { tables with steps := tables.steps.insert step.id step }
  | .dayPlan plan => { tables with dayPlans := tables.dayPlans.insert plan.id plan }

@[simp] theorem find_empty (key : RowKey) : empty.find key = none := by
  obtain ⟨entity, id⟩ := key
  cases entity <;> rfl

theorem find_put (row : Row) (key : RowKey) :
    (tables.put row).find key = if key = row.key then some row else tables.find key := by
  obtain ⟨entity, id⟩ := key
  cases row <;> cases entity <;>
    simp only [put, find, Row.key, Row.entity, Row.id, Prod.mk.injEq, reduceCtorEq, false_and, if_false,
      true_and, Table.lookup_insert_eq_ite]
  all_goals split <;> rfl

@[simp] theorem find_put_self (row : Row) : (tables.put row).find row.key = some row := by
  rw [find_put, if_pos rfl]

theorem find_put_of_ne {row : Row} {key : RowKey} (h : key ≠ row.key) :
    (tables.put row).find key = tables.find key := by
  rw [find_put, if_neg h]

/-- A row stands under its own id; the foreign keys, and `UNIQUE(task_id, local_date)`. -/
structure Consistent : Prop where
  keyed : ∀ key row, tables.find key = some row → row.key = key
  listOf : ∀ id task, tables.tasks.lookup id = some task →
    ∀ listId, task.listId = some listId → (tables.lists.lookup listId).isSome
  taskOfStep : ∀ id step, tables.steps.lookup id = some step →
    (tables.tasks.lookup step.taskId).isSome
  taskOfPlan : ∀ id plan, tables.dayPlans.lookup id = some plan →
    (tables.tasks.lookup plan.taskId).isSome
  slot : ∀ id plan, tables.dayPlans.lookup id = some plan →
    ∀ other taken, tables.dayPlans.lookup other = some taken →
      taken.taskId = plan.taskId → taken.localDate = plan.localDate → other = id

theorem consistent_empty : empty.Consistent where
  keyed := fun key row h => by rw [find_empty] at h; cases h
  listOf := fun _ _ h => nomatch h
  taskOfStep := fun _ _ h => nomatch h
  taskOfPlan := fun _ _ h => nomatch h
  slot := fun _ _ h => nomatch h

/-- No row stands under another id. -/
def keyedCheck : Bool :=
  !tables.lists.any (fun id list => list.id != id) && !tables.tasks.any (fun id task => task.id != id) &&
    !tables.steps.any (fun id step => step.id != id) &&
    !tables.dayPlans.any (fun id plan => plan.id != id)

theorem keyedCheck_eq_true_iff : tables.keyedCheck = true ↔
    ∀ key row, tables.find key = some row → row.key = key := by
  simp only [keyedCheck, Bool.and_eq_true, Bool.not_eq_true', Table.any_eq_false_iff, bne_eq_false_iff_eq]
  constructor
  · rintro ⟨⟨⟨hlist, htask⟩, hstep⟩, hplan⟩ ⟨entity, id⟩ row hfind
    cases entity <;> simp only [find, Option.map_eq_some_iff] at hfind <;>
      obtain ⟨value, hlookup, rfl⟩ := hfind
    · exact Prod.ext rfl (hlist id value hlookup)
    · exact Prod.ext rfl (htask id value hlookup)
    · exact Prod.ext rfl (hstep id value hlookup)
    · exact Prod.ext rfl (hplan id value hlookup)
  · intro hkeyed
    have hid : ∀ key row, tables.find key = some row → row.id = key.2 := fun key row h =>
      congrArg Prod.snd (hkeyed key row h)
    refine ⟨⟨⟨?_, ?_⟩, ?_⟩, ?_⟩ <;> intro id value hlookup
    · exact hid (.list, id) (.list value) (by simp [find, hlookup])
    · exact hid (.task, id) (.task value) (by simp [find, hlookup])
    · exact hid (.step, id) (.step value) (by simp [find, hlookup])
    · exact hid (.dayPlan, id) (.dayPlan value) (by simp [find, hlookup])

def check : Bool :=
  tables.keyedCheck &&
    !tables.tasks.any (fun _ task => task.listId.any fun listId =>
      (tables.lists.lookup listId).isNone) &&
    !tables.steps.any (fun _ step => (tables.tasks.lookup step.taskId).isNone) &&
    !tables.dayPlans.any (fun _ plan => (tables.tasks.lookup plan.taskId).isNone) &&
    !tables.dayPlans.any (fun id plan => tables.dayPlans.any fun other taken =>
      taken.taskId == plan.taskId && taken.localDate == plan.localDate && other != id)

theorem check_eq_true_iff : tables.check = true ↔ tables.Consistent := by
  simp only [check, Bool.and_eq_true, keyedCheck_eq_true_iff, Bool.not_eq_true', Table.any_eq_false_iff]
  constructor
  · rintro ⟨⟨⟨⟨hkeyed, hlist⟩, hstep⟩, hplan⟩, hslot⟩
    refine ⟨hkeyed, ?_, ?_, ?_, ?_⟩
    · intro id task htask listId hlistId
      simpa [hlistId, Option.isNone_iff_eq_none, Option.isSome_iff_ne_none] using hlist id task htask
    · intro id step hlookup
      simpa [Option.isNone_iff_eq_none, Option.isSome_iff_ne_none] using hstep id step hlookup
    · intro id plan hlookup
      simpa [Option.isNone_iff_eq_none, Option.isSome_iff_ne_none] using hplan id plan hlookup
    · intro id plan hlookup other taken htaken htask hdate
      have hfree := hslot id plan hlookup other taken htaken
      simpa [htask, hdate] using hfree
  · rintro ⟨hkeyed, hlist, hstep, hplan, hslot⟩
    refine ⟨⟨⟨⟨hkeyed, ?_⟩, ?_⟩, ?_⟩, ?_⟩
    · intro id task htask
      cases hlistId : task.listId with
      | none => rfl
      | some listId =>
          have hsome := hlist id task htask listId hlistId
          simpa [Option.isNone_iff_eq_none, Option.isSome_iff_ne_none] using hsome
    · intro id step hlookup
      simpa [Option.isNone_iff_eq_none, Option.isSome_iff_ne_none] using hstep id step hlookup
    · intro id plan hlookup
      simpa [Option.isNone_iff_eq_none, Option.isSome_iff_ne_none] using hplan id plan hlookup
    · intro id plan hlookup other taken htaken
      by_cases hsame : taken.taskId = plan.taskId ∧ taken.localDate = plan.localDate
      · have hid := hslot id plan hlookup other taken htaken hsame.1 hsame.2
        simp [hid]
      · rw [Bool.eq_false_iff]
        intro h
        simp only [Bool.and_eq_true, beq_iff_eq] at h
        exact hsame h.1

instance : Decidable tables.Consistent := decidable_of_iff _ tables.check_eq_true_iff

end Tables

/-- Tables that keep their constraints. -/
abbrev Rows := { tables : Tables // tables.Consistent }

def Rows.empty : Rows := ⟨.empty, Tables.consistent_empty⟩

/-- `sync_status`: `local`, `pending` or `rejected`. -/
inductive SyncStatus where
  | localOnly | pending | rejected
  deriving DecidableEq, Repr

structure OutboxRow where
  opId : String
  deviceId : String
  clientSeq : Int
  entity : EntityType
  entityId : String
  kind : MutationKind
  patch : Data
  createdAt : String
  status : SyncStatus
  errorCode : Option String
  deriving DecidableEq, Repr

def OutboxRow.key (row : OutboxRow) : RowKey := (row.entity, row.entityId)

/-- A row of `server_shadow`. -/
structure ShadowRow where
  serverRev : Int
  payload : Data
  deriving DecidableEq, Repr

/-- The rows of `kv_state`. -/
structure KvState where
  deviceId : String
  clientSeq : Int
  syncCursor : String
  syncEnabled : Bool
  syncSession : Option String
  boundAccount : Option String
  boundApiUrl : Option String
  bootstrapRequired : Bool
  deriving DecidableEq, Repr

structure Store where
  rows : Rows
  shadow : Table RowKey ShadowRow
  outbox : Table String OutboxRow
  kv : KvState

/-- `ensure_local_identity` on a new database. -/
def Store.open (deviceId : String) : Store where
  rows := .empty
  shadow := ∅
  outbox := ∅
  kv := {
    deviceId := deviceId
    clientSeq := 0
    syncCursor := "0"
    syncEnabled := false
    syncSession := none
    boundAccount := none
    boundApiUrl := none
    bootstrapRequired := false }

def Store.find (store : Store) (key : RowKey) : Option Row := store.rows.val.find key

theorem Store.key_of_find {store : Store} {key : RowKey} {row : Row} (h : store.find key = some row) :
    row.key = key :=
  store.rows.property.keyed key row h

/-- A transaction: the store as it stands, and the rows that `append_mutation` has added to the outbox. -/
structure Tx where
  store : Store
  appended : List OutboxRow

def Store.begin (store : Store) : Tx where
  store := store
  appended := []

/-- The clock reading and the new identifiers of one operation. The entry of the outbox under a sequence gets its own. -/
structure Supply where
  now : String
  id : String
  planId : String
  opId : Int → String

namespace Tx

variable (tx : Tx)

abbrev tables : Tables := tx.store.rows.val

/-- The transaction with other rows. -/
def withRows (rows : Rows) : Tx := { tx with store := { tx.store with rows := rows } }

@[simp] theorem withRows_tables (rows : Rows) : (tx.withRows rows).tables = rows.val := rfl

@[simp] theorem withRows_appended (rows : Rows) : (tx.withRows rows).appended = tx.appended := rfl

@[simp] theorem withRows_outbox (rows : Rows) :
    (tx.withRows rows).store.outbox = tx.store.outbox := rfl

@[simp] theorem withRows_shadow (rows : Rows) :
    (tx.withRows rows).store.shadow = tx.store.shadow := rfl

@[simp] theorem withRows_kv (rows : Rows) : (tx.withRows rows).store.kv = tx.store.kv := rfl

/-- A statement that leaves the tables so, when no constraint breaks. -/
def statement (tables : Tables) : StoreResult Tx :=
  if h : tables.Consistent then .ok (tx.withRows ⟨tables, h⟩) else .error .database

/-- `INSERT … ON CONFLICT(id) DO UPDATE`, and an `UPDATE` of the row under an id. -/
def write (row : Row) : StoreResult Tx := tx.statement (tx.tables.put row)

/-- `INSERT`: the id is a primary key. -/
def insert (row : Row) : StoreResult Tx := do
  refuseIf (tx.tables.find row.key).isSome .database
  tx.write row

/-- `COALESCE(MAX(client_seq), 0)` over the device's rows. -/
def maxOutboxSeq : Int :=
  ((tx.store.outbox.values.filter fun row => row.deviceId == tx.store.kv.deviceId).map
    OutboxRow.clientSeq).foldl max 0

def nextClientSeq : Int := max tx.store.kv.clientSeq tx.maxOutboxSeq + 1

/-- The row that `append_mutation` inserts. -/
def mutation (supply : Supply) (key : RowKey) (kind : MutationKind) (patch : Data) : OutboxRow where
  opId := supply.opId tx.nextClientSeq
  deviceId := tx.store.kv.deviceId
  clientSeq := tx.nextClientSeq
  entity := key.1
  entityId := key.2
  kind := kind
  patch := patch
  createdAt := supply.now
  status := if tx.store.kv.syncEnabled then .pending else .localOnly
  errorCode := none

/-- The transaction with one more row in the outbox. -/
def withMutation (row : OutboxRow) : Tx where
  store := { tx.store with
    outbox := tx.store.outbox.insert row.opId row
    kv := { tx.store.kv with clientSeq := row.clientSeq } }
  appended := tx.appended ++ [row]

@[simp] theorem withMutation_tables (row : OutboxRow) : (tx.withMutation row).tables = tx.tables := rfl

@[simp] theorem withMutation_appended (row : OutboxRow) :
    (tx.withMutation row).appended = tx.appended ++ [row] := rfl

@[simp] theorem withMutation_shadow (row : OutboxRow) :
    (tx.withMutation row).store.shadow = tx.store.shadow := rfl

@[simp] theorem withMutation_outbox (row : OutboxRow) :
    (tx.withMutation row).store.outbox = tx.store.outbox.insert row.opId row := rfl

@[simp] theorem withMutation_kv (row : OutboxRow) :
    (tx.withMutation row).store.kv = { tx.store.kv with clientSeq := row.clientSeq } := rfl

def appendMutation (supply : Supply) (key : RowKey) (kind : MutationKind) (patch : Data) :
    StoreResult Tx := do
  let row := tx.mutation supply key kind patch
  refuseIf (tx.store.outbox.lookup row.opId).isSome .database
  return tx.withMutation row

/-- Writes a row and appends the mutation that says so. -/
def save (supply : Supply) (row : Row) (kind : MutationKind) (patch : Data) : StoreResult Tx := do
  let tx ← tx.write row
  tx.appendMutation supply row.key kind patch

/-- Inserts a row and appends its creation. -/
def create (supply : Supply) (row : Row) : StoreResult Tx := do
  let tx ← tx.insert row
  tx.appendMutation supply row.key .create row.data

variable {tx}

theorem statement_ok {tables : Tables} {after : Tx} (h : tx.statement tables = .ok after) :
    ∃ hconsistent : tables.Consistent, after = tx.withRows ⟨tables, hconsistent⟩ := by
  rw [statement] at h
  split at h
  · exact ⟨_, (Except.ok.inj h).symm⟩
  · cases h

theorem appendMutation_ok {supply : Supply} {key : RowKey} {kind : MutationKind} {patch : Data}
    {after : Tx} (h : tx.appendMutation supply key kind patch = .ok after) :
    tx.store.outbox.lookup (tx.mutation supply key kind patch).opId = none ∧
      after = tx.withMutation (tx.mutation supply key kind patch) := by
  obtain ⟨_, hfree, hafter⟩ := bind_eq_ok_iff.mp h
  rw [refuseIf_eq_ok_iff, Bool.not_eq_true, Option.isSome_eq_false_iff,
    Option.isNone_iff_eq_none] at hfree
  exact ⟨hfree, (Except.ok.inj hafter).symm⟩

theorem save_ok {supply : Supply} {row : Row} {kind : MutationKind} {patch : Data} {after : Tx}
    (h : tx.save supply row kind patch = .ok after) :
    tx.store.outbox.lookup (tx.mutation supply row.key kind patch).opId = none ∧
      ∃ hconsistent : (tx.tables.put row).Consistent,
        after = (tx.withRows ⟨tx.tables.put row, hconsistent⟩).withMutation
          (tx.mutation supply row.key kind patch) := by
  obtain ⟨written, hwrite, happend⟩ := bind_eq_ok_iff.mp h
  obtain ⟨hconsistent, rfl⟩ := statement_ok hwrite
  obtain ⟨hfree, rfl⟩ := appendMutation_ok happend
  exact ⟨hfree, hconsistent, rfl⟩

/-- A creation is a save of a row under an unused key. -/
theorem create_ok {supply : Supply} {row : Row} {after : Tx} (h : tx.create supply row = .ok after) :
    tx.tables.find row.key = none ∧ tx.save supply row .create row.data = .ok after := by
  obtain ⟨inserted, hinsert, happend⟩ := bind_eq_ok_iff.mp h
  obtain ⟨_, hfree, hwrite⟩ := bind_eq_ok_iff.mp hinsert
  rw [refuseIf_eq_ok_iff, Bool.not_eq_true, Option.isSome_eq_false_iff,
    Option.isNone_iff_eq_none] at hfree
  exact ⟨hfree, bind_eq_ok_iff.mpr ⟨inserted, hwrite, happend⟩⟩

end Tx

end ShishiTodo.Native
