import ShishiTodo.Native.Rejected
import ShishiTodo.Native.Rebase
import ShishiTodo.Web.Reproject

/-!
# Discarding what was rejected, in both stores

The browser follows the native store, over tables without foreign keys: nothing a row needs can be missing, and the first plan of a slot gives way to the one that is put.
-/

namespace ShishiTodo.Web

open Lib Native

/-- Each row stands under its own id: the first member of each entry of `DB_STORES` is the key path. -/
structure Db.Keyed (db : Db) : Prop where
  rows : db.rows.Keyed
  mutations : ∀ opId row, db.mutations.lookup opId = some row → row.opId = opId

/-- The row that stands once the entity is projected; none without a copy of the server. -/
def wantedRow (clock : ProjectionTimes) (db : Db) (key : RowKey) : Option Row :=
  (db.shadow.lookup key).map (projectedRow clock db.mutations key)

section

variable {db : Db}

/-- The plans without the one under the id. -/
theorem find_erasePlan (tables : Tables) (id : String) (key : RowKey) :
    Tables.find { tables with dayPlans := tables.dayPlans.erase id } key =
      if key = (.dayPlan, id) then none else tables.find key := by
  obtain ⟨entity, other⟩ := key
  cases entity with
  | list => rfl
  | task => rfl
  | step => rfl
  | dayPlan =>
      rw [Tables.find, Table.lookup_erase_eq_ite]
      by_cases h : other = id
      · rw [if_pos h, if_pos (congrArg (Prod.mk EntityType.dayPlan) h)]
        rfl
      · rw [if_neg h, if_neg fun heq => h (congrArg Prod.snd heq)]
        rfl

/-- The first plan of a slot stands under its id, in the slot. -/
theorem find_planAt (hkeyed : db.rows.Keyed) {taskId date : String} {plan : DayPlan}
    (h : db.planAt taskId date = some plan) :
    db.rows.find (.dayPlan, plan.id) = some (.dayPlan plan) ∧ plan.taskId = taskId ∧ plan.localDate = date := by
  have hslot := List.find?_some h
  have hmem := (List.mem_insertionSort _).mp (List.mem_of_find?_eq_some h)
  obtain ⟨id, hlookup⟩ := Table.mem_values_iff.mp hmem
  have hfind : db.rows.find (.dayPlan, id) = some (.dayPlan plan) := by
    rw [Tables.find, hlookup]
    rfl
  have hid : plan.id = id := congrArg Prod.snd (hkeyed _ _ hfind)
  rw [hid]
  exact ⟨hfind, of_decide_eq_true hslot⟩

/-- Putting a row is a turn: only the first plan of its slot may go. -/
theorem reprojected_find (hkeyed : db.rows.Keyed) (row : Row) (key : RowKey) :
    (db.reprojected row).find key = (if key = row.key then some row else db.rows.find key) ∨
      key ≠ row.key ∧ (db.reprojected row).find key = none ∧
        ∃ found, db.rows.find key = some found ∧ SameSlot Row.slot row found := by
  cases row with
  | list list => exact Or.inl (Tables.find_put _ _ _)
  | task task => exact Or.inl (Tables.find_put _ _ _)
  | step step => exact Or.inl (Tables.find_put _ _ _)
  | dayPlan plan =>
      rw [Db.reprojected]
      split
      · rename_i duplicate hduplicate
        split
        · rename_i hother
          obtain ⟨hfind, htask, hdate⟩ := find_planAt hkeyed hduplicate
          rw [Tables.find_put, find_erasePlan]
          by_cases hown : key = (Row.dayPlan plan).key
          · rw [if_pos hown, if_pos hown]
            exact Or.inl rfl
          · by_cases hgone : key = (.dayPlan, duplicate.id)
            · subst hgone
              refine Or.inr ⟨hown, ?_, _, hfind, rfl, ?_⟩
              · rw [if_neg hown, if_pos rfl]
              · rw [Row.slot, Row.slot, htask, hdate]
            · rw [if_neg hgone]
              exact Or.inl rfl
        · exact Or.inl (Tables.find_put _ _ _)
      · exact Or.inl (Tables.find_put _ _ _)

theorem keyed_reprojected (hkeyed : db.rows.Keyed) (row : Row) : (db.reprojected row).Keyed := by
  intro key found hfound
  rcases reprojected_find hkeyed row key with hsame | ⟨-, hnone, -⟩
  · rw [hsame] at hfound
    split at hfound
    · rename_i hown
      cases hfound
      exact hown.symm
    · exact hkeyed key found hfound
  · rw [hnone] at hfound
    cases hfound

variable {clock : ProjectionTimes}

/-- The scope of `syncClearRejected` holds all that a projection touches. -/
theorem reprojectEntity_turn (hkeyed : db.rows.Keyed) (key : RowKey) :
    ∃ rows : Tables, rows.Keyed ∧
      reprojectEntity [.tasks, .lists, .steps, .dayPlans, .mutations, .shadow] clock db key =
        .ok { db with rows := rows } ∧
      SlotTurn Row.slot (wantedRow clock db) key db.rows.find rows.find := by
  cases hshadow : db.shadow.lookup key with
  | none =>
      refine ⟨db.rows, hkeyed, ?_, ?_, fun _ _ => Or.inl rfl⟩
      · rw [reprojectEntity, hshadow]
        rfl
      · rw [wantedRow, hshadow]
        rfl
  | some shadow =>
      have hwanted : wantedRow clock db key = some (projectedRow clock db.mutations key shadow) := by
        rw [wantedRow, hshadow]
        rfl
      have hkey : (projectedRow clock db.mutations key shadow).key = key := materialize_key _ _ _
      refine ⟨_, keyed_reprojected hkeyed (projectedRow clock db.mutations key shadow), ?_, ?_, ?_⟩
      · rw [reprojectEntity, hshadow]
        obtain ⟨entity, id⟩ := key
        cases entity <;> rfl
      · rcases reprojected_find hkeyed (projectedRow clock db.mutations key shadow) key with hsame | ⟨hne, -⟩
        · rw [hsame, if_pos hkey.symm, hwanted, Option.some_or]
        · exact absurd hkey.symm hne
      · intro other hother
        rcases reprojected_find hkeyed (projectedRow clock db.mutations key shadow) other with
          hsame | ⟨-, hnone, found, hfound, hslot⟩
        · rw [if_neg (hkey.symm ▸ hother)] at hsame
          exact Or.inl hsame
        · exact Or.inr ⟨hnone, _, found, hwanted, hfound, hslot⟩

/-- A loop over entities is a pass. -/
theorem reprojectEntities_pass : ∀ (keys : List RowKey) (db : Db), db.rows.Keyed →
    ∃ rows : Tables,
      keys.foldlM (reprojectEntity [.tasks, .lists, .steps, .dayPlans, .mutations, .shadow] clock) db =
        .ok { db with rows := rows } ∧
      SlotPass Row.slot (wantedRow clock db) keys db.rows.find rows.find
  | [], db, _ => ⟨db.rows, rfl, .nil _⟩
  | key :: keys, db, hkeyed => by
      obtain ⟨next, hnext, hfirst, hturn⟩ := reprojectEntity_turn hkeyed key
      obtain ⟨rows, hrest, hpass⟩ := reprojectEntities_pass keys { db with rows := next } hnext
      refine ⟨rows, ?_, .cons hturn hpass⟩
      rw [List.foldlM_cons, hfirst]
      exact hrest

/-- The transaction deletes what was read as rejected, which is all that is rejected. -/
theorem deleteRejected_operations (hkeyed : db.Keyed) (rows : Tables) {rejected : List OutboxRow}
    (hrejected : ∀ row, row ∈ rejected ↔ row ∈ db.mutations.values ∧ row.status = .rejected) (opId : String) :
    (deleteRejected db (rejected.map OutboxRow.opId) rows).mutations.lookup opId =
      (db.mutations.lookup opId).filter fun row => row.status != .rejected := by
  apply Option.ext
  intro row
  rw [deleteRejected, Table.lookup_select_eq_some_iff, Option.filter_eq_some_iff]
  refine and_congr_right fun hlookup => ?_
  have hlisted : opId ∈ rejected.map OutboxRow.opId ↔ row.status = .rejected := by
    rw [List.mem_map]
    constructor
    · rintro ⟨found, hfound, rfl⟩
      obtain ⟨hmem, hstatus⟩ := (hrejected found).mp hfound
      have hown := (Table.mem_values_of_keyed hkeyed.mutations).mp hmem
      cases hown.symm.trans hlookup
      exact hstatus
    · intro hstatus
      exact ⟨row, (hrejected row).mpr ⟨Table.mem_values_iff.mpr ⟨opId, hlookup⟩, hstatus⟩,
        hkeyed.mutations opId row hlookup⟩
  rw [Bool.not_eq_true', ← Bool.not_eq_true, List.contains_iff_mem, bne_iff_ne]
  exact not_congr hlisted

theorem syncClearRejected_rolledBack (hkeyed : db.Keyed) :
    ∃ after, syncClearRejected clock db = .ok after ∧ after.shadow = db.shadow ∧ after.kv = db.kv ∧
      RolledBack db.mutations after.mutations (wantedRow clock after) db.rows.find after.rows.find := by
  rw [syncClearRejected]
  generalize hlist : ((db.mutations.values.filter fun row => row.status = .rejected).insertionSort
    fun left right => left.opId ≤ right.opId) = rejected
  have hmem : ∀ row, row ∈ rejected ↔ row ∈ db.mutations.values ∧ row.status = .rejected := by
    intro row
    rw [← hlist, List.mem_insertionSort, List.mem_filter, decide_eq_true_iff]
  have hrejected : Rejected db.mutations = fun key => key ∈ (rejected.map OutboxRow.key).eraseDups := by
    funext key
    simp only [Rejected, List.mem_eraseDups, List.mem_map, hmem, and_assoc]
  have hoperations := deleteRejected_operations hkeyed db.rows hmem
  cases rejected with
  | nil =>
      refine ⟨db, rfl, rfl, rfl, fun opId => ?_, ?_⟩
      · rw [← hoperations opId]
        exact (Table.lookup_select_true db.mutations opId).symm
      · rw [hrejected]
        exact (SlotPass.nil db.rows.find).overlaid
  | cons first rest =>
      obtain ⟨rows, hrows, hpass⟩ := reprojectEntities_pass 
        ((first :: rest).map OutboxRow.key).eraseDups
        (deleteRejected db ((first :: rest).map OutboxRow.opId) db.rows) hkeyed.rows
      refine ⟨_, hrows, rfl, rfl, hoperations, ?_⟩
      rw [hrejected]
      exact hpass.overlaid

end

/-- A list of the account, as the server names it. -/
def serverList : TaskList :=
  ⟨"list", "Home", none, none, "a0", "2026-10-21T05:00:00.000Z", "2026-10-21T05:00:00.000Z", none⟩

/-- The operation that renamed it, which the server refused. -/
def refusedName : OutboxRow where
  opId := "op"
  deviceId := "device"
  clientSeq := 1
  entity := .list
  entityId := "list"
  kind := .patch
  patch := [("name", .str "Garden")]
  createdAt := "2026-10-21T06:00:00.000Z"
  status := .rejected
  errorCode := some "invalid_patch"

def renamedList : Db where
  rows := Tables.empty.put (.list { serverList with name := "Garden" })
  mutations := AList.insert "op" refusedName ∅
  shadow := AList.singleton (.list, "list") ⟨1, (Row.list serverList).data⟩
  kv := ⟨"device", 1, true, "1", "user@example.com", false, none⟩

theorem keyed_renamedList : renamedList.Keyed where
  rows := renamedList.rows.keyedCheck_eq_true_iff.mp (by decide)
  mutations opId row hlookup := by
    rw [renamedList, Table.lookup_insert_eq_ite] at hlookup
    split at hlookup
    · rename_i hown
      cases hlookup
      exact hown.symm
    · cases hlookup

end ShishiTodo.Web
