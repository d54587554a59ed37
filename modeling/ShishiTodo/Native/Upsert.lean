import ShishiTodo.Native.Projection

/-!
# Rows that the tables accept

When a row can be written without breaking a constraint, and why a projection always can be: a parent that is missing is let go, and a plan clears its slot.
-/

namespace ShishiTodo.Native

open Lib

namespace Tables

/-- The parent of the row is there, and its slot is free or its own. -/
def Accepts (tables : Tables) : Row → Prop
  | .list _ => True
  | .task task => ∀ listId, task.listId = some listId → (tables.lists.lookup listId).isSome
  | .step step => (tables.tasks.lookup step.taskId).isSome
  | .dayPlan plan => (tables.tasks.lookup plan.taskId).isSome ∧
      ∀ other taken, tables.dayPlans.lookup other = some taken → taken.taskId = plan.taskId →
        taken.localDate = plan.localDate → other = plan.id

variable {tables : Tables}

/-- Inserting a row leaves no key without one. -/
theorem isSome_insert {ρ : Type} {table : Table String ρ} {id other : String} {row : ρ}
    (h : (table.lookup other).isSome) : ((table.insert id row).lookup other).isSome := by
  rw [Table.lookup_insert_eq_ite]
  split
  · rfl
  · exact h

theorem Consistent.put (h : tables.Consistent) {row : Row} (haccepts : tables.Accepts row) :
    (tables.put row).Consistent := by
  have hkeyed : ∀ key found, (tables.put row).find key = some found → found.key = key := by
    intro key found hfind
    rw [find_put] at hfind
    split at hfind
    · rename_i hkey
      cases hfind
      exact hkey.symm
    · exact h.keyed key found hfind
  cases row with
  | list list =>
      refine ⟨hkeyed, ?_, h.taskOfStep, h.taskOfPlan, h.slot⟩
      exact fun id task htask listId hlistId => isSome_insert (h.listOf id task htask listId hlistId)
  | task task =>
      refine ⟨hkeyed, ?_, ?_, ?_, h.slot⟩
      · intro id found hfound
        rw [Tables.put, Table.lookup_insert_eq_ite] at hfound
        split at hfound
        · cases hfound
          exact haccepts
        · exact h.listOf id found hfound
      · exact fun id step hstep => isSome_insert (h.taskOfStep id step hstep)
      · exact fun id plan hplan => isSome_insert (h.taskOfPlan id plan hplan)
  | step step =>
      refine ⟨hkeyed, h.listOf, ?_, h.taskOfPlan, h.slot⟩
      intro id found hfound
      rw [Tables.put, Table.lookup_insert_eq_ite] at hfound
      split at hfound
      · cases hfound
        exact haccepts
      · exact h.taskOfStep id found hfound
  | dayPlan plan =>
      obtain ⟨htask, hslot⟩ := haccepts
      refine ⟨hkeyed, h.listOf, h.taskOfStep, ?_, ?_⟩
      · intro id found hfound
        rw [Tables.put, Table.lookup_insert_eq_ite] at hfound
        split at hfound
        · cases hfound
          exact htask
        · exact h.taskOfPlan id found hfound
      · intro id found hfound other taken htaken
        rw [Tables.put, Table.lookup_insert_eq_ite] at hfound htaken
        split at hfound
        · rename_i hid
          cases hfound
          split at htaken
          · rename_i hother
            exact fun _ _ => hother.trans hid.symm
          · intro htaskId hdate
            exact (hslot other taken htaken htaskId hdate).trans hid.symm
        · split at htaken
          · rename_i hother
            cases htaken
            intro htaskId hdate
            exact hother.trans (hslot id found hfound htaskId.symm hdate.symm).symm
          · exact h.slot id found hfound other taken htaken

/-- The tables without the other plans in the slot. -/
def withoutSlot (tables : Tables) (plan : DayPlan) : Tables :=
  { tables with
    dayPlans := tables.dayPlans.select fun id other =>
      !(other.taskId == plan.taskId && other.localDate == plan.localDate && id != plan.id) }

theorem Consistent.withoutSlot (h : tables.Consistent) (plan : DayPlan) :
    (tables.withoutSlot plan).Consistent where
  keyed := by
    rintro ⟨entity, id⟩ row hfind
    cases entity with
    | list => exact h.keyed (.list, id) row hfind
    | task => exact h.keyed (.task, id) row hfind
    | step => exact h.keyed (.step, id) row hfind
    | dayPlan =>
        obtain ⟨found, hlookup, rfl⟩ := Option.map_eq_some_iff.mp hfind
        apply h.keyed (.dayPlan, id)
        rw [find, Table.lookup_of_lookup_select hlookup]
        rfl
  listOf := h.listOf
  taskOfStep := h.taskOfStep
  taskOfPlan id found hfound := h.taskOfPlan id found (Table.lookup_of_lookup_select hfound)
  slot id found hfound other taken htaken :=
    h.slot id found (Table.lookup_of_lookup_select hfound) other taken
      (Table.lookup_of_lookup_select htaken)

/-- Once the slot is cleared, the plan can take it. -/
theorem accepts_withoutSlot {plan : DayPlan} (htask : (tables.tasks.lookup plan.taskId).isSome) :
    (tables.withoutSlot plan).Accepts (.dayPlan plan) := by
  refine ⟨htask, fun other taken htaken htaskId hdate => ?_⟩
  have hkept := (Table.lookup_select_eq_some_iff.mp htaken).2
  simpa [htaskId, hdate] using hkept

end Tables

/-- Where a projection leaves the row, when it does not skip it. -/
def fitted (tables : Tables) : Row → Option Row
  | .list list => some (.list list)
  | .task task => some (.task { task with
      listId := task.listId.filter fun listId => (tables.lists.lookup listId).isSome })
  | .step step => if (tables.tasks.lookup step.taskId).isSome then some (.step step) else none
  | .dayPlan plan => if (tables.tasks.lookup plan.taskId).isSome then some (.dayPlan plan) else none

/-- The tables that a projected row is put into. -/
def cleared (tables : Tables) : Row → Tables
  | .dayPlan plan => tables.withoutSlot plan
  | _ => tables

theorem write_ok_of_accepts {tx : Tx} {row : Row} (h : tx.tables.Accepts row) :
    tx.write row = .ok (tx.withRows ⟨tx.tables.put row, tx.store.rows.property.put h⟩) :=
  dif_pos (tx.store.rows.property.put h)

/-- A projection is always written, unless the parent is missing. -/
theorem upsertRow_eq (tx : Tx) (row : Row) :
    ∃ rows : Rows, upsertRow tx row = .ok (tx.withRows rows) ∧
      rows.val = match fitted tx.tables row with
        | some written => (cleared tx.tables row).put written
        | none => tx.tables := by
  cases row with
  | list list =>
      have haccepts : tx.tables.Accepts (.list list) := trivial
      exact ⟨_, write_ok_of_accepts haccepts, rfl⟩
  | task task =>
      refine ⟨_, write_ok_of_accepts ?_, rfl⟩
      intro listId hlistId
      exact (Option.filter_eq_some_iff.mp hlistId).2
  | step step =>
      cases htask : tx.tables.tasks.lookup step.taskId with
      | none =>
          refine ⟨tx.store.rows, ?_, ?_⟩
          · simp only [upsertRow, htask]
            rfl
          · simp [fitted, htask]
      | some task =>
          have haccepts : tx.tables.Accepts (.step step) := by
            rw [Tables.Accepts, htask]
            rfl
          refine ⟨⟨_, tx.store.rows.property.put haccepts⟩, ?_, ?_⟩
          · simp only [upsertRow, htask]
            exact write_ok_of_accepts haccepts
          · simp [fitted, htask, cleared]
  | dayPlan plan =>
      cases htask : tx.tables.tasks.lookup plan.taskId with
      | none =>
          refine ⟨tx.store.rows, ?_, ?_⟩
          · simp only [upsertRow, htask]
            rfl
          · simp [fitted, htask]
      | some task =>
          have hclear : tx.clearSlot plan = .ok (tx.withRows ⟨tx.tables.withoutSlot plan,
              tx.store.rows.property.withoutSlot plan⟩) :=
            dif_pos (tx.store.rows.property.withoutSlot plan)
          have haccepts : (tx.tables.withoutSlot plan).Accepts (.dayPlan plan) :=
            Tables.accepts_withoutSlot (by rw [htask]; rfl)
          have hcleared := tx.store.rows.property.withoutSlot plan
          refine ⟨⟨_, hcleared.put haccepts⟩, ?_, ?_⟩
          · simp only [upsertRow, htask]
            rw [if_neg (by simp), hclear]
            exact dif_pos (hcleared.put haccepts)
          · simp [fitted, htask, cleared]

/-! ### Steps that only write rows -/

section

variable {tx after : Tx}

/-- The step wrote rows and nothing else. -/
def WroteRows (tx after : Tx) : Prop := ∃ rows : Rows, after = tx.withRows rows

theorem WroteRows.refl (tx : Tx) : WroteRows tx tx := ⟨tx.store.rows, rfl⟩

theorem wroteRows_of_write {row : Row} (h : tx.write row = .ok after) : WroteRows tx after := by
  obtain ⟨hconsistent, rfl⟩ := Tx.statement_ok h
  exact ⟨_, rfl⟩

end

end ShishiTodo.Native
