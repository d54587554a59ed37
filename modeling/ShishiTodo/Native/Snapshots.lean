import ShishiTodo.Native.Upsert

/-!
# Snapshots of the server

What a snapshot holds, and how the tables are cleared and written again from rows that were collected by id. Lists come before tasks, tasks before steps and plans; a step or a plan without its task is left out.
-/

namespace ShishiTodo.Native

open Lib

/-! ### Collected rows -/

/-- The rows of four maps by id, in the order in which they are written. -/
def Tables.rows (tables : Tables) : List Row :=
  tables.lists.values.map .list ++ tables.tasks.values.map .task ++ tables.steps.values.map .step ++
    tables.dayPlans.values.map .dayPlan

/-- Collects rows by id: of two rows under one key the later one stays. -/
def Tables.collect (rows : List Row) : Tables := rows.foldl Tables.put .empty

def CloudSnapshot.rows (snapshot : CloudSnapshot) : List Row :=
  snapshot.lists.map .list ++ snapshot.tasks.map .task ++ snapshot.steps.map .step ++
    snapshot.dayPlans.map .dayPlan

/-- The entity as the snapshot has it. -/
def CloudSnapshot.find (snapshot : CloudSnapshot) (key : RowKey) : Option Row :=
  snapshot.rows.reverse.find? fun row => row.key = key

/-- `remote_slots`: the plan that holds a slot. -/
def CloudSnapshot.slotHolder (snapshot : CloudSnapshot) (slot : String × String) : Option String :=
  (snapshot.dayPlans.reverse.find? fun plan => (plan.taskId, plan.localDate) = slot).map DayPlan.id

/-- The snapshot has another plan in the slot. -/
def CloudSnapshot.holdsSlot (snapshot : CloudSnapshot) : Row → Bool
  | .dayPlan plan => (snapshot.slotHolder (plan.taskId, plan.localDate)).any fun id => id != plan.id
  | _ => false

namespace Tables

theorem find_foldl_put (rows : List Row) (tables : Tables) (key : RowKey) :
    (rows.foldl Tables.put tables).find key =
      (rows.reverse.find? fun row => row.key = key).or (tables.find key) := by
  induction rows generalizing tables with
  | nil => rfl
  | cons row rest ih =>
      rw [List.foldl_cons, ih, List.reverse_cons, List.find?_append, find_put]
      cases rest.reverse.find? fun row => row.key = key with
      | some found => rfl
      | none =>
          by_cases hkey : row.key = key
          · simp [hkey]
          · simp [hkey, Ne.symm hkey]

theorem find_collect (snapshot : CloudSnapshot) (key : RowKey) :
    (collect snapshot.rows).find key = snapshot.find key := by
  rw [collect, find_foldl_put, find_empty, Option.or_none, CloudSnapshot.find]

theorem key_of_find_collect {rows : List Row} {key : RowKey} {row : Row}
    (h : (collect rows).find key = some row) : row.key = key := by
  rw [collect, find_foldl_put, find_empty, Option.or_none] at h
  simpa using List.find?_some h

/-- Every row stands under its own key. -/
def Keyed (tables : Tables) : Prop := ∀ key row, tables.find key = some row → row.key = key

theorem mem_rows {tables : Tables} (h : tables.Keyed) {row : Row} :
    row ∈ tables.rows ↔ tables.find row.key = some row := by
  have hid : ∀ key found, tables.find key = some found → found.id = key.2 := fun key found hfind =>
    congrArg Prod.snd (h key found hfind)
  have hlists : ∀ id value, tables.lists.lookup id = some value → value.id = id :=
    fun id value hlookup => hid (.list, id) (.list value) (by rw [find, hlookup]; rfl)
  have htasks : ∀ id value, tables.tasks.lookup id = some value → value.id = id :=
    fun id value hlookup => hid (.task, id) (.task value) (by rw [find, hlookup]; rfl)
  have hsteps : ∀ id value, tables.steps.lookup id = some value → value.id = id :=
    fun id value hlookup => hid (.step, id) (.step value) (by rw [find, hlookup]; rfl)
  have hplans : ∀ id value, tables.dayPlans.lookup id = some value → value.id = id :=
    fun id value hlookup => hid (.dayPlan, id) (.dayPlan value) (by rw [find, hlookup]; rfl)
  cases row <;>
    simp [rows, find, Row.key, Row.entity, Row.id, Table.mem_values_of_keyed hlists,
      Table.mem_values_of_keyed htasks, Table.mem_values_of_keyed hsteps,
      Table.mem_values_of_keyed hplans]

theorem nodup_rows {tables : Tables} (h : tables.Keyed) : tables.rows.Nodup := by
  apply List.Nodup.of_map Row.key
  have hall : ∀ {ρ : Type} (entity : EntityType) (convert : ρ → Row) (table : Table String ρ),
      (∀ id value, table.lookup id = some value → (convert value).key = (entity, id)) →
      ((table.values.map convert).map Row.key) = table.keys.map fun id => (entity, id) := by
    intro ρ entity convert table hkey
    rw [Table.values, AList.keys, List.keys, List.map_map, List.map_map, List.map_map]
    apply List.map_congr_left
    rintro ⟨id, value⟩ hmem
    exact hkey id value (Table.mem_entries_iff.mp hmem)
  have hlists := hall .list .list tables.lists fun id value hlookup =>
    h (.list, id) (.list value) (by rw [find, hlookup]; rfl)
  have htasks := hall .task .task tables.tasks fun id value hlookup =>
    h (.task, id) (.task value) (by rw [find, hlookup]; rfl)
  have hsteps := hall .step .step tables.steps fun id value hlookup =>
    h (.step, id) (.step value) (by rw [find, hlookup]; rfl)
  have hplans := hall .dayPlan .dayPlan tables.dayPlans fun id value hlookup =>
    h (.dayPlan, id) (.dayPlan value) (by rw [find, hlookup]; rfl)
  have hnodup : ∀ {ρ : Type} (entity : EntityType) (table : Table String ρ),
      (table.keys.map fun id => (entity, id)).Nodup := fun entity table =>
    table.nodupKeys.map fun _ _ heq => (Prod.mk.inj heq).2
  rw [rows, List.map_append, List.map_append, List.map_append, hlists, htasks, hsteps, hplans]
  simp only [List.nodup_append, hnodup, List.mem_append, List.mem_map, true_and]
  refine ⟨⟨?_, ?_⟩, ?_⟩ <;> simp +contextual [or_imp, forall_and]

/-- Rows that are put over others: the test decides which of them are taken. -/
theorem find_foldl_take {tables : Tables} (h : tables.Keyed) (takes : Row → Bool) (base : Tables)
    (key : RowKey) :
    (tables.rows.foldl (fun merged row => if takes row then merged.put row else merged) base).find key =
      ((tables.find key).filter takes).or (base.find key) := by
  have hfilter : tables.rows.foldl (fun merged row => if takes row then merged.put row else merged) base =
      (tables.rows.filter takes).foldl Tables.put base := by
    rw [List.foldl_filter]
  rw [hfilter, find_foldl_put]
  congr 1
  apply Option.ext
  intro row
  rw [Option.filter_eq_some_iff]
  constructor
  · intro hfind
    have hkey : row.key = key := by simpa using List.find?_some hfind
    have hmem := List.mem_of_find?_eq_some hfind
    rw [List.mem_reverse, List.mem_filter, mem_rows h, hkey] at hmem
    exact hmem
  · rintro ⟨hfind, htakes⟩
    have hkey := h key row hfind
    have hmem : row ∈ tables.rows.filter takes :=
      List.mem_filter.mpr ⟨(mem_rows h).mpr (hkey.symm ▸ hfind), htakes⟩
    cases hfound : (tables.rows.filter takes).reverse.find? fun row => row.key = key with
    | none =>
        have hnone := List.find?_eq_none.mp hfound row (List.mem_reverse.mpr hmem)
        exact absurd (decide_eq_true hkey) hnone
    | some found =>
        have hfoundKey : found.key = key := by simpa using List.find?_some hfound
        have hfoundMem := List.mem_of_find?_eq_some hfound
        rw [List.mem_reverse, List.mem_filter, mem_rows h, hfoundKey, hfind] at hfoundMem
        exact hfoundMem.1.symm

end Tables

/-- Lists stand before tasks, and tasks before steps and plans. -/
def Ordered (rows : List Row) : Prop :=
  rows.Pairwise fun left right => entityOrder left.entity ≤ entityOrder right.entity

theorem ordered_rows (lists : List TaskList) (tasks : List Task) (steps : List Step) (plans : List DayPlan) :
    Ordered (lists.map .list ++ tasks.map .task ++ steps.map .step ++ plans.map .dayPlan) := by
  have hsame : ∀ {α : Type} (values : List α) (order : Nat),
      values.Pairwise fun _ _ => order ≤ order := fun _ _ =>
    List.pairwise_of_forall fun _ _ => le_refl _
  simp only [Ordered, List.pairwise_append, List.pairwise_map, Row.entity, entityOrder]
  refine ⟨⟨⟨hsame _ 0, hsame _ 1, ?_⟩, hsame _ 2, ?_⟩, hsame _ 3, ?_⟩ <;>
    simp +contextual [or_imp, forall_and]

/-! ### Writing them -/

/-- One statement of `write_materialized`: a step or a plan whose task is missing is left out. -/
def writeRow (tx : Tx) : Row → StoreResult Tx
  | .step step =>
      if (tx.tables.tasks.lookup step.taskId).isNone then .ok tx else tx.write (.step step)
  | .dayPlan plan =>
      if (tx.tables.tasks.lookup plan.taskId).isNone then .ok tx else tx.write (.dayPlan plan)
  | row => tx.write row

/-- All rows are deleted, children first; then the collected ones are written. -/
def writeMaterialized (tx : Tx) (merged : Tables) : StoreResult Tx :=
  merged.rows.foldlM writeRow (tx.withRows .empty)

/-- `write_shadow_snapshot`. -/
def shadowOfSnapshot (snapshot : CloudSnapshot) : Table RowKey ShadowRow :=
  snapshot.rows.foldl (fun shadow row => shadow.insert row.key ⟨0, row.data⟩) ∅

theorem lookup_shadowOfSnapshot (snapshot : CloudSnapshot) (key : RowKey) :
    (shadowOfSnapshot snapshot).lookup key =
      (snapshot.find key).map fun row => ⟨0, row.data⟩ := by
  rw [shadowOfSnapshot, Table.lookup_foldl_insert, AList.lookup_empty, Option.or_none,
    CloudSnapshot.find]

/-- What is left when steps and plans without a task are taken out. -/
def Tables.materialized (tables : Tables) : Tables := { tables with
  steps := tables.steps.select fun _ step => (tables.tasks.lookup step.taskId).isSome
  dayPlans := tables.dayPlans.select fun _ plan => (tables.tasks.lookup plan.taskId).isSome }

namespace Tables

variable {merged : Tables}

/-- The task of a step or a plan is there. -/
def Attached (tables : Tables) : Row → Prop
  | .step step => (tables.tasks.lookup step.taskId).isSome
  | .dayPlan plan => (tables.tasks.lookup plan.taskId).isSome
  | _ => True

theorem find_materialized_eq_some_iff {key : RowKey} {row : Row} :
    merged.materialized.find key = some row ↔ merged.find key = some row ∧ merged.Attached row := by
  obtain ⟨entity, id⟩ := key
  cases entity with
  | list =>
      simp only [find, materialized, Option.map_eq_some_iff]
      constructor
      · rintro ⟨value, hlookup, rfl⟩
        exact ⟨⟨value, hlookup, rfl⟩, trivial⟩
      · exact fun h => h.1
  | task =>
      simp only [find, materialized, Option.map_eq_some_iff]
      constructor
      · rintro ⟨value, hlookup, rfl⟩
        exact ⟨⟨value, hlookup, rfl⟩, trivial⟩
      · exact fun h => h.1
  | step =>
      simp only [find, materialized, Option.map_eq_some_iff, Table.lookup_select_eq_some_iff]
      constructor
      · rintro ⟨value, ⟨hlookup, htask⟩, rfl⟩
        exact ⟨⟨value, hlookup, rfl⟩, htask⟩
      · rintro ⟨⟨value, hlookup, rfl⟩, htask⟩
        exact ⟨value, ⟨hlookup, htask⟩, rfl⟩
  | dayPlan =>
      simp only [find, materialized, Option.map_eq_some_iff, Table.lookup_select_eq_some_iff]
      constructor
      · rintro ⟨value, ⟨hlookup, htask⟩, rfl⟩
        exact ⟨⟨value, hlookup, rfl⟩, htask⟩
      · rintro ⟨⟨value, hlookup, rfl⟩, htask⟩
        exact ⟨value, ⟨hlookup, htask⟩, rfl⟩

/-- The constraints speak of what is found under each key. -/
theorem Consistent.of_find_eq {left right : Tables} (h : left.Consistent)
    (hsame : ∀ key, right.find key = left.find key) : right.Consistent := by
  have hlists : ∀ id, right.lists.lookup id = left.lists.lookup id := fun id =>
    Option.map_injective (fun _ _ => Row.list.inj) (hsame (.list, id))
  have htasks : ∀ id, right.tasks.lookup id = left.tasks.lookup id := fun id =>
    Option.map_injective (fun _ _ => Row.task.inj) (hsame (.task, id))
  have hsteps : ∀ id, right.steps.lookup id = left.steps.lookup id := fun id =>
    Option.map_injective (fun _ _ => Row.step.inj) (hsame (.step, id))
  have hplans : ∀ id, right.dayPlans.lookup id = left.dayPlans.lookup id := fun id =>
    Option.map_injective (fun _ _ => Row.dayPlan.inj) (hsame (.dayPlan, id))
  refine ⟨?_, ?_, ?_, ?_, ?_⟩
  · simpa only [hsame] using h.keyed
  · simpa only [hlists, htasks] using h.listOf
  · simpa only [htasks, hsteps] using h.taskOfStep
  · simpa only [htasks, hplans] using h.taskOfPlan
  · simpa only [hplans] using h.slot

theorem Consistent.materialized_eq {tables : Tables} (h : tables.Consistent) :
    tables.materialized = tables := by
  have hsteps : tables.materialized.steps = tables.steps := by
    apply AList.ext
    apply List.filter_eq_self.mpr
    rintro ⟨id, step⟩ hmem
    exact h.taskOfStep id step (Table.mem_entries_iff.mp hmem)
  have hplans : tables.materialized.dayPlans = tables.dayPlans := by
    apply AList.ext
    apply List.filter_eq_self.mpr
    rintro ⟨id, plan⟩ hmem
    exact h.taskOfPlan id plan (Table.mem_entries_iff.mp hmem)
  obtain ⟨lists, tasks, steps, dayPlans⟩ := tables
  exact congrArg₂ (Tables.mk lists tasks) hsteps hplans

/-- The constraints, as they speak of rows: parents are there, and no two plans share a slot. -/
theorem consistent_iff_rows {tables : Tables} (hkeyed : tables.Keyed) : tables.Consistent ↔
    (∀ task listId, tables.find (.task, task.id) = some (.task task) → task.listId = some listId →
      (tables.find (.list, listId)).isSome) ∧
    (∀ step, tables.find (.step, step.id) = some (.step step) →
      (tables.find (.task, step.taskId)).isSome) ∧
    (∀ plan, tables.find (.dayPlan, plan.id) = some (.dayPlan plan) →
      (tables.find (.task, plan.taskId)).isSome) ∧
    ∀ plan other, tables.find (.dayPlan, plan.id) = some (.dayPlan plan) →
      tables.find (.dayPlan, other.id) = some (.dayPlan other) → other.taskId = plan.taskId →
      other.localDate = plan.localDate → other.id = plan.id := by
  have htask : ∀ id value, tables.tasks.lookup id = some value →
      value.id = id ∧ tables.find (.task, id) = some (.task value) := by
    intro id value hlookup
    have hfind : tables.find (.task, id) = some (.task value) := by rw [find, hlookup]; rfl
    exact ⟨congrArg Prod.snd (hkeyed _ _ hfind), hfind⟩
  have hstep : ∀ id value, tables.steps.lookup id = some value →
      value.id = id ∧ tables.find (.step, id) = some (.step value) := by
    intro id value hlookup
    have hfind : tables.find (.step, id) = some (.step value) := by rw [find, hlookup]; rfl
    exact ⟨congrArg Prod.snd (hkeyed _ _ hfind), hfind⟩
  have hplan : ∀ id value, tables.dayPlans.lookup id = some value →
      value.id = id ∧ tables.find (.dayPlan, id) = some (.dayPlan value) := by
    intro id value hlookup
    have hfind : tables.find (.dayPlan, id) = some (.dayPlan value) := by rw [find, hlookup]; rfl
    exact ⟨congrArg Prod.snd (hkeyed _ _ hfind), hfind⟩
  have hlookupTask : ∀ task, tables.find (.task, task.id) = some (.task task) →
      tables.tasks.lookup task.id = some task := fun task hfind =>
    Option.map_injective (fun _ _ => Row.task.inj) hfind
  have hlookupStep : ∀ step, tables.find (.step, step.id) = some (.step step) →
      tables.steps.lookup step.id = some step := fun step hfind =>
    Option.map_injective (fun _ _ => Row.step.inj) hfind
  have hlookupPlan : ∀ plan, tables.find (.dayPlan, plan.id) = some (.dayPlan plan) →
      tables.dayPlans.lookup plan.id = some plan := fun plan hfind =>
    Option.map_injective (fun _ _ => Row.dayPlan.inj) hfind
  simp only [find, Option.isSome_map] at *
  constructor
  · intro h
    exact ⟨fun task listId hfind => h.listOf _ task (hlookupTask task hfind) listId,
      fun step hfind => h.taskOfStep _ step (hlookupStep step hfind),
      fun plan hfind => h.taskOfPlan _ plan (hlookupPlan plan hfind),
      fun plan other hfind hother => h.slot _ plan (hlookupPlan plan hfind) _ other
        (hlookupPlan other hother)⟩
  · rintro ⟨hlists, hsteps, hplans, hslots⟩
    refine ⟨hkeyed, ?_, ?_, ?_, ?_⟩
    · intro id task hlookup listId
      obtain ⟨rfl, hfind⟩ := htask id task hlookup
      exact hlists task listId hfind
    · intro id step hlookup
      obtain ⟨rfl, hfind⟩ := hstep id step hlookup
      exact hsteps step hfind
    · intro id plan hlookup
      obtain ⟨rfl, hfind⟩ := hplan id plan hlookup
      exact hplans plan hfind
    · intro id plan hlookup other taken htaken
      obtain ⟨rfl, hfind⟩ := hplan id plan hlookup
      obtain ⟨rfl, hother⟩ := hplan other taken htaken
      exact hslots plan taken hfind hother

end Tables

/-! ### The loop -/

/-- The rows so far stand as they will stand in the end, and no others. -/
def Written (merged : Tables) (done : List Row) (tables : Tables) : Prop :=
  ∀ key row, tables.find key = some row ↔
    merged.materialized.find key = some row ∧ row ∈ done

/-- The rows that a row may refer to are done before it. -/
def Preceded (merged : Tables) (done : List Row) (row : Row) : Prop :=
  ∀ parent, merged.find parent.key = some parent → entityOrder parent.entity < entityOrder row.entity →
    parent ∈ done

/-- In the order of the entities, every row comes after those that it may refer to. -/
theorem Ordered.preceded {merged : Tables} {rows done rest : List Row} {row : Row} (h : Ordered rows)
    (hmem : ∀ parent, merged.find parent.key = some parent → parent ∈ rows)
    (hrows : rows = done ++ row :: rest) : Preceded merged done row := by
  intro parent hparent horder
  have hparent := hmem parent hparent
  rw [hrows] at h hparent
  have hfirst := (List.pairwise_cons.mp (List.pairwise_append.mp h).2.1).1
  rcases List.mem_append.mp hparent with hdone | hlater
  · exact hdone
  · rcases List.mem_cons.mp hlater with rfl | hrest
    · exact absurd horder (lt_irrefl _)
    · exact absurd horder (not_lt.mpr (hfirst parent hrest))

theorem preceded_rows {merged : Tables} {done rest : List Row} {row : Row} (hkeyed : merged.Keyed)
    (hrows : merged.rows = done ++ row :: rest) : Preceded merged done row :=
  (ordered_rows _ _ _ _).preceded (fun _ => (Tables.mem_rows hkeyed).mpr) hrows

section

variable {merged : Tables} {done rest : List Row} {row : Row} {tx : Tx}

/-- Lists and tasks that the row may refer to stand already. -/
theorem Written.parent (h : Written merged done tx.tables) (hkeyed : merged.Keyed)
    (hpreceded : Preceded merged done row) {entity : EntityType}
    (hentity : entity = .list ∨ entity = .task) (horder : entityOrder entity < entityOrder row.entity)
    (id : String) : tx.tables.find (entity, id) = merged.find (entity, id) := by
  apply Option.ext
  intro parent
  rw [h (entity, id) parent, Tables.find_materialized_eq_some_iff]
  constructor
  · exact fun hparent => hparent.1.1
  · intro hparent
    have hkey := hkeyed _ _ hparent
    have hattached : merged.Attached parent := by
      cases parent with
      | list => trivial
      | task => trivial
      | step => rcases hentity with rfl | rfl <;> cases hkey
      | dayPlan => rcases hentity with rfl | rfl <;> cases hkey
    refine ⟨⟨hparent, hattached⟩, hpreceded parent (hkey.symm ▸ hparent) ?_⟩
    rw [show parent.entity = entity from congrArg Prod.fst hkey]
    exact horder

/-- Once a row that belongs to the result is put, it stands among the others. -/
theorem Written.put {tables : Tables} (h : Written merged done tables) (hkeyed : merged.Keyed)
    (hrow : merged.materialized.find row.key = some row) :
    Written merged (done ++ [row]) (tables.put row) := by
  intro key found
  rw [Tables.find_put, List.mem_append, List.mem_singleton]
  split
  · rename_i hkey
    subst hkey
    rw [hrow]
    constructor
    · rintro ⟨⟩
      exact ⟨rfl, Or.inr rfl⟩
    · rintro ⟨hfound, -⟩
      exact hfound
  · rename_i hkey
    rw [h key found]
    refine and_congr_right fun hfound => ⟨Or.inl, fun hmem => hmem.resolve_right ?_⟩
    rintro rfl
    exact hkey (hkeyed _ _ (Tables.find_materialized_eq_some_iff.mp hfound).1).symm

/-- A row that is left out is not part of the result. -/
theorem Written.skip {tables : Tables} (h : Written merged done tables)
    (hrow : ¬ merged.Attached row) : Written merged (done ++ [row]) tables := by
  intro key found
  rw [h key found, List.mem_append, List.mem_singleton]
  refine and_congr_right fun hfound => ⟨Or.inl, fun hmem => hmem.resolve_right ?_⟩
  rintro rfl
  exact hrow (Tables.find_materialized_eq_some_iff.mp hfound).2

theorem writeRow_of_attached (h : tx.tables.Attached row) : writeRow tx row = tx.write row := by
  cases row with
  | list value => rfl
  | task value => rfl
  | step value => exact if_neg (by simpa [Tables.Attached, ← Option.isSome_iff_ne_none] using h)
  | dayPlan value => exact if_neg (by simpa [Tables.Attached, ← Option.isSome_iff_ne_none] using h)

theorem writeRow_of_detached (h : ¬ tx.tables.Attached row) : writeRow tx row = .ok tx := by
  cases row with
  | list value => exact absurd trivial h
  | task value => exact absurd trivial h
  | step value => exact if_pos (by simpa [Tables.Attached] using h)
  | dayPlan value => exact if_pos (by simpa [Tables.Attached] using h)

theorem Written.attached_iff (h : Written merged done tx.tables) (hkeyed : merged.Keyed)
    (hpreceded : Preceded merged done row) : tx.tables.Attached row ↔ merged.Attached row := by
  have htask : entityOrder .task < entityOrder row.entity → ∀ id,
      tx.tables.tasks.lookup id = merged.tasks.lookup id := fun horder id =>
    Option.map_injective (fun _ _ => Row.task.inj) (h.parent hkeyed hpreceded (Or.inr rfl) horder id)
  cases row with
  | list value => exact Iff.rfl
  | task value => exact Iff.rfl
  | step value => rw [Tables.Attached, Tables.Attached, htask (show 1 < 2 by decide)]
  | dayPlan value => rw [Tables.Attached, Tables.Attached, htask (show 1 < 3 by decide)]

/-- Where the whole result keeps the constraints, each of its rows is accepted in its turn. -/
theorem Written.accepts (h : Written merged done tx.tables) (hkeyed : merged.Keyed)
    (hpreceded : Preceded merged done row) (hconsistent : merged.materialized.Consistent)
    (hrow : merged.materialized.find row.key = some row) : tx.tables.Accepts row := by
  have hattached := (h.attached_iff hkeyed hpreceded).mpr (Tables.find_materialized_eq_some_iff.mp hrow).2
  cases row with
  | list value => trivial
  | task value =>
      obtain ⟨found, hlookup, hfound⟩ := Option.map_eq_some_iff.mp hrow
      cases hfound
      intro listId hlistId
      have hlists : tx.tables.lists.lookup listId = merged.lists.lookup listId :=
        Option.map_injective (fun _ _ => Row.list.inj)
          (h.parent hkeyed hpreceded (Or.inl rfl) (show 0 < 1 by decide) listId)
      rw [hlists]
      exact hconsistent.listOf _ _ hlookup listId hlistId
  | step value => exact hattached
  | dayPlan value =>
      obtain ⟨found, hlookup, hfound⟩ := Option.map_eq_some_iff.mp hrow
      cases hfound
      refine ⟨hattached, fun other taken htaken htask hdate => ?_⟩
      have hfind : tx.tables.find (.dayPlan, other) = some (.dayPlan taken) := by
        rw [Tables.find, htaken]
        rfl
      obtain ⟨found, hother, hfound⟩ := Option.map_eq_some_iff.mp ((h _ _).mp hfind).1
      cases hfound
      exact hconsistent.slot _ _ hlookup other taken hother htask hdate

/-- What the loop does with one row. -/
theorem writeRow_written (h : Written merged done tx.tables) (hkeyed : merged.Keyed)
    (hrows : merged.rows = done ++ row :: rest) {after : Tx} (hwrite : writeRow tx row = .ok after) :
    WroteRows tx after ∧ Written merged (done ++ [row]) after.tables := by
  have hfind : merged.find row.key = some row :=
    (Tables.mem_rows hkeyed).mp (hrows ▸ List.mem_append_right _ List.mem_cons_self)
  have hpreceded := preceded_rows hkeyed hrows
  by_cases hattached : merged.Attached row
  · rw [writeRow_of_attached ((h.attached_iff hkeyed hpreceded).mpr hattached)] at hwrite
    obtain ⟨_, rfl⟩ := Tx.statement_ok hwrite
    exact ⟨⟨_, rfl⟩, h.put hkeyed (Tables.find_materialized_eq_some_iff.mpr ⟨hfind, hattached⟩)⟩
  · rw [writeRow_of_detached fun hhere => hattached ((h.attached_iff hkeyed hpreceded).mp hhere)] at hwrite
    cases hwrite
    exact ⟨WroteRows.refl _, h.skip hattached⟩

theorem writeRow_succeeds (h : Written merged done tx.tables) (hkeyed : merged.Keyed)
    (hrows : merged.rows = done ++ row :: rest) (hconsistent : merged.materialized.Consistent) :
    ∃ after, writeRow tx row = .ok after := by
  have hfind : merged.find row.key = some row :=
    (Tables.mem_rows hkeyed).mp (hrows ▸ List.mem_append_right _ List.mem_cons_self)
  have hpreceded := preceded_rows hkeyed hrows
  by_cases hattached : merged.Attached row
  · rw [writeRow_of_attached ((h.attached_iff hkeyed hpreceded).mpr hattached)]
    exact ⟨_, write_ok_of_accepts (h.accepts hkeyed hpreceded hconsistent
      (Tables.find_materialized_eq_some_iff.mpr ⟨hfind, hattached⟩))⟩
  · exact ⟨tx, writeRow_of_detached fun hhere => hattached ((h.attached_iff hkeyed hpreceded).mp hhere)⟩

end

/-- When the tables are written, what stands is exactly the collected rows that have their task. -/
theorem writeMaterialized_ok {merged : Tables} (hkeyed : merged.Keyed) {tx after : Tx}
    (h : writeMaterialized tx merged = .ok after) :
    WroteRows tx after ∧ ∀ key, after.tables.find key = merged.materialized.find key := by
  have hloop := foldlM_induction (fun rest state => WroteRows tx state ∧
    ∃ done, merged.rows = done ++ rest ∧ Written merged done state.tables) ?_
    ⟨⟨Rows.empty, rfl⟩, [], rfl, fun key row => by simp [Rows.empty]⟩ h
  · obtain ⟨hwrote, done, hrows, hwritten⟩ := hloop
    rw [List.append_nil] at hrows
    refine ⟨hwrote, fun key => Option.ext fun row => ?_⟩
    rw [hwritten key row, ← hrows]
    refine ⟨fun hfound => hfound.1, fun hfound => ⟨hfound, (Tables.mem_rows hkeyed).mpr ?_⟩⟩
    have hfind := (Tables.find_materialized_eq_some_iff.mp hfound).1
    rwa [hkeyed key row hfind]
  · rintro row rest state next ⟨⟨rows, rfl⟩, done, hrows, hwritten⟩ hwrite
    obtain ⟨⟨again, rfl⟩, hnext⟩ := writeRow_written hwritten hkeyed hrows hwrite
    exact ⟨⟨again, rfl⟩, done ++ [row], by rw [hrows, List.append_cons], hnext⟩

/-- The tables are written exactly when the collected rows that have their task keep the constraints. -/
theorem writeMaterialized_succeeds_iff {merged : Tables} (hkeyed : merged.Keyed) (tx : Tx) :
    (∃ after, writeMaterialized tx merged = .ok after) ↔ merged.materialized.Consistent := by
  constructor
  · rintro ⟨after, h⟩
    obtain ⟨-, hfind⟩ := writeMaterialized_ok hkeyed h
    exact after.store.rows.property.of_find_eq fun key => (hfind key).symm
  · intro hconsistent
    suffices hloop : ∀ rest done state, merged.rows = done ++ rest → Written merged done state.tables →
        ∃ after, rest.foldlM writeRow state = .ok after from
      hloop merged.rows [] _ rfl fun key row => by simp [Rows.empty]
    intro rest
    induction rest with
    | nil => exact fun done state _ _ => ⟨state, rfl⟩
    | cons row rest ih =>
        intro done state hrows hwritten
        obtain ⟨next, hnext⟩ := writeRow_succeeds hwritten hkeyed hrows hconsistent
        obtain ⟨-, hmore⟩ := writeRow_written hwritten hkeyed hrows hnext
        obtain ⟨after, hafter⟩ := ih (done ++ [row]) next (by rw [hrows, List.append_cons]) hmore
        exact ⟨after, by rw [List.foldlM_cons, hnext]; exact hafter⟩

end ShishiTodo.Native
