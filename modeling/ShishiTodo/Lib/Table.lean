import Mathlib.Data.List.AList

/-!
# Tables

A table holds at most one row under each key. Mathlib's `AList` carries that as a field; this module adds what SQL statements need beyond lookup, insert and erase: a test over all rows, the selection of some rows, and how both look at a row written under one key.
-/

namespace Lib

/-- Rows of type `ρ`, at most one under each key. -/
abbrev Table (κ ρ : Type*) := AList (fun _ : κ => ρ)

namespace Table

variable {κ ρ : Type*} [DecidableEq κ]

/-- Whether some row satisfies the test. -/
def any (table : Table κ ρ) (test : κ → ρ → Bool) : Bool :=
  table.entries.any fun entry => test entry.1 entry.2

/-- The rows the test selects. -/
def select (table : Table κ ρ) (test : κ → ρ → Bool) : Table κ ρ where
  entries := table.entries.filter fun entry => test entry.1 entry.2
  nodupKeys := by
    have hsub : (table.entries.filter fun entry => test entry.1 entry.2).Sublist table.entries :=
      List.filter_sublist
    exact table.nodupKeys.sublist hsub

/-- `UPDATE`: every row is rewritten under its key. -/
def rewrite (table : Table κ ρ) (change : κ → ρ → ρ) : Table κ ρ where
  entries := table.entries.map fun entry => ⟨entry.1, change entry.1 entry.2⟩
  nodupKeys := by
    rw [List.NodupKeys, List.keys, List.map_map]
    exact table.nodupKeys

/-- The rows, without their keys. -/
def values (table : Table κ ρ) : List ρ := table.entries.map Sigma.snd

theorem mem_entries_iff {table : Table κ ρ} {key : κ} {row : ρ} :
    (⟨key, row⟩ : Sigma fun _ : κ => ρ) ∈ table.entries ↔ table.lookup key = some row :=
  AList.mem_lookup_iff.symm

theorem mem_values_iff {table : Table κ ρ} {row : ρ} :
    row ∈ table.values ↔ ∃ key, table.lookup key = some row := by
  simp only [values, List.mem_map]
  constructor
  · rintro ⟨⟨key, row⟩, hmem, rfl⟩
    exact ⟨key, mem_entries_iff.mp hmem⟩
  · rintro ⟨key, hlookup⟩
    exact ⟨⟨key, row⟩, mem_entries_iff.mpr hlookup, rfl⟩

/-- Where each row says its own key, a row is there exactly when it stands under that key. -/
theorem mem_values_of_keyed {table : Table κ ρ} {keyOf : ρ → κ}
    (hkeyed : ∀ key row, table.lookup key = some row → keyOf row = key) {row : ρ} :
    row ∈ table.values ↔ table.lookup (keyOf row) = some row := by
  rw [mem_values_iff]
  constructor
  · rintro ⟨key, hlookup⟩
    rwa [hkeyed key row hlookup]
  · exact fun hlookup => ⟨keyOf row, hlookup⟩

theorem any_eq_true_iff {table : Table κ ρ} {test : κ → ρ → Bool} :
    table.any test = true ↔ ∃ key row, table.lookup key = some row ∧ test key row = true := by
  simp only [any, List.any_eq_true]
  constructor
  · rintro ⟨⟨key, row⟩, hmem, htest⟩
    exact ⟨key, row, mem_entries_iff.mp hmem, htest⟩
  · rintro ⟨key, row, hlookup, htest⟩
    exact ⟨⟨key, row⟩, mem_entries_iff.mpr hlookup, htest⟩

theorem any_eq_false_iff {table : Table κ ρ} {test : κ → ρ → Bool} :
    table.any test = false ↔ ∀ key row, table.lookup key = some row → test key row = false := by
  rw [← Bool.not_eq_true, any_eq_true_iff]
  simp only [not_exists, not_and, Bool.not_eq_true]

theorem lookup_select_eq_some_iff {table : Table κ ρ} {test : κ → ρ → Bool} {key : κ} {row : ρ} :
    (table.select test).lookup key = some row ↔
      table.lookup key = some row ∧ test key row = true := by
  rw [← mem_entries_iff, ← mem_entries_iff]
  simp [select]

theorem lookup_select_of_true {table : Table κ ρ} {test : κ → ρ → Bool} {key : κ} {row : ρ}
    (hlookup : table.lookup key = some row) (htest : test key row = true) :
    (table.select test).lookup key = some row :=
  lookup_select_eq_some_iff.mpr ⟨hlookup, htest⟩

theorem lookup_of_lookup_select {table : Table κ ρ} {test : κ → ρ → Bool} {key : κ} {row : ρ}
    (hlookup : (table.select test).lookup key = some row) : table.lookup key = some row :=
  (lookup_select_eq_some_iff.mp hlookup).1

theorem lookup_select (table : Table κ ρ) (test : κ → ρ → Bool) (key : κ) :
    (table.select test).lookup key = (table.lookup key).filter (test key) := by
  apply Option.ext
  intro row
  rw [lookup_select_eq_some_iff, Option.filter_eq_some_iff]

theorem lookup_select_true (table : Table κ ρ) (key : κ) :
    (table.select fun _ _ => true).lookup key = table.lookup key := by
  apply Option.ext
  intro row
  rw [lookup_select_eq_some_iff, and_iff_left rfl]

theorem lookup_insert_eq_ite (table : Table κ ρ) (key other : κ) (row : ρ) :
    (table.insert key row).lookup other = if other = key then some row else table.lookup other := by
  by_cases hkey : other = key
  · subst hkey
    rw [if_pos rfl, AList.lookup_insert]
  · rw [if_neg hkey, AList.lookup_insert_ne hkey]

theorem lookup_erase_eq_ite (table : Table κ ρ) (key other : κ) :
    (table.erase key).lookup other = if other = key then none else table.lookup other := by
  by_cases hkey : other = key
  · subst hkey
    rw [if_pos rfl, AList.lookup_erase]
  · rw [if_neg hkey, AList.lookup_erase_ne hkey]

theorem mem_values_insert {table : Table κ ρ} {key : κ} {row found : ρ}
    (h : found ∈ values (table.insert key row)) : found = row ∨ found ∈ table.values := by
  obtain ⟨other, hlookup⟩ := mem_values_iff.mp h
  rw [lookup_insert_eq_ite] at hlookup
  split at hlookup
  · exact .inl (Option.some.inj hlookup).symm
  · exact .inr (mem_values_iff.mpr ⟨other, hlookup⟩)

theorem mem_values_erase {table : Table κ ρ} {key : κ} {found : ρ}
    (h : found ∈ values (table.erase key)) : found ∈ table.values := by
  obtain ⟨other, hlookup⟩ := mem_values_iff.mp h
  rw [lookup_erase_eq_ite] at hlookup
  split at hlookup
  · cases hlookup
  · exact mem_values_iff.mpr ⟨other, hlookup⟩

theorem mem_values_select {table : Table κ ρ} {test : κ → ρ → Bool} {found : ρ}
    (h : found ∈ (table.select test).values) : found ∈ table.values := by
  obtain ⟨other, hlookup⟩ := mem_values_iff.mp h
  exact mem_values_iff.mpr ⟨other, lookup_of_lookup_select hlookup⟩

theorem lookup_rewrite (table : Table κ ρ) (change : κ → ρ → ρ) (key : κ) :
    (table.rewrite change).lookup key = (table.lookup key).map (change key) := by
  apply Option.ext
  intro row
  rw [← mem_entries_iff, Option.map_eq_some_iff]
  constructor
  · intro hmem
    obtain ⟨⟨other, found⟩, hfound, heq⟩ := List.mem_map.mp hmem
    cases heq
    exact ⟨found, mem_entries_iff.mp hfound, rfl⟩
  · rintro ⟨found, hlookup, rfl⟩
    exact List.mem_map.mpr ⟨⟨key, found⟩, mem_entries_iff.mpr hlookup, rfl⟩

/-- A new row is rewritten before it is written or after. -/
theorem rewrite_insert_of_lookup_eq_none {table : Table κ ρ} {key : κ} {row : ρ}
    (hnew : table.lookup key = none) (change : κ → ρ → ρ) :
    rewrite (table.insert key row) change = AList.insert key (change key row) (table.rewrite change) := by
  have hnone : key ∉ table := AList.lookup_eq_none.mp hnew
  have hrewritten : key ∉ table.rewrite change := by
    rw [← AList.lookup_eq_none, lookup_rewrite, hnew]
    rfl
  apply AList.ext
  rw [AList.entries_insert_of_notMem hrewritten]
  simp only [rewrite, AList.entries_insert_of_notMem hnone, List.map_cons]

/-- Of the items written under one key, the last one stays. -/
theorem lookup_foldl_insert {α : Type*} (key : α → κ) (row : α → ρ) (items : List α)
    (table : Table κ ρ) (other : κ) :
    (items.foldl (fun table item => table.insert (key item) (row item)) table).lookup other =
      ((items.reverse.find? fun item => key item = other).map row).or (table.lookup other) := by
  induction items generalizing table with
  | nil => rfl
  | cons item rest ih =>
      rw [List.foldl_cons, ih, List.reverse_cons, List.find?_append, lookup_insert_eq_ite]
      cases rest.reverse.find? fun item => key item = other with
      | some found => rfl
      | none =>
          by_cases hkey : key item = other
          · simp [hkey]
          · simp [hkey, Ne.symm hkey]

end Table

end Lib
