import Mathlib.Data.List.Nodup

/-!
# Maps that keep the order of their keys

A map whose keys stand in the order in which they came: a key that is set again keeps its place. What such a map holds under a key is said by `get`; a loop over things with distinct keys, each of which touches its own key only, is said key by key.
-/

namespace Lib

structure OrderedMap (κ ρ : Type*) where
  entries : List (κ × ρ)
  nodup : (entries.map Prod.fst).Nodup

namespace OrderedMap

variable {κ ρ : Type*} [DecidableEq κ]

def empty : OrderedMap κ ρ := ⟨[], List.nodup_nil⟩

def keys (map : OrderedMap κ ρ) : List κ := map.entries.map Prod.fst

def values (map : OrderedMap κ ρ) : List ρ := map.entries.map Prod.snd

def get (map : OrderedMap κ ρ) (key : κ) : Option ρ := map.entries.lookup key

def setEntry (key : κ) (row : ρ) : List (κ × ρ) → List (κ × ρ)
  | [] => [(key, row)]
  | (other, old) :: rest =>
      if other = key then (key, row) :: rest else (other, old) :: setEntry key row rest

theorem mem_keys_setEntry {key other : κ} {row : ρ} {entries : List (κ × ρ)} :
    other ∈ (setEntry key row entries).map Prod.fst ↔ other = key ∨ other ∈ entries.map Prod.fst := by
  induction entries with
  | nil => simp [setEntry]
  | cons entry rest ih =>
      obtain ⟨first, old⟩ := entry
      rw [setEntry]
      split
      · rename_i heq
        subst heq
        simp only [List.map_cons, List.mem_cons, ← or_assoc, or_self]
      · simp only [List.map_cons, List.mem_cons, ih]
        tauto

theorem nodup_setEntry {key : κ} {row : ρ} : ∀ {entries : List (κ × ρ)},
    (entries.map Prod.fst).Nodup → ((setEntry key row entries).map Prod.fst).Nodup
  | [], _ => List.nodup_singleton key
  | (first, old) :: rest, h => by
      rw [List.map_cons, List.nodup_cons] at h
      rw [setEntry]
      split
      · rename_i heq
        subst heq
        exact List.nodup_cons.mpr h
      · rename_i hne
        refine List.nodup_cons.mpr ⟨fun hmem => ?_, nodup_setEntry h.2⟩
        exact (mem_keys_setEntry.mp hmem).elim hne h.1

theorem lookup_setEntry (key other : κ) (row : ρ) (entries : List (κ × ρ)) :
    (setEntry key row entries).lookup other = if other = key then some row else entries.lookup other := by
  induction entries with
  | nil =>
      by_cases h : other = key
      · simp [setEntry, h]
      · simp [setEntry, h, List.lookup_cons, beq_false_of_ne h]
  | cons entry rest ih =>
      obtain ⟨first, old⟩ := entry
      rw [setEntry]
      split
      · rename_i heq
        subst heq
        by_cases h : other = first
        · simp [h]
        · simp [h, List.lookup_cons, beq_false_of_ne h]
      · rename_i hne
        by_cases h : other = first
        · subst h
          simp [hne]
        · rw [List.lookup_cons, List.lookup_cons, beq_false_of_ne h]
          exact ih

def set (map : OrderedMap κ ρ) (key : κ) (row : ρ) : OrderedMap κ ρ :=
  ⟨setEntry key row map.entries, nodup_setEntry map.nodup⟩

def delete (map : OrderedMap κ ρ) (key : κ) : OrderedMap κ ρ where
  entries := map.entries.filter fun entry => entry.1 ≠ key
  nodup := map.nodup.sublist (List.filter_sublist.map Prod.fst)

/-- The map of the pairs: of the rows under one key, the last one stays. -/
def ofList (pairs : List (κ × ρ)) : OrderedMap κ ρ :=
  pairs.foldl (fun map pair => map.set pair.1 pair.2) empty

@[simp] theorem get_empty (key : κ) : (empty : OrderedMap κ ρ).get key = none := rfl

theorem get_set (map : OrderedMap κ ρ) (key other : κ) (row : ρ) :
    (map.set key row).get other = if other = key then some row else map.get other :=
  lookup_setEntry key other row map.entries

theorem get_delete (map : OrderedMap κ ρ) (key other : κ) :
    (map.delete key).get other = if other = key then none else map.get other := by
  show (map.entries.filter fun entry => entry.1 ≠ key).lookup other =
    if other = key then none else map.entries.lookup other
  induction map.entries with
  | nil => simp
  | cons entry rest ih =>
      obtain ⟨first, old⟩ := entry
      rw [List.filter_cons]
      by_cases hfirst : first = key
      · subst hfirst
        rw [if_neg (by simp), ih]
        by_cases h : other = first
        · simp [h]
        · simp [h, List.lookup_cons, beq_false_of_ne h]
      · rw [if_pos (by simpa using hfirst), List.lookup_cons, List.lookup_cons, ih]
        by_cases h : other = first
        · subst h
          simp [hfirst]
        · simp [beq_false_of_ne h]

theorem get_isSome_iff {map : OrderedMap κ ρ} {key : κ} : (map.get key).isSome ↔ key ∈ map.keys := by
  rw [get, keys]
  induction map.entries with
  | nil => simp
  | cons entry rest ih =>
      obtain ⟨first, old⟩ := entry
      by_cases h : key = first
      · simp [h]
      · rw [List.lookup_cons, beq_false_of_ne h, ih]
        simp [h]

/-- A pair stands in the map exactly when the map holds the row under the key. -/
theorem mem_entries_iff {map : OrderedMap κ ρ} {key : κ} {row : ρ} :
    (key, row) ∈ map.entries ↔ map.get key = some row := by
  obtain ⟨entries, hnodup⟩ := map
  show (key, row) ∈ entries ↔ entries.lookup key = some row
  induction entries with
  | nil => simp
  | cons entry rest ih =>
      obtain ⟨first, old⟩ := entry
      rw [List.map_cons, List.nodup_cons] at hnodup
      by_cases h : key = first
      · subst h
        have hfresh : (key, row) ∉ rest := fun hmem => hnodup.1 (List.mem_map.mpr ⟨_, hmem, rfl⟩)
        rw [List.lookup_cons_self, List.mem_cons, or_iff_left hfresh, Prod.mk.injEq, and_iff_right rfl,
          Option.some.injEq]
        exact eq_comm
      · rw [List.lookup_cons, beq_false_of_ne h, List.mem_cons, Prod.mk.injEq, ih hnodup.2]
        exact or_iff_right fun heq => h heq.1

theorem mem_of_get_foldl_set {key : κ} {row : ρ} : ∀ (pairs : List (κ × ρ)) (map : OrderedMap κ ρ),
    (pairs.foldl (fun map pair => map.set pair.1 pair.2) map).get key = some row →
      (key, row) ∈ pairs ∨ map.get key = some row
  | [], _, h => Or.inr h
  | pair :: rest, map, h => by
      rcases mem_of_get_foldl_set rest (map.set pair.1 pair.2) h with hrest | hset
      · exact Or.inl (List.mem_cons_of_mem pair hrest)
      · rw [get_set] at hset
        split at hset
        · rename_i heq
          cases hset
          exact Or.inl (heq ▸ List.mem_cons_self)
        · exact Or.inr hset

/-- What the map of the pairs holds is one of the pairs. -/
theorem mem_of_get_ofList {key : κ} {row : ρ} {pairs : List (κ × ρ)} (h : (ofList pairs).get key = some row) :
    (key, row) ∈ pairs :=
  (mem_of_get_foldl_set pairs empty h).resolve_right nofun

/-- Every row says its own key. -/
def Keyed (map : OrderedMap κ ρ) (keyOf : ρ → κ) : Prop := ∀ key row, map.get key = some row → keyOf row = key

variable {map : OrderedMap κ ρ} {keyOf : ρ → κ}

theorem Keyed.map_values (h : map.Keyed keyOf) : map.values.map keyOf = map.keys := by
  rw [values, keys, List.map_map]
  exact List.map_congr_left fun entry hentry => h entry.1 entry.2 (mem_entries_iff.mp hentry)

theorem Keyed.find_values (h : map.Keyed keyOf) (key : κ) :
    (map.values.find? fun row => keyOf row = key) = map.get key := by
  cases hfind : map.values.find? fun row => keyOf row = key with
  | none =>
      rw [List.find?_eq_none] at hfind
      symm
      rw [Option.eq_none_iff_forall_ne_some]
      intro row hrow
      exact hfind row (List.mem_map.mpr ⟨_, mem_entries_iff.mpr hrow, rfl⟩) (decide_eq_true (h key row hrow))
  | some row =>
      obtain ⟨entry, hentry, rfl⟩ := List.mem_map.mp (List.mem_of_find?_eq_some hfind)
      have hget := mem_entries_iff.mp hentry
      have hown : keyOf entry.2 = key := by simpa using List.find?_some hfind
      rw [← hown, h entry.1 entry.2 hget, hget]

end OrderedMap

/-- A key is found among keys exactly when it is one of them. -/
theorem find_key {κ : Type*} [DecidableEq κ] {keys : List κ} {key : κ} :
    (keys.find? fun other => other = key) = if key ∈ keys then some key else none := by
  induction keys with
  | nil => rfl
  | cons first rest ih =>
      rw [List.find?_cons]
      by_cases h : first = key
      · simp [h]
      · simp [h, Ne.symm h, ih]

/-- In a loop over things with distinct keys, each of which touches its own key only, a key is touched once or never. -/
theorem foldl_own {σ α κ ρ : Type*} [DecidableEq κ] {step : σ → α → σ} {key : α → κ} {read : σ → κ → ρ}
    {effect : α → ρ → ρ}
    (hown : ∀ state item, read (step state item) (key item) = effect item (read state (key item)))
    (hother : ∀ state item other, other ≠ key item → read (step state item) other = read state other) :
    ∀ (items : List α) (state : σ), (items.map key).Nodup → ∀ other,
      read (items.foldl step state) other =
        match items.find? fun item => key item = other with
        | some item => effect item (read state other)
        | none => read state other
  | [], state, _, other => rfl
  | item :: rest, state, hnodup, other => by
      rw [List.map_cons, List.nodup_cons] at hnodup
      rw [List.foldl_cons, foldl_own hown hother rest (step state item) hnodup.2, List.find?_cons]
      by_cases h : key item = other
      · subst h
        have hnone : rest.find? (fun later => key later = key item) = none := by
          rw [List.find?_eq_none]
          intro later hlater heq
          exact hnodup.1 (List.mem_map.mpr ⟨later, hlater, of_decide_eq_true heq⟩)
        rw [hnone, decide_eq_true rfl]
        exact hown state item
      · rw [decide_eq_false h, hother state item other (Ne.symm h)]

end Lib
