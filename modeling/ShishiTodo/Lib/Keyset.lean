import Mathlib.Data.List.Sort

/-!
# Keyset pages

Reading a collection in pages ordered by a key, each page continuing after the last key of the one before. A page holds the rows next in order and says whether there are more; the rows it skips all come after its last one. Nothing is assumed about what happens to the collection between two pages.
-/

namespace Lib

variable {α κ : Type*} [LinearOrder κ] (key : α → κ)

/-- The rows after a position, in order, at most `bound` of them. -/
def keysetRows (rows : List α) (position : Option κ) (bound : Nat) : List α :=
  ((rows.filter fun row => position.all fun last => decide (last < key row)).insertionSort
    fun left right => key left ≤ key right).take bound

/-- The rows of a page and whether there are more: one row beyond the limit is read to tell. -/
def keysetPage (rows : List α) (position : Option κ) (limit : Nat) : List α × Bool :=
  let read := keysetRows key rows position (limit + 1)
  (read.take limit, decide (limit < read.length))

variable {key} {rows : List α} {position : Option κ} {limit : Nat}

theorem keysetPage_fst :
    (keysetPage key rows position limit).1 = keysetRows key rows position limit := by
  simp [keysetPage, keysetRows, List.take_take]

theorem mem_of_mem_keysetRows {row : α} (h : row ∈ keysetRows key rows position limit) :
    row ∈ rows ∧ ∀ last, position = some last → last < key row := by
  have hmem := List.mem_of_mem_take h
  rw [List.mem_insertionSort, List.mem_filter] at hmem
  refine ⟨hmem.1, fun last hlast => ?_⟩
  simpa [hlast] using hmem.2

/-- A page is in order. -/
theorem keysetRows_sorted (position : Option κ) (limit : Nat) (hdistinct : (rows.map key).Nodup) :
    ((keysetRows key rows position limit).map key).Pairwise (· < ·) := by
  have hsorted : ((rows.filter fun row => position.all fun last => decide (last < key row)).insertionSort
      fun left right => key left ≤ key right).Pairwise fun left right => key left ≤ key right :=
    List.pairwise_insertionSort _ _
  have hnodup : (((rows.filter fun row => position.all fun last =>
      decide (last < key row)).insertionSort fun left right => key left ≤ key right).map key).Nodup :=
    ((List.perm_insertionSort _ _).map key).nodup_iff.mpr
      (hdistinct.sublist (List.filter_sublist.map key))
  have hstrict := (List.pairwise_map.mpr hsorted).and hnodup
  exact (hstrict.imp fun h => lt_of_le_of_ne h.1 h.2).sublist ((List.take_sublist _ _).map key)

/-- A row after the position is on the page, unless there are more pages and it comes after the last row of this one. -/
theorem mem_keysetRows {row : α} (hdistinct : (rows.map key).Nodup) (hrow : row ∈ rows)
    (hposition : ∀ last, position = some last → last < key row)
    (hreached : (keysetPage key rows position limit).2 = false ∨
      ∃ last ∈ keysetRows key rows position limit, key row ≤ key last) :
    row ∈ keysetRows key rows position limit := by
  let sorted := (rows.filter fun row => position.all fun last => decide (last < key row)).insertionSort
    fun left right => key left ≤ key right
  have hmem : row ∈ sorted := by
    rw [List.mem_insertionSort, List.mem_filter]
    refine ⟨hrow, ?_⟩
    cases position with
    | none => rfl
    | some last => simpa using hposition last rfl
  have hall : (keysetRows key rows position sorted.length) = sorted := List.take_length
  have hstrict : (sorted.map key).Pairwise (· < ·) := hall ▸ keysetRows_sorted _ _ hdistinct
  rcases hreached with hmore | ⟨last, hlast, hle⟩
  · have hshort : sorted.length ≤ limit := by
      simp only [keysetPage, keysetRows, decide_eq_false_iff_not, List.length_take] at hmore
      change ¬ limit < min (limit + 1) sorted.length at hmore
      omega
    change row ∈ sorted.take limit
    rwa [List.take_of_length_le hshort]
  · rw [← List.take_append_drop limit sorted, List.mem_append] at hmem
    refine hmem.resolve_right fun hdrop => ?_
    rw [← List.take_append_drop limit sorted, List.map_append, List.pairwise_append] at hstrict
    have hlt := hstrict.2.2 _ (List.mem_map_of_mem hlast) _ (List.mem_map_of_mem hdrop)
    exact absurd hle (not_le.mpr hlt)

/-! ### Scans -/

/-- What a scan has read: its rows in order, up to its position while it goes on, and every stable key that it has passed. -/
structure ScanSound (key : α → κ) (stable : κ → Prop) (seen : List α) (position : Option κ)
    (done : Bool) : Prop where
  ascending : (seen.map key).Pairwise (· < ·)
  upTo : done = false → ∀ row ∈ seen, ∃ last, position = some last ∧ key row ≤ last
  covered : ∀ k, stable k → (done = true ∨ ∃ last, position = some last ∧ k ≤ last) →
    k ∈ seen.map key

theorem ScanSound.start (key : α → κ) (stable : κ → Prop) : ScanSound key stable [] none false where
  ascending := .nil
  upTo := by simp
  covered := by simp

/-- One more page, read from a collection that holds all stable keys. -/
theorem ScanSound.page {stable : κ → Prop} {seen : List α} (h : ScanSound key stable seen position false)
    (hdistinct : (rows.map key).Nodup) (hstable : ∀ k, stable k → k ∈ rows.map key)
    (hlimit : 0 < limit) (next : Option κ)
    (hnext : (keysetPage key rows position limit).2 = true →
      next = (keysetPage key rows position limit).1.getLast?.map key) :
    ScanSound key stable (seen ++ (keysetPage key rows position limit).1) next
      (!(keysetPage key rows position limit).2) := by
  rw [keysetPage_fst] at hnext ⊢
  have hsorted := keysetRows_sorted position limit hdistinct
  have hafter : ∀ row ∈ seen, ∀ other ∈ keysetRows key rows position limit, key row < key other := by
    intro row hrow other hother
    obtain ⟨last, hlast, hle⟩ := h.upTo rfl row hrow
    exact hle.trans_lt ((mem_of_mem_keysetRows hother).2 last hlast)
  -- With more to come the page is not empty, and its last row is where the scan stands.
  have hmore : (keysetPage key rows position limit).2 = true →
      ∃ last ∈ keysetRows key rows position limit, next = some (key last) ∧
        ∀ row ∈ keysetRows key rows position limit, key row ≤ key last := by
    intro hmore
    have hnonempty : keysetRows key rows position limit ≠ [] := by
      intro hempty
      simp only [keysetPage, decide_eq_true_eq] at hmore
      have hlength := congrArg List.length hempty
      simp only [keysetRows, List.length_take, List.length_nil] at hmore hlength
      omega
    refine ⟨_, List.getLast_mem hnonempty, ?_, fun row hrow => ?_⟩
    · rw [hnext hmore, List.getLast?_eq_some_getLast hnonempty]
      rfl
    · rw [← List.dropLast_append_getLast hnonempty] at hrow hsorted
      rcases List.mem_append.mp hrow with hbefore | hlast
      · rw [List.map_append, List.pairwise_append] at hsorted
        exact (hsorted.2.2 _ (List.mem_map_of_mem hbefore) _ (by simp)).le
      · rw [List.mem_singleton.mp hlast]
  refine ⟨?_, fun hgoing row hrow => ?_, fun k hk hreached => ?_⟩
  · rw [List.map_append, List.pairwise_append]
    refine ⟨h.ascending, hsorted, fun a ha b hb => ?_⟩
    obtain ⟨row, hrow, rfl⟩ := List.mem_map.mp ha
    obtain ⟨other, hother, rfl⟩ := List.mem_map.mp hb
    exact hafter row hrow other hother
  · obtain ⟨last, hlast, hnext', hle⟩ := hmore (by simpa using hgoing)
    refine ⟨key last, hnext', ?_⟩
    rcases List.mem_append.mp hrow with hold | hnew
    · exact (hafter row hold last hlast).le
    · exact hle row hnew
  · rw [List.map_append, List.mem_append]
    by_cases hpassed : ∃ last, position = some last ∧ k ≤ last
    · exact .inl (h.covered k hk (.inr hpassed))
    · obtain ⟨row, hrow, rfl⟩ := List.mem_map.mp (hstable k hk)
      have hposition : ∀ last, position = some last → last < key row := fun last hlast =>
        not_le.mp fun hle => hpassed ⟨last, hlast, hle⟩
      refine .inr (List.mem_map_of_mem (mem_keysetRows hdistinct hrow hposition ?_))
      cases hpage : (keysetPage key rows position limit).2 with
      | false => exact .inl rfl
      | true =>
          obtain ⟨last, hlast, hnext', -⟩ := hmore hpage
          rcases hreached with hdone | ⟨reached, hreached, hle⟩
          · rw [hpage] at hdone
            cases hdone
          · rw [hnext', Option.some.injEq] at hreached
            exact .inr ⟨last, hlast, hreached ▸ hle⟩

end Lib
