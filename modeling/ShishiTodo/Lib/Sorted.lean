import ShishiTodo.Lib.Span
import Mathlib.Data.List.Sort

/-!
# Prefixes of sorted lists

Deleting the first rows of one order from a list kept in another order is harmless when the second order agrees with the first on what is deleted: then only a prefix goes. Stated for rows numbered by consecutive integers.
-/

namespace Lib

variable {α : Type*}

/-- In a sorted list, everything strictly before a taken element is taken. -/
theorem mem_take_of_not_rel {r : α → α → Prop} {rows : List α} (hsorted : rows.Pairwise r)
    {count : Nat} {early late : α} (hearly : early ∈ rows) (hlate : late ∈ rows.take count)
    (hbefore : ¬ r late early) : early ∈ rows.take count := by
  rw [← List.take_append_drop count rows, List.mem_append] at hearly
  rcases hearly with htaken | hdropped
  · exact htaken
  · rw [← List.take_append_drop count rows, List.pairwise_append] at hsorted
    exact absurd (hsorted.2.2 late hlate early hdropped) hbefore

/-- Rows numbered consecutively, filtered by a test that once met is met by every later row, are numbered consecutively up to the same end. -/
theorem map_filter_range {number : α → Int} (keep : α → Bool) :
    ∀ {rows : List α} {first next : Int}, first ≤ next →
      rows.map number = Int.range first next →
      (∀ early ∈ rows, ∀ late ∈ rows, number early < number late → keep early = true →
        keep late = true) →
      ∃ middle, first ≤ middle ∧ middle ≤ next ∧
        (rows.filter keep).map number = Int.range middle next
  | [], first, next, hle, hrows, _ => by
      refine ⟨next, hle, le_rfl, ?_⟩
      rw [range_self]
      rfl
  | row :: rest, first, next, hle, hrows, hup => by
      have hlt : first < next := by
        by_contra hnot
        have heq : first = next := by omega
        rw [heq, range_self] at hrows
        cases hrows
      have hcons : Int.range first next = first :: Int.range (first + 1) next := by
        rw [← range_append (show first ≤ first + 1 by omega) hlt, range_succ le_rfl, range_self]
        rfl
      rw [hcons, List.map_cons, List.cons.injEq] at hrows
      obtain ⟨hrow, hrest⟩ := hrows
      cases hkeep : keep row with
      | true =>
          refine ⟨first, le_rfl, hle, ?_⟩
          have hall : (row :: rest).filter keep = row :: rest := by
            refine List.filter_eq_self.mpr fun late hlate => ?_
            rcases List.mem_cons.mp hlate with rfl | hmem
            · exact hkeep
            · have hlater := (Int.mem_range_iff.mp (hrest ▸ List.mem_map_of_mem hmem :
                number late ∈ Int.range (first + 1) next)).1
              exact hup row List.mem_cons_self late hlate (by omega) hkeep
          rw [hall, List.map_cons, hrow, hrest, hcons]
      | false =>
          obtain ⟨middle, hfirst, hnext, hfilter⟩ := map_filter_range keep hlt hrest
            fun early hearly late hlate =>
              hup early (List.mem_cons_of_mem row hearly) late (List.mem_cons_of_mem row hlate)
          refine ⟨middle, by omega, hnext, ?_⟩
          rw [List.filter_cons_of_neg (by simp [hkeep])]
          exact hfilter

/-- Of rows numbered consecutively, those numbered from `middle` on. -/
theorem map_filter_ge_range {number : α → Int} {rows : List α} {first middle next : Int}
    (hrows : rows.map number = Int.range first next) (hfirst : first ≤ middle)
    (hnext : middle ≤ next) :
    (rows.filter fun row => decide (middle ≤ number row)).map number = Int.range middle next := by
  have hfilter : (rows.filter fun row => decide (middle ≤ number row)).map number =
      (rows.map number).filter fun n => decide (middle ≤ n) := by
    rw [List.filter_map]
    rfl
  rw [hfilter, hrows, ← range_append hfirst hnext, List.filter_append]
  have hlow : (Int.range first middle).filter (fun n => decide (middle ≤ n)) = [] :=
    List.filter_eq_nil_iff.mpr fun n hn => by
      have := (Int.mem_range_iff.mp hn).2
      simp only [decide_eq_true_eq]
      omega
  have hhigh : (Int.range middle next).filter (fun n => decide (middle ≤ n)) =
      Int.range middle next :=
    List.filter_eq_self.mpr fun n hn => by
      simpa using (Int.mem_range_iff.mp hn).1
  rw [hlow, hhigh, List.nil_append]

/-- The least of consecutive numbers, or the end when there is none. -/
theorem min?_range {first next : Int} (h : first ≤ next) :
    ((Int.range first next).min?).getD next = first := by
  rcases h.lt_or_eq with hlt | heq
  · have hmin : (Int.range first next).min? = some first := by
      rw [List.min?_eq_some_iff]
      exact ⟨Int.mem_range_iff.mpr ⟨le_rfl, hlt⟩, fun n hn => (Int.mem_range_iff.mp hn).1⟩
    rw [hmin]
    rfl
  · rw [heq, range_self]
    rfl

end Lib
