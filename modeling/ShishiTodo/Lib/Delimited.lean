import Mathlib.Data.List.Basic

/-!
# Texts with a delimiter

A text is cut at the first place of a delimiter. Where the left part is free of the delimiter, cutting undoes the joining, and what was cut can be put together again.
-/

namespace Lib

variable {α : Type*} [DecidableEq α]

/-- What stands before the first delimiter, and what stands after it. -/
def splitOnce (delimiter : α) : List α → Option (List α × List α)
  | [] => none
  | c :: rest =>
      if c = delimiter then some ([], rest)
      else (splitOnce delimiter rest).map fun (left, right) => (c :: left, right)

theorem splitOnce_append {delimiter : α} {left : List α} (h : delimiter ∉ left) (right : List α) :
    splitOnce delimiter (left ++ delimiter :: right) = some (left, right) := by
  induction left with
  | nil => exact if_pos rfl
  | cons c rest ih =>
      rw [List.mem_cons, not_or] at h
      rw [List.cons_append, splitOnce, if_neg (Ne.symm h.1), ih h.2]
      rfl

theorem splitOnce_eq_none {delimiter : α} {text : List α} (h : delimiter ∉ text) :
    splitOnce delimiter text = none := by
  induction text with
  | nil => rfl
  | cons c rest ih =>
      rw [List.mem_cons, not_or] at h
      rw [splitOnce, if_neg (Ne.symm h.1), ih h.2]
      rfl

theorem splitOnce_some {delimiter : α} {text left right : List α}
    (h : splitOnce delimiter text = some (left, right)) :
    delimiter ∉ left ∧ text = left ++ delimiter :: right := by
  induction text generalizing left with
  | nil => cases h
  | cons c rest ih =>
      rw [splitOnce] at h
      split at h
      · rename_i heq
        cases h
        exact ⟨List.not_mem_nil, by rw [heq]; rfl⟩
      · rename_i hne
        obtain ⟨⟨before, after⟩, hrest, hcut⟩ := Option.map_eq_some_iff.mp h
        cases hcut
        obtain ⟨hfree, rfl⟩ := ih hrest
        rw [List.mem_cons, not_or]
        exact ⟨⟨Ne.symm hne, hfree⟩, rfl⟩

end Lib
