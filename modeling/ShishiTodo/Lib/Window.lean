import Mathlib.Data.List.Basic

/-!
# Windows

A queue of bounded length: what comes new pushes the oldest out. A window that only grows holds the newest of what came; where entries are also taken from its front, it is what its history leaves.
-/

namespace Lib

variable {α : Type*} {capacity : Nat}

/-- The newest entries, no more than so many. -/
def newest (capacity : Nat) (entries : List α) : List α := entries.drop (entries.length - capacity)

theorem newest_of_length_le {entries : List α} (h : entries.length ≤ capacity) :
    newest capacity entries = entries := by
  unfold newest
  rw [Nat.sub_eq_zero_of_le h, List.drop_zero]

theorem length_newest (entries : List α) : (newest capacity entries).length = min capacity entries.length := by
  unfold newest
  rw [List.length_drop]
  omega

/-- What is older than the newest entries does not matter once more have come. -/
@[simp] theorem newest_append_newest (older newer : List α) :
    newest capacity (newest capacity older ++ newer) = newest capacity (older ++ newer) := by
  have hlength : (newest capacity older).length = min capacity older.length := length_newest older
  unfold newest at hlength ⊢
  rw [List.length_append, hlength, List.drop_append, List.drop_drop, List.drop_append, List.length_append,
    hlength]
  congr 1
  · congr 1
    omega
  · congr 1
    omega

/-- The last entries are among the newest when there is room for them. -/
theorem newest_append_right {older newer : List α} (h : newer.length ≤ capacity) :
    newest newer.length (newest capacity (older ++ newer)) = newer := by
  unfold newest
  rw [List.drop_drop, List.length_drop, List.length_append]
  have hall : older.length + newer.length - capacity +
      (older.length + newer.length - (older.length + newer.length - capacity) - newer.length) =
        older.length := by
    omega
  rw [hall, List.drop_left]

theorem newest_succ_append_singleton (entries : List α) (entry : α) :
    newest (capacity + 1) (entries ++ [entry]) = newest capacity entries ++ [entry] := by
  unfold newest
  rw [List.length_append, List.length_singleton, Nat.add_sub_add_right, List.drop_append_of_le_length]
  exact Nat.sub_le _ _

theorem map_newest {β : Type*} (f : α → β) (entries : List α) :
    (newest capacity entries).map f = newest capacity (entries.map f) := by
  unfold newest
  rw [List.map_drop, List.length_map]

/-! ### The window after a history -/

inductive WindowAction (α : Type*) where
  | put (entry : α)
  | take

/-- The queue after its history: a new entry pushes the oldest out where there is no room, and the oldest is taken first. -/
def windowAfter (capacity : Nat) (queue : List α) : List (WindowAction α) → List α
  | [] => queue
  | .put entry :: rest => windowAfter capacity (newest capacity (queue ++ [entry])) rest
  | .take :: rest => windowAfter capacity queue.tail rest

theorem windowAfter_append (queue : List α) (first second : List (WindowAction α)) :
    windowAfter capacity queue (first ++ second) =
      windowAfter capacity (windowAfter capacity queue first) second := by
  induction first generalizing queue with
  | nil => rfl
  | cons action rest ih =>
      cases action with
      | put entry => exact ih (newest capacity (queue ++ [entry]))
      | take => exact ih queue.tail

theorem length_newest_le (entries : List α) : (newest capacity entries).length ≤ capacity := by
  rw [length_newest]
  exact Nat.min_le_left _ _

theorem length_windowAfter_le {queue : List α} (hqueue : queue.length ≤ capacity)
    (actions : List (WindowAction α)) : (windowAfter capacity queue actions).length ≤ capacity := by
  induction actions generalizing queue with
  | nil => exact hqueue
  | cons action rest ih =>
      cases action with
      | put entry => exact ih (length_newest_le _)
      | take =>
          apply ih
          rw [List.length_tail]
          omega

/-- Where nothing is taken, the window holds the newest of what it held and what came. -/
theorem windowAfter_puts {queue : List α} (hqueue : queue.length ≤ capacity) (entries : List α) :
    windowAfter capacity queue (entries.map .put) = newest capacity (queue ++ entries) := by
  induction entries generalizing queue with
  | nil =>
      rw [List.append_nil, newest_of_length_le hqueue]
      rfl
  | cons entry rest ih =>
      rw [List.map_cons, windowAfter, ih (length_newest_le _), newest_append_newest, List.append_assoc]
      rfl

end Lib
