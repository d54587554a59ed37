import Mathlib.Data.List.Basic
import Mathlib.Data.Nat.Init

/-!
# First occurrences

`eraseDupsBy` keeps of all items with one key the first. A pass over the list that carries the keys it has seen, and stops when it has enough, takes from the front of that list.
-/

namespace Lib

variable {α κ : Type*} [DecidableEq κ]

/-- The first item of every key, in the order of the list. -/
def firstsBy (key : α → κ) (items : List α) : List α :=
  items.eraseDupsBy fun later first => key later == key first

variable {key : α → κ} {items : List α}

theorem firstsBy_cons (item : α) :
    firstsBy key (item :: items) =
      item :: firstsBy key (items.filter fun later => key later ≠ key item) :=
  List.eraseDupsBy_cons.trans (by simp [firstsBy])

/-- What comes after items whose keys were seen. -/
def firstsOutside (key : α → κ) (seen : List κ) (items : List α) : List α :=
  firstsBy key (items.filter fun item => key item ∉ seen)

theorem firstsOutside_nil : firstsOutside key [] items = firstsBy key items := by
  simp [firstsOutside]

theorem firstsOutside_cons_seen {seen : List κ} {item : α} (hseen : key item ∈ seen) :
    firstsOutside key seen (item :: items) = firstsOutside key seen items := by
  simp [firstsOutside, hseen]

theorem firstsOutside_cons_new {seen : List κ} {item : α} (hnew : key item ∉ seen) :
    firstsOutside key seen (item :: items) =
      item :: firstsOutside key (seen ++ [key item]) items := by
  unfold firstsOutside
  rw [List.filter_cons_of_pos (by simpa using hnew), firstsBy_cons, List.filter_filter]
  congr 3
  funext later
  by_cases hsame : key later = key item <;> simp [hsame]

theorem mem_of_mem_firstsBy {item : α} (h : item ∈ firstsBy key items) : item ∈ items := by
  generalize hlength : items.length = length
  induction length using Nat.strongRecOn generalizing items with
  | ind length ih =>
    cases items with
    | nil => exact h
    | cons first rest =>
      rw [firstsBy_cons] at h
      rcases List.mem_cons.mp h with heq | hlater
      · exact heq ▸ List.mem_cons_self
      · have hshorter := List.length_filter_le (fun later => key later ≠ key first) rest
        have hkept := ih _ (by simp only [List.length_cons] at hlength; omega) hlater rfl
        exact List.mem_cons_of_mem _ (List.mem_of_mem_filter hkept)

theorem nodup_keys_firstsBy : ((firstsBy key items).map key).Nodup := by
  generalize hlength : items.length = length
  induction length using Nat.strongRecOn generalizing items with
  | ind length ih =>
    cases items with
    | nil => simp [firstsBy]
    | cons first rest =>
      have hshorter := List.length_filter_le (fun later => key later ≠ key first) rest
      rw [firstsBy_cons, List.map_cons, List.nodup_cons]
      constructor
      · intro hmem
        obtain ⟨later, hlater, hkey⟩ := List.mem_map.mp hmem
        have hkept := (List.mem_filter.mp (mem_of_mem_firstsBy hlater)).2
        simp [hkey] at hkept
      · exact ih _ (by simp only [List.length_cons] at hlength; omega) rfl

/-- A list whose keys differ holds only first occurrences. -/
theorem firstsBy_of_nodup (hkeys : (items.map key).Nodup) : firstsBy key items = items := by
  induction items with
  | nil => rfl
  | cons first rest ih =>
    rw [List.map_cons, List.nodup_cons] at hkeys
    have hall : (rest.filter fun later => key later ≠ key first) = rest := by
      rw [List.filter_eq_self]
      intro later hlater
      have hother : key later ≠ key first := fun heq => hkeys.1 (heq ▸ List.mem_map_of_mem hlater)
      exact decide_eq_true hother
    rw [firstsBy_cons, hall, ih hkeys.2]

end Lib
