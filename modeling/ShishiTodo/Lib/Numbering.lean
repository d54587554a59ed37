import Mathlib.Data.List.Basic

/-!
# Numbers that name one item

Every owner numbers items of its own. The numbers are unambiguous as long as no owner has two items under one number. What may be said about a set of numbered items is kept when items go away or come twice, and when new ones come whose numbers nobody has.
-/

namespace Lib

variable {κ α ν : Type*} {number : α → ν}

/-- No owner has two items under one number. -/
def Unambiguous (number : α → ν) (items : List (κ × α)) : Prop :=
  ∀ owner left right, (owner, left) ∈ items → (owner, right) ∈ items →
    number left = number right → left = right

/-- The owner has an item under the number. -/
def Taken (number : α → ν) (items : List (κ × α)) (owner : κ) (value : ν) : Prop :=
  ∃ item ∈ items, item.1 = owner ∧ number item.2 = value

instance [DecidableEq κ] [DecidableEq ν] (items : List (κ × α)) (owner : κ) (value : ν) :
    Decidable (Taken number items owner value) :=
  inferInstanceAs (Decidable (∃ item ∈ items, item.1 = owner ∧ number item.2 = value))

theorem taken_of_mem {items : List (κ × α)} {owner : κ} {item : α} (h : (owner, item) ∈ items) :
    Taken number items owner (number item) :=
  ⟨(owner, item), h, rfl, rfl⟩

theorem Taken.mono {items more : List (κ × α)} (hsub : items ⊆ more) {owner : κ} {value : ν}
    (h : Taken number items owner value) : Taken number more owner value := by
  obtain ⟨item, hitem, howner, hnumber⟩ := h
  exact ⟨item, hsub hitem, howner, hnumber⟩

theorem Unambiguous.mono {items fewer : List (κ × α)} (h : Unambiguous number items)
    (hsub : fewer ⊆ items) : Unambiguous number fewer := by
  intro owner left right hleft hright
  exact h owner left right (hsub hleft) (hsub hright)

/-- Two unambiguous sets stay so together when no owner has one number in both. -/
theorem Unambiguous.append {left right : List (κ × α)} (hleft : Unambiguous number left)
    (hright : Unambiguous number right)
    (hfree : ∀ item ∈ right, ¬ Taken number left item.1 (number item.2)) :
    Unambiguous number (left ++ right) := by
  intro owner first second hfirst hsecond hsame
  rcases List.mem_append.mp hfirst with hfirst | hfirst <;>
    rcases List.mem_append.mp hsecond with hsecond | hsecond
  · exact hleft owner first second hfirst hsecond hsame
  · exact absurd (hsame ▸ taken_of_mem hfirst) (hfree _ hsecond)
  · exact absurd (hsame ▸ taken_of_mem hsecond) (hfree _ hfirst)
  · exact hright owner first second hfirst hsecond hsame

/-- The items of one owner, under another's name. -/
theorem Unambiguous.handOver {owner : κ} {items : List α}
    (h : Unambiguous number (items.map fun item => (owner, item))) (next : κ) :
    Unambiguous number (items.map fun item => (next, item)) := by
  intro other left right hleft hright hsame
  obtain ⟨left, hleft, heq⟩ := List.mem_map.mp hleft
  cases heq
  obtain ⟨right, hright, heq⟩ := List.mem_map.mp hright
  cases heq
  exact h owner left right (List.mem_map_of_mem hleft) (List.mem_map_of_mem hright) hsame

end Lib
