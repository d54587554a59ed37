import ShishiTodo.Lib.Table

/-!
# Tables whose rows have owners

Two tables that hold the same rows of one owner look alike to whoever reads that owner's rows only. What such a reader can ask is a lookup that keeps to the owner's rows, or a test that includes the owner; what it can write is a row of its own.
-/

namespace Lib

variable {κ ω ρ : Type*} [DecidableEq κ] [DecidableEq ω]

/-- The row under the key, when it belongs to the owner. -/
def ownRow (ownerOf : ρ → ω) (table : Table κ ρ) (owner : ω) (key : κ) : Option ρ :=
  (table.lookup key).filter fun row => ownerOf row == owner

/-- Both tables hold the same rows of the owner. -/
def SameOwned (ownerOf : ρ → ω) (owner : ω) (left right : Table κ ρ) : Prop :=
  ∀ key, ownRow ownerOf left owner key = ownRow ownerOf right owner key

/-- No other owner has a row under the key. -/
def Unclaimed (ownerOf : ρ → ω) (table : Table κ ρ) (owner : ω) (key : κ) : Prop :=
  ∀ row, table.lookup key = some row → ownerOf row = owner

variable {ownerOf : ρ → ω} {owner : ω} {left right table : Table κ ρ} {key : κ} {row : ρ}

theorem ownRow_eq_some_iff :
    ownRow ownerOf table owner key = some row ↔ table.lookup key = some row ∧ ownerOf row = owner := by
  simp [ownRow, Option.filter_eq_some_iff]

theorem ownRow_of_unclaimed (h : Unclaimed ownerOf table owner key) :
    ownRow ownerOf table owner key = table.lookup key := by
  ext row
  rw [ownRow_eq_some_iff]
  exact ⟨And.left, fun hrow => ⟨hrow, h row hrow⟩⟩

theorem SameOwned.refl (table : Table κ ρ) : SameOwned ownerOf owner table table := fun _ => rfl

theorem SameOwned.symm (h : SameOwned ownerOf owner left right) :
    SameOwned ownerOf owner right left := fun key => (h key).symm

theorem SameOwned.lookup (h : SameOwned ownerOf owner left right) (hrow : left.lookup key = some row)
    (howner : ownerOf row = owner) : right.lookup key = some row := by
  have hown := h key
  rw [ownRow_eq_some_iff.mpr ⟨hrow, howner⟩] at hown
  exact (ownRow_eq_some_iff.mp hown.symm).1

/-- Where no other owner has the key, the tables have the same row there. -/
theorem SameOwned.lookup_eq (h : SameOwned ownerOf owner left right)
    (hleft : Unclaimed ownerOf left owner key) (hright : Unclaimed ownerOf right owner key) :
    left.lookup key = right.lookup key := by
  rw [← ownRow_of_unclaimed hleft, ← ownRow_of_unclaimed hright, h key]

/-- A test that includes the owner finds a row in both tables or in none. -/
theorem SameOwned.any (h : SameOwned ownerOf owner left right) {test : κ → ρ → Bool}
    (htest : ∀ key row, test key row = true → ownerOf row = owner) :
    left.any test = right.any test := by
  rw [Bool.eq_iff_iff, Table.any_eq_true_iff, Table.any_eq_true_iff]
  constructor
  · rintro ⟨key, row, hrow, htrue⟩
    exact ⟨key, row, h.lookup hrow (htest key row htrue), htrue⟩
  · rintro ⟨key, row, hrow, htrue⟩
    exact ⟨key, row, h.symm.lookup hrow (htest key row htrue), htrue⟩

theorem ownRow_insert (table : Table κ ρ) (owner : ω) (key other : κ) (row : ρ) :
    ownRow ownerOf (table.insert key row) owner other =
      if other = key then (some row).filter fun row => ownerOf row == owner
      else ownRow ownerOf table owner other := by
  rw [ownRow, Table.lookup_insert_eq_ite]
  split <;> rfl

theorem SameOwned.insert (h : SameOwned ownerOf owner left right) (key : κ) (row : ρ) :
    SameOwned ownerOf owner (left.insert key row) (right.insert key row) := by
  intro other
  rw [ownRow_insert, ownRow_insert, h other]

/-- A row of another owner, in the place of none or of another owner's, changes nothing for this one. -/
theorem SameOwned.insert_other (howner : ownerOf row ≠ owner)
    (hold : ∀ old, table.lookup key = some old → ownerOf old ≠ owner) :
    SameOwned ownerOf owner table (table.insert key row) := by
  intro other
  rw [ownRow_insert]
  split
  · rename_i hkey
    subst hkey
    have hnone : ownRow ownerOf table owner other = none := by
      rw [Option.eq_none_iff_forall_ne_some]
      intro old hrow
      obtain ⟨hlookup, hmine⟩ := ownRow_eq_some_iff.mp hrow
      exact hold old hlookup hmine
    rw [hnone, Option.filter_some, if_neg (by simpa using howner)]
  · rfl

omit [DecidableEq ω] in
theorem Unclaimed.insert {other : κ} (h : Unclaimed ownerOf table owner key)
    (howner : ownerOf row = owner) : Unclaimed ownerOf (table.insert other row) owner key := by
  intro found hfound
  rw [Table.lookup_insert_eq_ite] at hfound
  split at hfound
  · cases hfound
    exact howner
  · exact h found hfound

end Lib
