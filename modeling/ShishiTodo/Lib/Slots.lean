import Mathlib.Logic.Basic
import Mathlib.Data.List.Basic

/-!
# Rows that hold slots

A pass writes the rows that are wanted, one key after another. A row may hold a slot, and a row that is written takes its slot from those that held it. What a whole pass leaves under a key is said once here: the wanted row stands, every other row stays, and a row is gone only where its slot is held by a wanted row of another key.
-/

namespace Lib

variable {κ ρ ς : Type*}

/-- Both rows hold the same slot. -/
def SameSlot (slot : ρ → Option ς) (taking row : ρ) : Prop := (slot row).isSome ∧ slot taking = slot row

/-- One turn of a pass: the row that is wanted stands under the key, and another row goes only when its slot is taken. -/
structure SlotTurn (slot : ρ → Option ς) (wanted : κ → Option ρ) (key : κ) (before after : κ → Option ρ) :
    Prop where
  own : after key = (wanted key).or (before key)
  others : ∀ other, other ≠ key → after other = before other ∨ after other = none ∧
    ∃ taking row, wanted key = some taking ∧ before other = some row ∧ SameSlot slot taking row

inductive SlotPass (slot : ρ → Option ς) (wanted : κ → Option ρ) :
    List κ → (κ → Option ρ) → (κ → Option ρ) → Prop where
  | nil (rows : κ → Option ρ) : SlotPass slot wanted [] rows rows
  | cons {key : κ} {keys : List κ} {before next after : κ → Option ρ} :
      SlotTurn slot wanted key before next → SlotPass slot wanted keys next after →
      SlotPass slot wanted (key :: keys) before after

/-- The slot of the row is held by the wanted row of another key, which stands. -/
def SlotHeld (slot : ρ → Option ς) (affected : κ → Prop) (wanted after : κ → Option ρ) (key : κ)
    (row : ρ) : Prop :=
  ∃ other taking, other ≠ key ∧ affected other ∧ wanted other = some taking ∧
    after other = some taking ∧ SameSlot slot taking row

/-- What the affected keys want is laid over the rows that were there, and all else is kept. -/
structure Overlaid (slot : ρ → Option ς) (affected : κ → Prop) (wanted before after : κ → Option ρ) :
    Prop where
  shown : ∀ key row, affected key → wanted key = some row → after key = some row ∨
    after key = none ∧ SlotHeld slot affected wanted after key row
  kept : ∀ key, (affected key → wanted key = none) → after key = before key ∨ after key = none ∧
    ∃ row, before key = some row ∧ SlotHeld slot affected wanted after key row

theorem SameSlot.trans {slot : ρ → Option ς} {first second third : ρ} (h : SameSlot slot first second)
    (hnext : SameSlot slot second third) : SameSlot slot first third :=
  ⟨hnext.1, h.2.trans hnext.2⟩

/-- A turn depends only on what is wanted under its key. -/
theorem SlotTurn.congr {slot : ρ → Option ς} {wanted wants : κ → Option ρ} {key : κ} {before after : κ → Option ρ}
    (h : SlotTurn slot wanted key before after) (hsame : wants key = wanted key) :
    SlotTurn slot wants key before after where
  own := by rw [hsame, h.own]
  others := by
    rw [hsame]
    exact h.others

namespace SlotPass

variable {slot : ρ → Option ς} {wanted : κ → Option ρ} {keys : List κ} {before after : κ → Option ρ}

/-- Where nothing is wanted, a row stays unless its slot is taken. -/
theorem taken (h : SlotPass slot wanted keys before after) {key : κ} (hkey : key ∈ keys → wanted key = none) :
    after key = before key ∨ after key = none ∧ ∃ row, before key = some row ∧
      ∃ other ∈ keys, ∃ taking, wanted other = some taking ∧ SameSlot slot taking row := by
  induction h with
  | nil rows => exact Or.inl rfl
  | cons hturn hrest ih =>
      rename_i own keys before next after
      specialize ih fun hmem => hkey (List.mem_cons_of_mem own hmem)
      have hnext : next key = before key ∨ next key = none ∧ ∃ taking row, wanted own = some taking ∧
          before key = some row ∧ SameSlot slot taking row := by
        by_cases hown : key = own
        · subst hown
          left
          rw [hturn.own, hkey List.mem_cons_self, Option.none_or]
        · exact hturn.others key hown
      rcases hnext with hsame | ⟨hgone, taking, row, hwanted, hrow, hslot⟩
      · rw [hsame] at ih
        rcases ih with hstays | ⟨hnone, row, hrow, other, hmem, hother⟩
        · exact Or.inl hstays
        · exact Or.inr ⟨hnone, row, hrow, other, List.mem_cons_of_mem own hmem, hother⟩
      · refine Or.inr ⟨?_, row, hrow, own, List.mem_cons_self, taking, hwanted, hslot⟩
        -- What is gone does not come back, since nothing is wanted under the key.
        rcases ih with hsame | ⟨hnone, -⟩
        · exact hsame.trans hgone
        · exact hnone

/-- The slot of a row that is wanted is held in the end, by the row itself or by another one. -/
theorem held (h : SlotPass slot wanted keys before after) {key : κ} (hkey : key ∈ keys) {row : ρ}
    (hwanted : wanted key = some row) : after key = some row ∨ after key = none ∧
      ∃ other ∈ keys, other ≠ key ∧ ∃ taking, wanted other = some taking ∧ after other = some taking ∧
        SameSlot slot taking row := by
  induction h generalizing key row with
  | nil rows => cases hkey
  | cons hturn hrest ih =>
      rename_i own keys before next after
      by_cases hlater : key ∈ keys
      · rcases ih hlater hwanted with hstands | ⟨hnone, other, hother, hrest⟩
        · exact Or.inl hstands
        · exact Or.inr ⟨hnone, other, List.mem_cons_of_mem own hother, hrest⟩
      · obtain rfl := (List.mem_cons.mp hkey).resolve_right hlater
        have hown : next key = some row := by rw [hturn.own, hwanted, Option.some_or]
        rcases hrest.taken fun hmem => absurd hmem hlater with hsame | ⟨hnone, found, hfound, other, hother, taking, htaking, hslot⟩
        · exact Or.inl (hsame.trans hown)
        · cases hown.symm.trans hfound
          have hne : ∀ other ∈ keys, other ≠ key := fun other hmem heq => hlater (heq ▸ hmem)
          rcases ih hother htaking with hstands | ⟨-, last, hlast, -, holding, hwants, hholds, hheld⟩
          · exact Or.inr ⟨hnone, other, List.mem_cons_of_mem key hother, hne other hother, taking, htaking,
              hstands, hslot⟩
          · exact Or.inr ⟨hnone, last, List.mem_cons_of_mem key hlast, hne last hlast, holding, hwants,
              hholds, hheld.trans hslot⟩

/-- A pass lays the wanted rows over the ones that were there. -/
theorem overlaid (h : SlotPass slot wanted keys before after) :
    Overlaid slot (· ∈ keys) wanted before after where
  shown key row hkey hwanted := by
    rcases h.held hkey hwanted with hstands | ⟨hnone, other, hother, hne, taking, hrest⟩
    · exact Or.inl hstands
    · exact Or.inr ⟨hnone, other, taking, hne, hother, hrest⟩
  kept key hkey := by
    rcases h.taken hkey with hsame | ⟨hnone, row, hrow, other, hother, taking, htaking, hslot⟩
    · exact Or.inl hsame
    · have hne : ∀ {last found}, last ∈ keys → wanted last = some found → last ≠ key := by
        rintro last found hlast hfound rfl
        rw [hkey hlast] at hfound
        cases hfound
      refine Or.inr ⟨hnone, row, hrow, ?_⟩
      rcases h.held hother htaking with hstands | ⟨-, last, hlast, -, holding, hwants, hholds, hheld⟩
      · exact ⟨other, taking, hne hother htaking, hother, htaking, hstands, hslot⟩
      · exact ⟨last, holding, hne hlast hwants, hlast, hwants, hholds, hheld.trans hslot⟩

end SlotPass

end Lib
