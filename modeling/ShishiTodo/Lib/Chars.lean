import Mathlib.Data.List.DropRight

/-!
# Characters

`Char.toLower` moves the capital letters by 32 and leaves every other character alone. The white space of the web's language is a fixed set. What is stripped at both ends is stripped for good.
-/

namespace Lib

theorem toLower_cases (c : Char) :
    c.toLower = c ∧ ¬ (65 ≤ c.toNat ∧ c.toNat ≤ 90) ∨
      c.toLower.toNat = c.toNat + 32 ∧ 65 ≤ c.toNat ∧ c.toNat ≤ 90 := by
  have hletter : (c.val ≥ 'A'.val ∧ c.val ≤ 'Z'.val) ↔ 65 ≤ c.toNat ∧ c.toNat ≤ 90 := by
    rw [ge_iff_le, UInt32.le_iff_toNat_le, UInt32.le_iff_toNat_le]
    exact Iff.rfl
  unfold Char.toLower
  split
  · rename_i h
    obtain ⟨hlow, hhigh⟩ := hletter.mp h
    refine .inr ⟨?_, hlow, hhigh⟩
    change (c.val + ('a'.val - 'A'.val)).toNat = c.val.toNat + 32
    rw [UInt32.toNat_add]
    have hsmall : c.val.toNat ≤ 90 := hhigh
    have hdistance : ('a'.val - 'A'.val).toNat = 32 := rfl
    omega
  · rename_i h
    exact .inl ⟨rfl, fun hrange => h (hletter.mpr hrange)⟩

@[simp] theorem toLower_toLower (c : Char) : c.toLower.toLower = c.toLower := by
  rcases toLower_cases c.toLower with ⟨hsame, -⟩ | ⟨-, hlow, hhigh⟩
  · exact hsame
  · rcases toLower_cases c with ⟨hsame, hnone⟩ | ⟨hshift, hletter, -⟩
    · rw [hsame] at hlow hhigh
      exact absurd ⟨hlow, hhigh⟩ hnone
    · omega

/-- `WhiteSpace` and `LineTerminator` of ECMAScript. -/
def isSpace (c : Char) : Bool :=
  let n := c.toNat
  (9 ≤ n && n ≤ 13) || n == 0x20 || n == 0xA0 || n == 0x1680 || (0x2000 ≤ n && n ≤ 0x200A) ||
    n == 0x2028 || n == 0x2029 || n == 0x202F || n == 0x205F || n == 0x3000 || n == 0xFEFF

theorem dropWhile_of_begins {α : Type*} {test : α → Bool} {items part : List α} (hpart : part <+: items)
    (hitems : items.dropWhile test = items) : part.dropWhile test = part := by
  rw [List.dropWhile_eq_self_iff]
  intro hsome htest
  have hlonger := hpart.length_le
  have hfirst := List.dropWhile_eq_self_iff.mp hitems (by omega)
  rw [hpart.getElem hsome] at htest
  exact hfirst htest

/-- What is stripped at both ends has nothing more to strip at its beginning. -/
theorem dropWhile_stripped {α : Type*} (test : α → Bool) (items : List α) :
    ((items.dropWhile test).rdropWhile test).dropWhile test = (items.dropWhile test).rdropWhile test :=
  dropWhile_of_begins (List.rdropWhile_prefix test _) (List.dropWhile_idempotent test items)

theorem stripped_stripped {α : Type*} (test : α → Bool) (items : List α) :
    ((((items.dropWhile test).rdropWhile test).dropWhile test).rdropWhile test) =
      (items.dropWhile test).rdropWhile test := by
  rw [dropWhile_stripped, List.rdropWhile_idempotent]

end Lib
