import Mathlib.Data.List.Basic

/-!
# Base64 without padding

Three bytes are spelled as four letters; one or two bytes at the end as two or three, and the bits that these letters have left are zero. Reading undoes spelling, and a text that can be read is the spelling of what was read: no two texts are read as the same bytes.
-/

namespace Lib.Base64

/-- The alphabet that is safe in addresses and in file names. -/
def letter (n : Nat) : Char :=
  if n < 26 then Char.ofNat (65 + n)
  else if n < 52 then Char.ofNat (71 + n)
  else if n < 62 then Char.ofNat (n - 4)
  else if n = 62 then '-'
  else '_'

def value (c : Char) : Option Nat :=
  if 65 ≤ c.toNat ∧ c.toNat ≤ 90 then some (c.toNat - 65)
  else if 97 ≤ c.toNat ∧ c.toNat ≤ 122 then some (c.toNat - 71)
  else if 48 ≤ c.toNat ∧ c.toNat ≤ 57 then some (c.toNat + 4)
  else if c = '-' then some 62
  else if c = '_' then some 63
  else none

def encode : List UInt8 → List Char
  | a :: b :: c :: rest =>
      letter (a.toNat / 4) :: letter (a.toNat % 4 * 16 + b.toNat / 16) ::
        letter (b.toNat % 16 * 4 + c.toNat / 64) :: letter (c.toNat % 64) :: encode rest
  | [a, b] =>
      [letter (a.toNat / 4), letter (a.toNat % 4 * 16 + b.toNat / 16), letter (b.toNat % 16 * 4)]
  | [a] => [letter (a.toNat / 4), letter (a.toNat % 4 * 16)]
  | [] => []

/-- Refuses a letter outside the alphabet, a single letter at the end, and bits left that are not zero. -/
def decode : List Char → Option (List UInt8)
  | c₁ :: c₂ :: c₃ :: c₄ :: rest => do
      let n₁ ← value c₁
      let n₂ ← value c₂
      let n₃ ← value c₃
      let n₄ ← value c₄
      let bytes ← decode rest
      some (UInt8.ofNat (n₁ * 4 + n₂ / 16) :: UInt8.ofNat (n₂ % 16 * 16 + n₃ / 4) ::
        UInt8.ofNat (n₃ % 4 * 64 + n₄) :: bytes)
  | [c₁, c₂, c₃] => do
      let n₁ ← value c₁
      let n₂ ← value c₂
      let n₃ ← value c₃
      if n₃ % 4 = 0 then some [UInt8.ofNat (n₁ * 4 + n₂ / 16), UInt8.ofNat (n₂ % 16 * 16 + n₃ / 4)] else none
  | [c₁, c₂] => do
      let n₁ ← value c₁
      let n₂ ← value c₂
      if n₂ % 16 = 0 then some [UInt8.ofNat (n₁ * 4 + n₂ / 16)] else none
  | [_] => none
  | [] => some []

/-! ### Letters -/

theorem value_letter : ∀ n < 64, value (letter n) = some n := by decide

theorem lt_of_value {c : Char} {n : Nat} (h : value c = some n) : n < 64 := by
  unfold value at h
  split at h
  · have hn := Option.some.inj h
    omega
  split at h
  · have hn := Option.some.inj h
    omega
  split at h
  · have hn := Option.some.inj h
    omega
  split at h
  · have hn := Option.some.inj h
    omega
  split at h
  · have hn := Option.some.inj h
    omega
  · cases h

/-- A letter of the alphabet stands for one number. -/
theorem letter_of_value {c : Char} {n : Nat} (h : value c = some n) : letter n = c := by
  have hchar (m : Nat) (hm : m = c.toNat) : Char.ofNat m = c := by rw [hm, Char.ofNat_toNat]
  unfold value at h
  split at h
  · have hn := Option.some.inj h
    rw [letter, if_pos (by omega)]
    exact hchar _ (by omega)
  split at h
  · have hn := Option.some.inj h
    rw [letter, if_neg (by omega), if_pos (by omega)]
    exact hchar _ (by omega)
  split at h
  · have hn := Option.some.inj h
    rw [letter, if_neg (by omega), if_neg (by omega), if_pos (by omega)]
    exact hchar _ (by omega)
  split at h
  · rename_i hdash
    rw [← Option.some.inj h, hdash]
    rfl
  split at h
  · rename_i hline
    rw [← Option.some.inj h, hline]
    rfl
  · cases h

/-! ### Reading what was spelled -/

theorem ofNat_toNat_of_eq (byte : UInt8) {n : Nat} (h : n = byte.toNat) : UInt8.ofNat n = byte := by
  rw [h, UInt8.ofNat_toNat]

theorem decode_encode (bytes : List UInt8) : decode (encode bytes) = some bytes := by
  induction bytes using encode.induct with
  | case1 a b c rest ih =>
      have ha := a.toNat_lt
      have hb := b.toNat_lt
      have hc := c.toNat_lt
      rw [encode, decode, value_letter _ (by omega), value_letter _ (by omega), value_letter _ (by omega),
        value_letter _ (by omega), ih]
      simp only [Option.bind_eq_bind, Option.bind_some]
      rw [ofNat_toNat_of_eq a (by omega), ofNat_toNat_of_eq b (by omega),
        ofNat_toNat_of_eq c (by omega)]
  | case2 a b =>
      have ha := a.toNat_lt
      have hb := b.toNat_lt
      rw [encode, decode, value_letter _ (by omega), value_letter _ (by omega), value_letter _ (by omega)]
      simp only [Option.bind_eq_bind, Option.bind_some]
      rw [if_pos (by omega), ofNat_toNat_of_eq a (by omega), ofNat_toNat_of_eq b (by omega)]
  | case3 a =>
      have ha := a.toNat_lt
      rw [encode, decode, value_letter _ (by omega), value_letter _ (by omega)]
      simp only [Option.bind_eq_bind, Option.bind_some]
      rw [if_pos (by omega), ofNat_toNat_of_eq a (by omega)]
  | case4 => rfl

/-! ### What can be read -/

theorem toNat_byte {n : Nat} (h : n < 256) : (UInt8.ofNat n).toNat = n := UInt8.toNat_ofNat_of_lt' h

theorem letter_eq {c : Char} {n m : Nat} (h : value c = some n) (heq : m = n) : letter m = c := by
  rw [heq, letter_of_value h]

/-- A text that can be read is the spelling of what was read. -/
theorem encode_of_decode {chars : List Char} {bytes : List UInt8} (h : decode chars = some bytes) :
    encode bytes = chars := by
  induction chars using decode.induct generalizing bytes with
  | case1 c₁ c₂ c₃ c₄ rest ih =>
      rw [decode] at h
      simp only [Option.bind_eq_bind, Option.bind_eq_some_iff] at h
      obtain ⟨n₁, h₁, n₂, h₂, n₃, h₃, n₄, h₄, tail, htail, hbytes⟩ := h
      have hlt₁ := lt_of_value h₁
      have hlt₂ := lt_of_value h₂
      have hlt₃ := lt_of_value h₃
      have hlt₄ := lt_of_value h₄
      rw [← Option.some.inj hbytes, encode, ih htail, toNat_byte (by omega),
        toNat_byte (by omega), toNat_byte (by omega), letter_eq h₁ (by omega),
        letter_eq h₂ (by omega), letter_eq h₃ (by omega), letter_eq h₄ (by omega)]
  | case2 c₁ c₂ c₃ =>
      rw [decode] at h
      simp only [Option.bind_eq_bind, Option.bind_eq_some_iff] at h
      obtain ⟨n₁, h₁, n₂, h₂, n₃, h₃, hbytes⟩ := h
      have hlt₁ := lt_of_value h₁
      have hlt₂ := lt_of_value h₂
      have hlt₃ := lt_of_value h₃
      split at hbytes
      · rw [← Option.some.inj hbytes, encode, toNat_byte (by omega),
          toNat_byte (by omega), letter_eq h₁ (by omega), letter_eq h₂ (by omega),
          letter_eq h₃ (by omega)]
      · cases hbytes
  | case3 c₁ c₂ =>
      rw [decode] at h
      simp only [Option.bind_eq_bind, Option.bind_eq_some_iff] at h
      obtain ⟨n₁, h₁, n₂, h₂, hbytes⟩ := h
      have hlt₁ := lt_of_value h₁
      have hlt₂ := lt_of_value h₂
      split at hbytes
      · rw [← Option.some.inj hbytes, encode, toNat_byte (by omega), letter_eq h₁ (by omega),
          letter_eq h₂ (by omega)]
      · cases hbytes
  | case4 c => cases h
  | case5 =>
      cases h
      rfl

theorem encode_injective {left right : List UInt8} (h : encode left = encode right) : left = right := by
  have hread := decode_encode left
  rw [h, decode_encode] at hread
  exact (Option.some.inj hread).symm

/-! ### What a spelling looks like -/

theorem exists_letter {bytes : List UInt8} {c : Char} (h : c ∈ encode bytes) : ∃ n < 64, c = letter n := by
  induction bytes using encode.induct with
  | case1 a b d rest ih =>
      have ha := a.toNat_lt
      have hb := b.toNat_lt
      have hd := d.toNat_lt
      simp only [encode, List.mem_cons] at h
      rcases h with rfl | rfl | rfl | rfl | h
      · exact ⟨_, by omega, rfl⟩
      · exact ⟨_, by omega, rfl⟩
      · exact ⟨_, by omega, rfl⟩
      · exact ⟨_, by omega, rfl⟩
      · exact ih h
  | case2 a b =>
      have ha := a.toNat_lt
      have hb := b.toNat_lt
      simp only [encode, List.mem_cons, List.not_mem_nil, or_false] at h
      rcases h with rfl | rfl | rfl
      · exact ⟨_, by omega, rfl⟩
      · exact ⟨_, by omega, rfl⟩
      · exact ⟨_, by omega, rfl⟩
  | case3 a =>
      have ha := a.toNat_lt
      simp only [encode, List.mem_cons, List.not_mem_nil, or_false] at h
      rcases h with rfl | rfl
      · exact ⟨_, by omega, rfl⟩
      · exact ⟨_, by omega, rfl⟩
  | case4 => cases h

theorem not_mem_encode {c : Char} (h : value c = none) (bytes : List UInt8) : c ∉ encode bytes := by
  intro hmem
  obtain ⟨n, hn, rfl⟩ := exists_letter hmem
  rw [value_letter n hn] at h
  cases h

theorem utf8Size_of_mem_encode {bytes : List UInt8} {c : Char} (h : c ∈ encode bytes) : c.utf8Size = 1 := by
  obtain ⟨n, hn, rfl⟩ := exists_letter h
  have hsizes : ∀ n < 64, (letter n).utf8Size = 1 := by decide
  exact hsizes n hn

theorem length_encode (bytes : List UInt8) : (encode bytes).length = (bytes.length * 4 + 2) / 3 := by
  induction bytes using encode.induct with
  | case1 a b c rest ih =>
      simp only [encode, List.length_cons, ih]
      omega
  | case2 a b => simp [encode]
  | case3 a => simp [encode]
  | case4 => rfl

theorem encode_eq_nil_iff {bytes : List UInt8} : encode bytes = [] ↔ bytes = [] := by
  cases bytes using encode.induct <;> simp [encode]

end Lib.Base64
