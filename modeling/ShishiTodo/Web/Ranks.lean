import ShishiTodo.Native.Ranks
import ShishiTodo.Web.Agreement
import ShishiTodo.Lib.Chars

/-!
# The rank of a new row in the web repository

`nextRank` of `web-repository.ts` takes the greatest rank as a string, reads a number from it with `parseInt`, and prints the next one. It is compared with `next_rank` of the native store. In both the new row sorts last only while the ranks are as long as the numbers that are printed.
-/

namespace ShishiTodo.Web

open Lib Native

/-- `Number.parseInt(text, 36)`, none for `NaN`. -/
def parseInt (text : String) : Option Int :=
  let read (chars : List Char) : Option Nat :=
    let values := (chars.map digit36).takeWhile Option.isSome |>.reduceOption
    if values.isEmpty then none
    else some (values.foldl (fun value digit => 36 * value + digit) 0)
  match text.toList.dropWhile isSpace with
  | '-' :: rest => (read rest).map fun value => -(value : Int)
  | '+' :: rest => (read rest).map Int.ofNat
  | chars => (read chars).map Int.ofNat

/-- `value.toString(36).padStart(6, '0')` of a number that is exact. -/
def printed (value : Int) : List Char :=
  let digits := (Nat.digits 36 value.natAbs).reverse.map encodeDigit
  let text := if value < 0 then '-' :: digits else if value = 0 then ['0'] else digits
  List.replicate (6 - text.length) '0' ++ text

/-- The rank that `rows.reduce` leaves. -/
def greatestRank (ranks : List String) : String :=
  ranks.foldl (fun current rank => if codeUnits current < codeUnits rank then rank else current) ""

/-- Up to here the numbers of the language are exact. -/
def exactBelow : Nat := 2 ^ 53

/-- `beyond` is what the engine prints for the number after one that is not exact, none where it is infinite: the language leaves both to it. -/
def nextRank (beyond : Int → Option String) (ranks : List String) : String :=
  let max := greatestRank ranks
  match parseInt (if max.isEmpty then "0" else max) with
  | none => String.ofList (printed (ranks.length + 1))
  | some numeric =>
      if numeric.natAbs < exactBelow then String.ofList (printed (numeric + 1))
      else
        match beyond numeric with
        | none => String.ofList (printed (ranks.length + 1))
        | some text => String.ofList (List.replicate (6 - (codeUnits text).length) '0' ++ text.toList)

/-! ### The code units of what is printed -/

/-- The code unit of a digit. -/
def digitUnit (k : Nat) : Nat := (encodeDigit k).toNat

theorem digitUnit_ascending : Ascending 36 digitUnit :=
  fun k hk j hj => encodeDigit_ascending k hk j hj

theorem map_numeral (t n : Nat) :
    (numeral 36 encodeDigit t n).map Char.toNat = numeral 36 digitUnit t n := by
  induction t generalizing n with
  | zero => rfl
  | succ t ih => rw [numeral, numeral, List.map_cons, ih]; rfl

theorem encodeDigit_small (k : Nat) (hk : k < 36) : (encodeDigit k).toNat < 128 := by
  revert k
  decide

theorem codeUnits_ofList {chars : List Char} (h : ∀ c ∈ chars, c.toNat < 128) :
    codeUnits (String.ofList chars) = chars.map Char.toNat := by
  have hunits : OneUnit (String.ofList chars) := by
    intro c hc
    rw [String.toList_ofList] at hc
    exact Nat.lt_trans (h c hc) (by decide)
  rw [codeUnits_of_oneUnit hunits, String.toList_ofList]

theorem digits_small (n : Nat) :
    ∀ c ∈ (Nat.digits 36 n).reverse.map encodeDigit, c.toNat < 128 := by
  intro c hc
  obtain ⟨k, hk, rfl⟩ := List.mem_map.mp hc
  exact encodeDigit_small k (Nat.digits_lt_base (by decide) (List.mem_reverse.mp hk))

theorem printed_small (value : Int) : ∀ c ∈ printed value, c.toNat < 128 := by
  intro c hc
  rw [printed, List.mem_append] at hc
  rcases hc with hzero | htext
  · rw [List.eq_of_mem_replicate hzero]
    decide
  · have hdigits := digits_small value.natAbs c
    split at htext
    · rcases List.mem_cons.mp htext with rfl | hdigit
      · decide
      · exact hdigits hdigit
    · split at htext
      · rw [List.mem_singleton.mp htext]
        decide
      · exact hdigits htext

theorem printed_natCast (n : Nat) : printed n = numeral 36 encodeDigit (width n) n := by
  rcases Nat.eq_zero_or_pos n with rfl | hpos
  · decide
  · have hsign : ¬ ((n : Int) < 0) := by omega
    have hzero : ¬ ((n : Int) = 0) := by omega
    rw [printed, if_neg hsign, if_neg hzero, ← padded_eq_numeral, Int.natAbs_natCast,
      List.map_reverse, List.length_reverse, List.length_map]

/-- The text of a negative number: the zeros come before the sign. -/
theorem printed_neg {n : Nat} (h : 0 < n) :
    printed (-(n : Int)) = List.replicate (5 - (Nat.digits 36 n).length) '0'
      ++ '-' :: numeral 36 encodeDigit (Nat.digits 36 n).length n := by
  have hsign : -(n : Int) < 0 := by omega
  rw [printed, if_pos hsign, Int.natAbs_neg, Int.natAbs_natCast, numeral_digits (by decide),
    List.map_reverse, List.length_cons, List.length_reverse, List.length_map]
  congr 2
  omega

/-! ### The greatest rank -/

theorem greatest_of_foldl (ranks : List String) (start : String) :
    let greatest := ranks.foldl
      (fun current rank => if codeUnits current < codeUnits rank then rank else current) start
    (greatest = start ∨ greatest ∈ ranks) ∧ codeUnits start ≤ codeUnits greatest ∧
      ∀ rank ∈ ranks, codeUnits rank ≤ codeUnits greatest := by
  induction ranks generalizing start with
  | nil => exact ⟨.inl rfl, le_refl _, fun rank hrank => absurd hrank List.not_mem_nil⟩
  | cons rank rest ih =>
      simp only [List.foldl_cons]
      by_cases hgreater : codeUnits start < codeUnits rank
      · rw [if_pos hgreater]
        obtain ⟨hsource, hstart, hrest⟩ := ih rank
        refine ⟨.inr ?_, le_trans hgreater.le hstart, fun other hother => ?_⟩
        · rcases hsource with heq | hmem
          · rw [heq]
            exact List.mem_cons_self
          · exact List.mem_cons_of_mem _ hmem
        · rcases List.mem_cons.mp hother with rfl | hmem
          · exact hstart
          · exact hrest other hmem
      · rw [if_neg hgreater]
        obtain ⟨hsource, hstart, hrest⟩ := ih start
        refine ⟨hsource.imp id (List.mem_cons_of_mem _), hstart, fun other hother => ?_⟩
        rcases List.mem_cons.mp hother with rfl | hmem
        · exact le_trans (not_lt.mp hgreater) hstart
        · exact hrest other hmem

/-- A text that is not empty stands after all ranks if it stands after the greatest. -/
theorem all_lt_iff (ranks : List String) {text : List Nat} (h : text ≠ []) :
    (∀ rank ∈ ranks, codeUnits rank < text) ↔ codeUnits (greatestRank ranks) < text := by
  obtain ⟨hsource, -, hall⟩ := greatest_of_foldl ranks ""
  constructor
  · intro hbefore
    rcases hsource with heq | hmem
    · rw [greatestRank, heq]
      cases text with
      | nil => exact absurd rfl h
      | cons unit rest => exact List.nil_lt_cons unit rest
    · exact hbefore _ hmem
  · exact fun hbefore rank hrank => lt_of_le_of_lt (hall rank hrank) hbefore

/-! ### When the new rank is the last -/

/-- Read from its first character as a number of as many digits as `n` is printed with, the rank is not above `n`. -/
def Behind (n : Nat) (rank : String) : Prop :=
  numeralsUpTo 36 digitUnit (width n) (codeUnits rank) ≤ n

/-- The same against a negative number: its text begins with a zero, or with the sign where five digits follow. -/
def BehindNegative (n : Nat) (rank : String) : Prop :=
  match codeUnits rank with
  | [] => True
  | first :: rest =>
      if (Nat.digits 36 n).length < 5 then first < '0'.toNat
      else first < '-'.toNat ∨
        first = '-'.toNat ∧ numeralsUpTo 36 digitUnit (Nat.digits 36 n).length rest ≤ n

/-- The greatest rank stands before the text of the number after the one that is read from it. -/
def NumberAfter (count : Nat) (greatest : String) : Prop :=
  match parseInt (if greatest.isEmpty then "0" else greatest) with
  | none => Behind (count + 1) greatest
  | some numeric =>
      numeric.natAbs < exactBelow ∧
        if -1 ≤ numeric then Behind (numeric + 1).toNat greatest
        else BehindNegative (numeric + 1).natAbs greatest

theorem lt_printed_natCast (rank : String) (n : Nat) :
    codeUnits rank < codeUnits (String.ofList (printed n)) ↔ Behind n rank := by
  rw [codeUnits_ofList (printed_small n), printed_natCast, map_numeral]
  exact digitUnit_ascending.lt_numeral_iff (lt_pow_width n) _

theorem codeUnits_cons (c : Char) (rest : List Char) :
    ∃ more, codeUnits (String.ofList (c :: rest))
      = (if c.toNat < 0x10000 then c.toNat else 0xD800 + (c.toNat - 0x10000) / 0x400) :: more := by
  rw [codeUnits, String.toList_ofList, List.flatMap_cons]
  by_cases hone : c.toNat < 0x10000
  · simp only [if_pos hone]
    exact ⟨_, rfl⟩
  · simp only [if_neg hone]
    exact ⟨_, rfl⟩

theorem parseInt_zero : parseInt "0" = some 0 := by
  decide

/-- What `parseInt` reads is not empty and does not begin with the null character. -/
theorem parseInt_first {text : String} {numeric : Int} (h : parseInt text = some numeric) :
    ∃ c rest, text.toList = c :: rest ∧ c.toNat ≠ 0 ∧ (numeric < 0 → c ≠ '0') := by
  cases htext : text.toList with
  | nil =>
      rw [parseInt, htext] at h
      cases h
  | cons c rest =>
      refine ⟨c, rest, rfl, ?_, ?_⟩
      · intro hnull
        obtain rfl : c = Char.ofNat 0 := by
          rw [← hnull, Char.ofNat_toNat]
        rw [parseInt, htext] at h
        cases h
      · rintro hnegative rfl
        rw [parseInt, htext] at h
        have hspace : isSpace '0' = false := by decide
        simp only [List.dropWhile_cons, hspace] at h
        obtain ⟨value, -, hvalue⟩ := Option.map_eq_some_iff.mp h
        rw [← hvalue] at hnegative
        exact absurd hnegative (Int.not_lt.mpr (Int.natCast_nonneg value))

theorem lt_printed_neg {rank : String} {c : Char} {rest : List Char} (htext : rank.toList = c :: rest)
    (hc : c ≠ '0') {n : Nat} (hn : 0 < n) :
    codeUnits rank < codeUnits (String.ofList (printed (-(n : Int)))) ↔ BehindNegative n rank := by
  have hrank : rank = String.ofList (c :: rest) := by
    rw [← htext, String.ofList_toList]
  obtain ⟨more, hunits⟩ := codeUnits_cons c rest
  rw [← hrank] at hunits
  rw [codeUnits_ofList (printed_small _), printed_neg hn, BehindNegative, hunits]
  generalize hfirst : (if c.toNat < 0x10000 then c.toNat else 0xD800 + (c.toNat - 0x10000) / 0x400) = first
  have hzero : first ≠ '0'.toNat := by
    intro heq
    split at hfirst
    · exact hc (Char.toNat_inj.mp (hfirst.trans heq))
    · have hsmall : '0'.toNat < 0xD800 := by decide
      omega
  rcases Nat.lt_or_ge (Nat.digits 36 n).length 5 with hshort | hlong
  · obtain ⟨zeros, hzeros⟩ : ∃ zeros, 5 - (Nat.digits 36 n).length = zeros + 1 :=
      ⟨4 - (Nat.digits 36 n).length, by omega⟩
    rw [hzeros]
    simp only [if_pos hshort, List.replicate_succ, List.cons_append, List.map_cons,
      List.cons_lt_cons_iff, hzero, false_and, or_false]
  · have hzeros : 5 - (Nat.digits 36 n).length = 0 := by omega
    have hdigits : n < 36 ^ (Nat.digits 36 n).length := Nat.lt_base_pow_length_digits (by decide)
    rw [hzeros]
    simp only [if_neg (Nat.not_lt.mpr hlong), List.replicate_zero, List.nil_append, List.map_cons,
      List.cons_lt_cons_iff, map_numeral, digitUnit_ascending.lt_numeral_iff hdigits]

theorem codeUnits_ne_nil {chars : List Char} (h : chars ≠ []) :
    codeUnits (String.ofList chars) ≠ [] := by
  cases chars with
  | nil => exact absurd rfl h
  | cons c rest =>
      obtain ⟨more, hunits⟩ := codeUnits_cons c rest
      rw [hunits]
      exact List.cons_ne_nil _ _

theorem printed_ne_nil (value : Int) : printed value ≠ [] := by
  rw [printed]
  intro hnil
  obtain ⟨hzeros, htext⟩ := List.append_eq_nil_iff.mp hnil
  rw [htext] at hzeros
  cases hzeros

theorem codeUnits_nextRank_ne_nil (beyond : Int → Option String) (ranks : List String) :
    codeUnits (nextRank beyond ranks) ≠ [] := by
  rw [nextRank]
  split
  · exact codeUnits_ne_nil (printed_ne_nil _)
  · split
    · exact codeUnits_ne_nil (printed_ne_nil _)
    · split
      · exact codeUnits_ne_nil (printed_ne_nil _)
      · rename_i text _
        refine codeUnits_ne_nil fun hnil => ?_
        obtain ⟨hzeros, htext⟩ := List.append_eq_nil_iff.mp hnil
        rw [codeUnits, htext] at hzeros
        cases hzeros

/-- A number that is not exact is printed as the engine likes, perhaps before every rank. -/
theorem exact_of_last {ranks : List String} {numeric : Int}
    (hparse : parseInt (if (greatestRank ranks).isEmpty then "0" else greatestRank ranks) = some numeric)
    (hlast : ∀ beyond, codeUnits (greatestRank ranks) < codeUnits (nextRank beyond ranks)) :
    numeric.natAbs < exactBelow := by
  by_contra hfar
  have hnulls := hlast fun _ => some (String.ofList (List.replicate 6 (Char.ofNat 0)))
  simp only [nextRank, hparse, if_neg hfar] at hnulls
  have hprinted : codeUnits (String.ofList (List.replicate
      (6 - (codeUnits (String.ofList (List.replicate 6 (Char.ofNat 0)))).length) '0'
        ++ (String.ofList (List.replicate 6 (Char.ofNat 0))).toList)) = List.replicate 6 0 := by
    decide
  rw [hprinted] at hnulls
  by_cases hempty : (greatestRank ranks).isEmpty
  · rw [if_pos hempty, parseInt_zero] at hparse
    cases hparse
    exact hfar (by decide)
  · rw [if_neg hempty] at hparse
    obtain ⟨c, rest, htext, hnull, -⟩ := parseInt_first hparse
    obtain ⟨more, hunits⟩ := codeUnits_cons c rest
    rw [← htext, String.ofList_toList] at hunits
    rw [hunits, List.replicate_succ, List.cons_lt_cons_iff] at hnulls
    split at hnulls <;> omega

/-- The new row sorts last, whatever the engine does, if and only if its number is exact and its text stands after the greatest rank. -/
theorem last_iff (ranks : List String) :
    (∀ beyond, ∀ rank ∈ ranks, codeUnits rank < codeUnits (nextRank beyond ranks)) ↔
      NumberAfter ranks.length (greatestRank ranks) := by
  have hgreatest : (∀ beyond, ∀ rank ∈ ranks, codeUnits rank < codeUnits (nextRank beyond ranks)) ↔
      ∀ beyond, codeUnits (greatestRank ranks) < codeUnits (nextRank beyond ranks) :=
    forall_congr' fun beyond => all_lt_iff ranks (codeUnits_nextRank_ne_nil beyond ranks)
  rw [hgreatest, NumberAfter]
  cases hparse : parseInt (if (greatestRank ranks).isEmpty then "0" else greatestRank ranks) with
  | none =>
      have hcount := lt_printed_natCast (greatestRank ranks) (ranks.length + 1)
      simp only [nextRank, hparse]
      exact ⟨fun h => hcount.mp (h fun _ => none), fun h _ => hcount.mpr h⟩
  | some numeric =>
      have hnext : numeric.natAbs < exactBelow → ∀ beyond,
          nextRank beyond ranks = String.ofList (printed (numeric + 1)) := by
        intro hexact beyond
        simp only [nextRank, hparse, if_pos hexact]
      have hside : codeUnits (greatestRank ranks) < codeUnits (String.ofList (printed (numeric + 1))) ↔
          if -1 ≤ numeric then Behind (numeric + 1).toNat (greatestRank ranks)
          else BehindNegative (numeric + 1).natAbs (greatestRank ranks) := by
        by_cases hsign : -1 ≤ numeric
        · rw [if_pos hsign, ← lt_printed_natCast, Int.toNat_of_nonneg (by omega)]
        · rw [if_neg hsign]
          have hfull : ¬ (greatestRank ranks).isEmpty := by
            intro hempty
            rw [if_pos hempty, parseInt_zero] at hparse
            cases hparse
            omega
          rw [if_neg hfull] at hparse
          obtain ⟨c, rest, htext, -, hc⟩ := parseInt_first hparse
          obtain ⟨n, hn⟩ : ∃ n : Nat, numeric + 1 = -(n : Int) := ⟨(numeric + 1).natAbs, by omega⟩
          have hpos : 0 < n := by omega
          rw [hn, lt_printed_neg htext (hc (by omega)) hpos, Int.natAbs_neg, Int.natAbs_natCast]
      constructor
      · intro hlast
        have hexact := exact_of_last hparse hlast
        have hnone := hlast fun _ => none
        rw [hnext hexact] at hnone
        exact ⟨hexact, hside.mp hnone⟩
      · rintro ⟨hexact, hafter⟩ beyond
        rw [hnext hexact]
        exact hside.mpr hafter

end ShishiTodo.Web
