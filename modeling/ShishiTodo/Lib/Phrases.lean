import ShishiTodo.Lib.Texts

/-!
# Phrases in a text

The patterns `(?:^|\s)…(?:\s|$)`: a phrase between white space or the ends of the text. `exec` finds the first one. Replacing the text of the match by a space, wherever that text occurs first, gives the same words as replacing the match exactly when the text of the match does not occur before it.
-/

namespace Lib

/-- What a pattern can read at the beginning of a text, in the order in which it tries. -/
abbrev Body (α : Type) := List Char → List (α × List Char)

structure Found (α : Type) where
  before : List Char
  matched : List Char
  after : List Char
  value : α
  deriving DecidableEq, Repr

/-- `(?:\s|$)`, after the first alternative that it lets through. -/
def upToSpace {α : Type} (alternatives : List (α × List Char)) : Option (α × List Char) :=
  alternatives.findSome? fun (value, rest) =>
    match rest with
    | [] => some (value, [])
    | c :: after => if isSpace c then some (value, after) else none

/-- A match that begins here: the flag tells whether this is the beginning of the text. -/
def matchAt {α : Type} (body : Body α) (start : Bool) (chars : List Char) : Option (α × List Char) :=
  (if start then upToSpace (body chars) else none).or
    (match chars with
    | [] => none
    | c :: rest => if isSpace c then upToSpace (body rest) else none)

def execFrom {α : Type} (body : Body α) (before : List Char) (chars : List Char) : Option (Found α) :=
  match matchAt body before.isEmpty chars with
  | some (value, after) => some ⟨before, chars.take (chars.length - after.length), after, value⟩
  | none =>
      match chars with
      | [] => none
      | c :: rest => execFrom body (before ++ [c]) rest

def exec {α : Type} (body : Body α) (chars : List Char) : Option (Found α) := execFrom body [] chars

/-- The phrases of a pattern: a word, without white space, for each value. -/
structure Reads {α : Type} (body : Body α) (spells : α → List Char → Prop) : Prop where
  mem_iff : ∀ chars value rest,
    (value, rest) ∈ body chars ↔ ∃ word, spells value word ∧ chars = word ++ rest
  word_ne_nil : ∀ {value word}, spells value word → word ≠ []
  word_solid : ∀ {value word}, spells value word → ∀ c ∈ word, isSpace c = false

/-- A phrase stands at this place of the text. -/
def StandsAt {α : Type} (spells : α → List Char → Prop) (before : List Char) (value : α)
    (matched after : List Char) : Prop :=
  ∃ lead word trail, spells value word ∧ matched = lead ++ word ++ trail ∧
    (lead = [] ∧ before = [] ∨ ∃ c, isSpace c = true ∧ lead = [c]) ∧
    (trail = [] ∧ after = [] ∨ ∃ c, isSpace c = true ∧ trail = [c])

/-! ### Parts of patterns -/

def literal (text chars : List Char) : List (List Char) :=
  if text.isPrefixOf chars then [chars.drop text.length] else []

/-- One of several texts. -/
def anyOf (texts : List (List Char)) (chars : List Char) : List (List Char) :=
  texts.flatMap fun text => literal text chars

/-- `(c)?`: with the character first. -/
def optional (c : Char) (chars : List Char) : List (Bool × List Char) :=
  (literal [c] chars).map (fun rest => (true, rest)) ++ [(false, chars)]

/-- A class of characters. -/
def oneOf (members : List Char) : List Char → List (Char × List Char)
  | [] => []
  | c :: rest => if c ∈ members then [(c, rest)] else []

/-- A pattern that is a text. -/
def literalBody (text : List Char) : Body Unit := fun chars => (literal text chars).map fun rest => ((), rest)

theorem mem_literal {text chars rest : List Char} : rest ∈ literal text chars ↔ chars = text ++ rest := by
  rw [literal]
  split
  · rename_i h
    obtain ⟨others, rfl⟩ := List.isPrefixOf_iff_prefix.mp h
    rw [List.mem_singleton, List.drop_left, List.append_right_inj]
    exact eq_comm
  · rename_i h
    constructor
    · intro hmem
      cases hmem
    · rintro rfl
      exact absurd (List.isPrefixOf_iff_prefix.mpr ⟨rest, rfl⟩) h

theorem mem_anyOf {texts : List (List Char)} {chars rest : List Char} :
    rest ∈ anyOf texts chars ↔ ∃ text ∈ texts, chars = text ++ rest := by
  simp only [anyOf, List.mem_flatMap, mem_literal]

theorem mem_optional {c : Char} {chars rest : List Char} {present : Bool} :
    (present, rest) ∈ optional c chars ↔ chars = (if present then [c] else []) ++ rest := by
  cases present
  · simp [optional, eq_comm]
  · simp [optional, mem_literal]

theorem mem_oneOf {members chars rest : List Char} {c : Char} :
    (c, rest) ∈ oneOf members chars ↔ c ∈ members ∧ chars = c :: rest := by
  cases chars with
  | nil => simp [oneOf]
  | cons d others =>
      rw [oneOf]
      split
      · rename_i hmember
        rw [List.mem_singleton, Prod.mk.injEq, List.cons.injEq]
        constructor
        · rintro ⟨rfl, rfl⟩
          exact ⟨hmember, rfl, rfl⟩
        · rintro ⟨-, rfl, rfl⟩
          exact ⟨rfl, rfl⟩
      · rename_i hother
        constructor
        · intro hmem
          cases hmem
        · rintro ⟨hmember, hsame⟩
          rw [(List.cons.inj hsame).1] at hother
          exact absurd hmember hother

/-! ### The first match -/

section

variable {α : Type} {body : Body α} {spells : α → List Char → Prop} (hreads : Reads body spells)

include hreads

theorem upToSpace_some {chars after : List Char} {value : α} (h : upToSpace (body chars) = some (value, after)) :
    ∃ word trail, spells value word ∧ chars = word ++ trail ++ after ∧
      (trail = [] ∧ after = [] ∨ ∃ c, isSpace c = true ∧ trail = [c]) := by
  obtain ⟨⟨found, rest⟩, hmem, hrest⟩ := List.exists_of_findSome?_eq_some h
  obtain ⟨word, hword, rfl⟩ := (hreads.mem_iff _ _ _).mp hmem
  cases rest with
  | nil =>
      cases hrest
      exact ⟨word, [], hword, by simp, .inl ⟨rfl, rfl⟩⟩
  | cons c rest =>
      simp only at hrest
      split at hrest
      · rename_i hc
        cases hrest
        exact ⟨word, [c], hword, by simp, .inr ⟨c, hc, rfl⟩⟩
      · cases hrest

theorem upToSpace_isSome {word trail after : List Char} {value : α} (hword : spells value word)
    (htrail : trail = [] ∧ after = [] ∨ ∃ c, isSpace c = true ∧ trail = [c]) :
    (upToSpace (body (word ++ trail ++ after))).isSome := by
  have hmem : (value, trail ++ after) ∈ body (word ++ trail ++ after) :=
    (hreads.mem_iff _ _ _).mpr ⟨word, hword, List.append_assoc word trail after⟩
  rw [upToSpace, List.findSome?_isSome_iff]
  refine ⟨(value, trail ++ after), hmem, ?_⟩
  rcases htrail with ⟨rfl, rfl⟩ | ⟨c, hc, rfl⟩
  · rfl
  · simp [hc]

theorem matchAt_some {before chars after : List Char} {value : α}
    (h : matchAt body before.isEmpty chars = some (value, after)) :
    ∃ matched, chars = matched ++ after ∧ StandsAt spells before value matched after := by
  rw [matchAt.eq_def, Option.or_eq_some_iff] at h
  rcases h with hstart | ⟨-, hspace⟩
  · split at hstart
    · rename_i hempty
      obtain ⟨word, trail, hword, rfl, htrail⟩ := upToSpace_some hreads hstart
      exact ⟨word ++ trail, rfl, [], word, trail, hword, rfl,
        .inl ⟨rfl, List.isEmpty_iff.mp hempty⟩, htrail⟩
    · cases hstart
  · cases chars with
    | nil => cases hspace
    | cons c rest =>
        simp only at hspace
        split at hspace
        · rename_i hc
          obtain ⟨word, trail, hword, rfl, htrail⟩ := upToSpace_some hreads hspace
          exact ⟨c :: (word ++ trail), rfl, [c], word, trail, hword, by simp, .inr ⟨c, hc, rfl⟩, htrail⟩
        · cases hspace

theorem matchAt_isSome {before matched after : List Char} {value : α}
    (h : StandsAt spells before value matched after) :
    (matchAt body before.isEmpty (matched ++ after)).isSome := by
  obtain ⟨lead, word, trail, hword, rfl, hlead, htrail⟩ := h
  have hfound := upToSpace_isSome hreads hword htrail
  rw [matchAt.eq_def, Option.isSome_or, Bool.or_eq_true]
  rcases hlead with ⟨rfl, rfl⟩ | ⟨c, hc, rfl⟩
  · exact .inl hfound
  · refine .inr ?_
    simp only [List.cons_append, List.nil_append, if_pos hc]
    exact hfound

/-- A match stands where it is found, and none stands before it. -/
theorem execFrom_some {before chars : List Char} {found : Found α}
    (h : execFrom body before chars = some found) :
    before ++ chars = found.before ++ found.matched ++ found.after ∧
      before.length ≤ found.before.length ∧
      StandsAt spells found.before found.value found.matched found.after ∧
      ∀ earlier value matched after, before ++ chars = earlier ++ matched ++ after →
        before.length ≤ earlier.length → StandsAt spells earlier value matched after →
        found.before.length ≤ earlier.length := by
  induction chars generalizing before with
  | nil =>
      rw [execFrom] at h
      split at h
      · rename_i value after hmatch
        cases h
        obtain ⟨matched, hchars, hstands⟩ := matchAt_some hreads hmatch
        obtain ⟨rfl, rfl⟩ := List.append_eq_nil_iff.mp hchars.symm
        exact ⟨by simp, Nat.le_refl _, hstands, fun _ _ _ _ _ hlater _ => hlater⟩
      · cases h
  | cons c rest ih =>
      rw [execFrom] at h
      split at h
      · rename_i value after hmatch
        cases h
        obtain ⟨matched, hchars, hstands⟩ := matchAt_some hreads hmatch
        have htake : (c :: rest).take ((c :: rest).length - after.length) = matched := by
          rw [hchars, List.length_append, Nat.add_sub_cancel, List.take_left]
        rw [htake]
        exact ⟨by rw [hchars, List.append_assoc], Nat.le_refl _, hstands,
          fun _ _ _ _ _ hlater _ => hlater⟩
      · rename_i hnone
        obtain ⟨hsplit, hlater, hstands, hfirst⟩ := ih h
        rw [List.append_assoc, List.singleton_append] at hsplit hfirst
        rw [List.length_append, List.length_singleton] at hlater hfirst
        refine ⟨hsplit, by omega, hstands, fun earlier value matched after hother hge hphrase => ?_⟩
        refine hfirst earlier value matched after hother ?_ hphrase
        -- At this very place the pattern does not match.
        by_contra hhere
        have hlength : before.length = earlier.length := by omega
        obtain ⟨rfl, hchars⟩ := List.append_inj (hother.trans (List.append_assoc _ _ _)) hlength
        have := matchAt_isSome hreads hphrase
        rw [← hchars, hnone] at this
        cases this

theorem exec_some {chars : List Char} {found : Found α} (h : exec body chars = some found) :
    chars = found.before ++ found.matched ++ found.after ∧
      StandsAt spells found.before found.value found.matched found.after ∧
      ∀ earlier value matched after, chars = earlier ++ matched ++ after →
        StandsAt spells earlier value matched after → found.before.length ≤ earlier.length := by
  obtain ⟨hsplit, -, hstands, hfirst⟩ := execFrom_some hreads h
  exact ⟨hsplit, hstands, fun earlier value matched after hother =>
    hfirst earlier value matched after hother (Nat.zero_le _)⟩

end

/-! ### Replacing the text of a match -/

namespace Found

variable {α : Type}

/-- The text of the match does not occur before it. -/
def First (found : Found α) : Prop :=
  ∀ earlier rest, found.before ++ found.matched ++ found.after = earlier ++ found.matched ++ rest →
    found.before.length ≤ earlier.length

end Found

/-- Two occurrences of a space and a word do not overlap, nor does the second begin where the first ends. -/
theorem longer_word {space c : Char} {word matched earlier before between : List Char}
    (hspace : isSpace space = true) (hword : ∀ d ∈ word, isSpace d = false) (hc : isSpace c = false)
    (hearlier : earlier.length < before.length) (hmatched : matched = space :: word)
    (h : earlier ++ matched ++ c :: between = before ++ matched) :
    ∃ mid, before = earlier ++ matched ++ c :: mid ∧ between = mid ++ matched := by
  have hsplit : (earlier ++ matched ++ [c]) ++ between = before ++ matched := by
    rw [← h]
    simp
  rcases List.append_eq_append_iff.mp hsplit with ⟨mid, hbefore, hbetween⟩ | ⟨mid, hfront, hback⟩
  · exact ⟨mid, by rw [hbefore]; simp, hbetween⟩
  · cases mid with
    | nil => exact ⟨[], by simpa using hfront.symm, by simpa using hback.symm⟩
    | cons d mid =>
        -- The second occurrence would begin inside the word.
        obtain rfl : d = space := by
          rw [hmatched] at hback
          exact (List.cons.inj hback).1.symm
        rw [List.append_assoc] at hfront
        rcases List.append_eq_append_iff.mp hfront with ⟨skipped, hlonger, hrest⟩ | ⟨skipped, hshort, -⟩
        · rw [hmatched] at hrest
          cases skipped with
          | nil =>
              rw [hlonger, List.append_nil] at hearlier
              exact absurd hearlier (Nat.lt_irrefl _)
          | cons e skipped =>
              have htail : word ++ [c] = skipped ++ d :: mid := (List.cons.inj hrest).2
              have hmem : d ∈ word ++ [c] := by
                rw [htail]
                exact List.mem_append_right skipped List.mem_cons_self
              rcases List.mem_append.mp hmem with hinside | hend
              · rw [hword d hinside] at hspace
                cases hspace
              · rw [List.mem_singleton.mp hend, hc] at hspace
                cases hspace
        · rw [hshort, List.length_append] at hearlier
          omega

section

variable {α : Type} {body : Body α} {spells : α → List Char → Prop} (hreads : Reads body spells)
  {chars : List Char} {found : Found α} (hfound : exec body chars = some found)

include hreads hfound

theorem matched_ne_nil : found.matched ≠ [] := by
  obtain ⟨-, ⟨lead, word, trail, hword, hmatched, -⟩, -⟩ := exec_some hreads hfound
  intro hnone
  rw [hnone] at hmatched
  exact hreads.word_ne_nil hword (List.append_eq_nil_iff.mp (List.append_eq_nil_iff.mp hmatched.symm).1).2

/-- The text of a match that occurs earlier ends the whole text; there it is the beginning of a longer word. -/
theorem earlier_occurrence {earlier rest : List Char} (hsplit : chars = earlier ++ found.matched ++ rest)
    (hearlier : earlier.length < found.before.length) :
    ∃ space word, isSpace space = true ∧ word ≠ [] ∧ (∀ c ∈ word, isSpace c = false) ∧
      found.matched = space :: word ∧ found.after = [] ∧
      ∃ c between, isSpace c = false ∧ rest = c :: between ++ found.matched ∧
        found.before = earlier ++ found.matched ++ c :: between := by
  obtain ⟨hchars, ⟨lead, word, trail, hword, hmatched, hlead, htrail⟩, hfirst⟩ := exec_some hreads hfound
  -- Nothing stands where the text occurs earlier.
  have hnot : ∀ other, rest = other → ¬ StandsAt spells earlier found.value found.matched other := by
    rintro other rfl hstands
    have := hfirst earlier found.value found.matched rest hsplit hstands
    omega
  rcases hlead with ⟨-, hbefore⟩ | ⟨space, hspace, rfl⟩
  · rw [hbefore] at hearlier
    exact absurd hearlier (Nat.not_lt_zero _)
  rcases htrail with ⟨rfl, hafter⟩ | ⟨c, hc, rfl⟩
  · rw [List.append_nil, List.singleton_append] at hmatched
    cases rest with
    | nil =>
        have hlengths := congrArg List.length (hchars.symm.trans hsplit)
        rw [hafter] at hlengths
        simp only [List.length_append, List.length_nil] at hlengths
        omega
    | cons c between =>
        have hsolid : isSpace c = false := by
          by_contra hc
          have hphrase : StandsAt spells earlier found.value (found.matched ++ [c]) between :=
            ⟨[space], word, [c], hword, by rw [hmatched]; simp, .inr ⟨space, hspace, rfl⟩,
              .inr ⟨c, by simpa using hc, rfl⟩⟩
          have := hfirst _ _ _ _ (by rw [hsplit]; simp) hphrase
          omega
        rw [hafter, List.append_nil, hsplit] at hchars
        obtain ⟨mid, hbefore, hbetween⟩ :=
          longer_word hspace (hreads.word_solid hword) hsolid hearlier hmatched hchars
        exact ⟨space, word, hspace, hreads.word_ne_nil hword, hreads.word_solid hword, hmatched, hafter,
          c, mid, hsolid, by rw [hbetween]; rfl, hbefore⟩
  · exact absurd ⟨[space], word, [c], hword, hmatched, .inr ⟨space, hspace, rfl⟩, .inr ⟨c, hc, rfl⟩⟩
      (hnot rest rfl)

/-- The title is as if the match itself had been replaced exactly when its text does not occur before it. -/
theorem tidy_replaceFirst_iff :
    tidy (replaceFirst found.matched chars) = tidy (found.before ++ ' ' :: found.after) ↔ found.First := by
  obtain ⟨hchars, -, -⟩ := exec_some hreads hfound
  have hsome := matched_ne_nil hreads hfound
  constructor
  · intro h earlier rest hsplit
    by_contra hnot
    -- The first occurrence is replaced, in the middle of a word.
    obtain ⟨first, others, hother, hle, hleast⟩ :=
      @exists_first found.matched earlier rest
    rw [← hsplit, ← hchars] at hother hleast
    have hreplaced := replaceFirst_eq hsome fun prior following hprior =>
      hleast prior following (hother.trans hprior)
    rw [← hother] at hreplaced
    obtain ⟨space, word, hspace, hword, hsolid, hmatched, hafter, c, between, hc, hothers, hbefore⟩ :=
      earlier_occurrence hreads hfound hother (by omega)
    have hcounts := congrArg (wordCount true) h
    have hblank : isSpace ' ' = true := by decide
    have halone := wordCount_word hword hsolid true []
    rw [List.append_nil] at halone
    have hcode : wordCount true (first ++ ' ' :: (c :: between ++ space :: word)) =
        wordCount true first + (1 + wordCount false between + 1) := by
      rw [wordCount_append_space first hblank, wordCount_append_space _ hspace, halone,
        wordCount_cons hc]
      simp [wordCount]
    have hmeant : wordCount true (first ++ space :: word ++ c :: between ++ [' ']) =
        wordCount true first + (1 + wordCount false between) := by
      rw [wordCount_append_space _ hblank, List.append_assoc, List.cons_append,
        wordCount_append_space first hspace, wordCount_word hword hsolid, wordCount_cons hc]
      simp [wordCount]
    rw [wordCount_tidy, wordCount_tidy, hreplaced, hothers, hbefore, hafter, hmatched, hcode, hmeant] at hcounts
    omega
  · intro hfirst
    rw [hchars, replaceFirst_eq hsome hfirst]

end

end Lib
