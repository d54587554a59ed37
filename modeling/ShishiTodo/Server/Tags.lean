import ShishiTodo.Server.EntityOutcome
import ShishiTodo.Server.ExactlyOnce
import ShishiTodo.Codecs
import ShishiTodo.Lib.Chars

/-!
# Normalized tags

`clean_tag` makes one space of the white space between words, none at the ends, and then takes one hash from the front. What it leaves is clean but for a second hash: a tag with two hashes in front keeps one, which the next cleaning takes away. `normalize_tags` is stable on every other list.
-/

namespace ShishiTodo

open Lib

/-! ### Clean text -/

/-- After a word character: single spaces, each between two words. -/
def TidyAfter : List Char → Prop
  | [] => True
  | [c] => isWhitespace c = false
  | c :: d :: rest => (isWhitespace c = true → c = ' ' ∧ isWhitespace d = false) ∧ TidyAfter (d :: rest)

/-- Words with single spaces between them. -/
def Tidy : List Char → Prop
  | [] => True
  | c :: rest => isWhitespace c = false ∧ TidyAfter rest

/-- The characters other than white space. -/
def visible (chars : List Char) : List Char := chars.filter fun c => !isWhitespace c

section Tidy

variable {c : Char} {chars rest cleaned : List Char}

theorem tidyAfter_cons_word (hc : isWhitespace c = false) : TidyAfter (c :: rest) ↔ TidyAfter rest := by
  cases rest with
  | nil => exact ⟨fun _ => trivial, fun _ => hc⟩
  | cons d rest =>
      refine ⟨And.right, fun hrest => ⟨fun hspace => ?_, hrest⟩⟩
      rw [hc] at hspace
      cases hspace

theorem Tidy.after (h : Tidy chars) : TidyAfter chars := by
  cases chars with
  | nil => trivial
  | cons c rest => exact (tidyAfter_cons_word h.1).mpr h.2

theorem isWhitespace_space : isWhitespace ' ' = true := by
  decide

theorem tidyAfter_space (h : TidyAfter (' ' :: rest)) : ∃ d tail, rest = d :: tail ∧ Tidy rest := by
  cases rest with
  | nil =>
      change isWhitespace ' ' = false at h
      rw [isWhitespace_space] at h
      cases h
  | cons d tail =>
      obtain ⟨hspace, hafter⟩ := h
      have hword := (hspace isWhitespace_space).2
      exact ⟨d, tail, rfl, hword, (tidyAfter_cons_word hword).mp hafter⟩

/-- White space in clean text is a space. -/
theorem TidyAfter.eq_space (h : TidyAfter (c :: rest)) (hc : isWhitespace c = true) : c = ' ' := by
  cases rest with
  | nil =>
      change isWhitespace c = false at h
      rw [hc] at h
      cases h
  | cons d rest => exact (h.1 hc).1

/-! ### The loop of `clean_tag` -/

/-- What the loop appends to a word that it has begun. -/
def collapseAfter : List Char → Bool → List Char
  | [], _ => []
  | c :: rest, pendingSpace =>
      if isWhitespace c then collapseAfter rest true
      else if pendingSpace then ' ' :: c :: collapseAfter rest false
      else c :: collapseAfter rest false

theorem collapseSpaces_append : ∀ (chars cleaned : List Char) (pendingSpace : Bool), cleaned ≠ [] →
    collapseSpaces chars cleaned pendingSpace = cleaned.reverse ++ collapseAfter chars pendingSpace
  | [], cleaned, _, _ => by
      rw [collapseSpaces, collapseAfter, List.append_nil]
  | c :: rest, cleaned, pendingSpace, hcleaned => by
      have hsome : (!cleaned.isEmpty) = true := by
        simpa using hcleaned
      rw [collapseSpaces, collapseAfter, hsome, Bool.or_true, Bool.and_true]
      split
      · exact collapseSpaces_append rest cleaned true hcleaned
      · split
        · rw [collapseSpaces_append rest (c :: ' ' :: cleaned) false (List.cons_ne_nil _ _)]
          simp
        · rw [collapseSpaces_append rest (c :: cleaned) false (List.cons_ne_nil _ _)]
          simp

/-- Before the first word white space is dropped. -/
theorem collapseSpaces_space (hc : isWhitespace c = true) :
    collapseSpaces (c :: rest) [] false = collapseSpaces rest [] false := by
  rw [collapseSpaces, if_pos hc]
  rfl

theorem collapseSpaces_word (hc : isWhitespace c = false) :
    collapseSpaces (c :: rest) [] false = c :: collapseAfter rest false := by
  rw [collapseSpaces, if_neg (by rw [hc]; decide), Bool.false_and, if_neg (by decide),
    collapseSpaces_append rest [c] false (List.cons_ne_nil _ _)]
  rfl

theorem tidyAfter_collapseAfter : ∀ (chars : List Char) (pendingSpace : Bool),
    TidyAfter (collapseAfter chars pendingSpace)
  | [], _ => trivial
  | c :: rest, pendingSpace => by
      rw [collapseAfter]
      split
      · exact tidyAfter_collapseAfter rest true
      · rename_i hc
        have hword : isWhitespace c = false := by
          simpa using hc
        have hrest := (tidyAfter_cons_word hword).mpr (tidyAfter_collapseAfter rest false)
        split
        · exact ⟨fun _ => ⟨rfl, hword⟩, hrest⟩
        · exact hrest

/-- The loop leaves clean text. -/
theorem tidy_collapseSpaces (chars : List Char) : Tidy (collapseSpaces chars [] false) := by
  induction chars with
  | nil => trivial
  | cons c rest ih =>
      cases hc : isWhitespace c with
      | true =>
          rw [collapseSpaces_space hc]
          exact ih
      | false =>
          rw [collapseSpaces_word hc]
          exact ⟨hc, tidyAfter_collapseAfter rest false⟩

/-- Clean text is left alone. -/
theorem collapseAfter_tidy : ∀ {chars : List Char}, TidyAfter chars → collapseAfter chars false = chars
  | [], _ => rfl
  | c :: rest, h => by
      cases hc : isWhitespace c with
      | true =>
          obtain rfl := h.eq_space hc
          obtain ⟨d, tail, rfl, hword, hafter⟩ := tidyAfter_space h
          rw [collapseAfter, if_pos hc, collapseAfter, if_neg (by rw [hword]; decide), if_pos rfl,
            collapseAfter_tidy hafter]
      | false =>
          rw [collapseAfter, if_neg (by rw [hc]; decide), if_neg (by decide),
            collapseAfter_tidy ((tidyAfter_cons_word hc).mp h)]

theorem collapseSpaces_tidy (h : Tidy chars) : collapseSpaces chars [] false = chars := by
  cases chars with
  | nil => rfl
  | cons c rest => rw [collapseSpaces_word h.1, collapseAfter_tidy h.2]

@[simp] theorem visible_nil : visible [] = [] := rfl

theorem visible_space (hc : isWhitespace c = true) : visible (c :: rest) = visible rest := by
  rw [visible, List.filter_cons_of_neg (by rw [hc]; decide)]
  rfl

theorem visible_word (hc : isWhitespace c = false) : visible (c :: rest) = c :: visible rest := by
  rw [visible, List.filter_cons_of_pos (by rw [hc]; rfl)]
  rfl

theorem visible_collapseAfter : ∀ (chars : List Char) (pendingSpace : Bool),
    visible (collapseAfter chars pendingSpace) = visible chars
  | [], _ => rfl
  | c :: rest, pendingSpace => by
      cases hc : isWhitespace c with
      | true => rw [collapseAfter, if_pos hc, visible_space hc, visible_collapseAfter rest true]
      | false =>
          rw [collapseAfter, if_neg (by rw [hc]; decide), visible_word hc]
          split
          · rw [visible_space isWhitespace_space, visible_word hc, visible_collapseAfter rest false]
          · rw [visible_word hc, visible_collapseAfter rest false]

/-- Cleaning keeps what is not white space. -/
theorem visible_collapseSpaces (chars : List Char) :
    visible (collapseSpaces chars [] false) = visible chars := by
  induction chars with
  | nil => rfl
  | cons c rest ih =>
      cases hc : isWhitespace c with
      | true => rw [collapseSpaces_space hc, visible_space hc, ih]
      | false => rw [collapseSpaces_word hc, visible_word hc, visible_word hc, visible_collapseAfter]

/-! ### Trimming -/

/-- Clean text ends in a word. -/
theorem TidyAfter.getLast (h : TidyAfter chars) (hchars : chars ≠ []) :
    isWhitespace (chars.getLast hchars) = false := by
  induction chars with
  | nil => exact absurd rfl hchars
  | cons c rest ih =>
      cases rest with
      | nil => exact h
      | cons d rest =>
          rw [List.getLast_cons_cons]
          exact ih h.2 (List.cons_ne_nil d rest)

theorem reverse_dropWhile_tidy (h : TidyAfter chars) :
    (chars.reverse.dropWhile isWhitespace).reverse = chars := by
  rcases List.eq_nil_or_concat' chars with rfl | ⟨before, last, rfl⟩
  · rfl
  · have hlast := h.getLast (List.append_ne_nil_of_right_ne_nil before (List.cons_ne_nil last []))
    rw [List.getLast_append_singleton] at hlast
    rw [List.reverse_append, List.reverse_singleton, List.singleton_append,
      List.dropWhile_cons_of_neg (by rw [hlast]; decide), List.reverse_cons, List.reverse_reverse]

theorem trimChars_tidy (h : Tidy chars) : trimChars chars = chars := by
  cases chars with
  | nil => rfl
  | cons c rest =>
      rw [trimChars, List.dropWhile_cons_of_neg (by rw [h.1]; decide), reverse_dropWhile_tidy h.after]

/-- What follows a word character is clean but for a space before it. -/
theorem tidy_trimChars (h : TidyAfter rest) : Tidy (trimChars rest) ∧ visible (trimChars rest) = visible rest := by
  cases rest with
  | nil => exact ⟨trivial, rfl⟩
  | cons c rest =>
      cases hc : isWhitespace c with
      | true =>
          obtain rfl := h.eq_space hc
          obtain ⟨d, tail, rfl, htidy⟩ := tidyAfter_space h
          have htrim : trimChars (' ' :: d :: tail) = d :: tail := by
            rw [trimChars, List.dropWhile_cons_of_pos hc]
            exact trimChars_tidy htidy
          rw [htrim, visible_space hc]
          exact ⟨htidy, rfl⟩
      | false =>
          have htidy : Tidy (c :: rest) := ⟨hc, (tidyAfter_cons_word hc).mp h⟩
          rw [trimChars_tidy htidy]
          exact ⟨htidy, rfl⟩

end Tidy

/-! ### A tag -/

/-- The first two characters other than white space are hashes. -/
def DoubleHash (value : String) : Prop := ['#', '#'] <+: visible value.toList

instance (value : String) : Decidable (DoubleHash value) :=
  inferInstanceAs (Decidable (['#', '#'] <+: visible value.toList))

/-- A cleaned tag is clean text, and lacks at most one hash that the tag began with. -/
theorem cleanTag_cases (value : String) : Tidy (cleanTag value).toList ∧
    (visible value.toList = '#' :: visible (cleanTag value).toList ∨
      visible value.toList = visible (cleanTag value).toList ∧
        (cleanTag value).toList.head? ≠ some '#') := by
  have htidy := tidy_collapseSpaces value.toList
  have hvisible := visible_collapseSpaces value.toList
  rw [cleanTag, String.toList_ofList, trimChars_tidy htidy, ← hvisible]
  revert htidy
  generalize collapseSpaces value.toList [] false = cleaned
  intro htidy
  split
  · rename_i rest
    obtain ⟨htrimmed, hsame⟩ := tidy_trimChars htidy.2
    rw [visible_word htidy.1, hsame]
    exact ⟨htrimmed, .inl rfl⟩
  · rename_i hnone
    rw [trimChars_tidy htidy]
    refine ⟨htidy, .inr ⟨rfl, fun hhash => ?_⟩⟩
    cases cleaned with
    | nil => cases hhash
    | cons c rest =>
        cases hhash
        exact hnone rest rfl

/-- Clean text begins with what is visible first. -/
theorem Tidy.head? {chars : List Char} (h : Tidy chars) : chars.head? = (visible chars).head? := by
  cases chars with
  | nil => rfl
  | cons c rest => rw [visible_word h.1, List.head?_cons, List.head?_cons]

/-- Clean text begins with a hash when what it was made of begins with two. -/
theorem Tidy.head_hash_iff {chars before : List Char} (h : Tidy chars)
    (hcases : before = '#' :: visible chars ∨ before = visible chars ∧ chars.head? ≠ some '#') :
    chars.head? = some '#' ↔ ['#', '#'] <+: before := by
  rcases hcases with rfl | ⟨rfl, hnone⟩
  · rw [h.head?, List.cons_prefix_cons]
    cases visible chars with
    | nil => simp
    | cons c rest => simp [eq_comm]
  · refine ⟨fun hhead => absurd hhead hnone, fun hdouble => absurd ?_ hnone⟩
    obtain ⟨rest, hrest⟩ := hdouble
    rw [h.head?, ← hrest]
    rfl

/-- A cleaned tag begins with a hash when the tag began with two. -/
theorem head_cleanTag (value : String) :
    (cleanTag value).toList.head? = some '#' ↔ DoubleHash value := by
  have hcases := cleanTag_cases value
  rw [DoubleHash]
  revert hcases
  generalize cleanTag value = tag
  intro hcases
  exact hcases.1.head_hash_iff hcases.2

/-- Cleaning again changes a cleaned tag when it begins with a hash. -/
theorem cleanTag_cleanTag_iff (value : String) :
    cleanTag (cleanTag value) = cleanTag value ↔ ¬ DoubleHash value := by
  rw [← head_cleanTag]
  have hcases := cleanTag_cases value
  revert hcases
  generalize cleanTag value = tag
  intro hcases
  have htidy := hcases.1
  constructor
  · intro hsame hhash
    obtain ⟨-, hshorter | ⟨-, hnone⟩⟩ := cleanTag_cases tag
    · rw [hsame] at hshorter
      exact List.cons_ne_self '#' _ hshorter.symm
    · rw [hsame] at hnone
      exact hnone hhash
  · intro hnone
    rw [cleanTag, collapseSpaces_tidy htidy, trimChars_tidy htidy]
    split
    · rename_i rest heq
      rw [heq] at hnone
      exact absurd rfl hnone
    · rw [trimChars_tidy htidy, String.ofList_toList]

/-! ### The tags of a task -/

section Normalized

variable {env : Env} {tags seen result kept final : List String}

theorem checkTag_eq_ok {raw tag : String} (h : checkTag raw = .ok tag) : tag = cleanTag raw := by
  unfold checkTag at h
  revert h
  generalize cleanTag raw = cleaned
  intro h
  obtain ⟨_, -, h⟩ := bind_eq_ok_iff.mp h
  obtain ⟨_, -, h⟩ := bind_eq_ok_iff.mp h
  obtain ⟨_, -, h⟩ := bind_eq_ok_iff.mp h
  exact (Except.ok.inj h).symm

/-- A tag that passed its check passes it again, if cleaning leaves it alone. -/
theorem checkTag_again {raw tag : String} (h : checkTag raw = .ok tag) (hclean : cleanTag tag = tag) :
    checkTag tag = .ok tag := by
  obtain rfl := checkTag_eq_ok h
  unfold checkTag at h ⊢
  rw [hclean]
  revert h
  generalize cleanTag raw = cleaned
  exact id

/-- What a list of tags is normalized to: cleaned tags in order, with different keys, none of them seen before, and one for the key of every tag. -/
structure Normalized (env : Env) (tags seen kept : List String) : Prop where
  cleaned : kept.Sublist (tags.map cleanTag)
  checked : ∀ tag ∈ kept, ∃ raw ∈ tags, checkTag raw = .ok tag
  fresh : ∀ tag ∈ kept, env.toLowercase tag ∉ seen
  distinct : (kept.map env.toLowercase).Nodup
  every : ∀ raw ∈ tags, env.toLowercase (cleanTag raw) ∈ seen ∨
    ∃ tag ∈ kept, env.toLowercase tag = env.toLowercase (cleanTag raw)

theorem normalizeTagsFrom_eq_ok
    (h : normalizeTagsFrom env tags seen result = .ok final) :
    ∃ kept, final = result ++ kept ∧ Normalized env tags seen kept ∧
      (kept ≠ [] → final.length ≤ maxTags) := by
  induction tags generalizing seen result with
  | nil =>
      cases h
      refine ⟨[], (List.append_nil _).symm, ⟨?_, ?_, ?_, ?_, ?_⟩, ?_⟩ <;> simp
  | cons raw rest ih =>
      rw [normalizeTagsFrom] at h
      obtain ⟨tag, htag, h⟩ := bind_eq_ok_iff.mp h
      have hclean := checkTag_eq_ok htag
      dsimp only at h
      split at h
      · rename_i hseen
        have hseen := List.contains_iff_mem.mp hseen
        obtain ⟨kept, hfinal, hkept, hlength⟩ := ih h
        refine ⟨kept, hfinal, ⟨hkept.cleaned.cons _, ?_, hkept.fresh, hkept.distinct, ?_⟩, hlength⟩
        · intro found hmem
          obtain ⟨source, hsource, hcheck⟩ := hkept.checked found hmem
          exact ⟨source, List.mem_cons_of_mem raw hsource, hcheck⟩
        · intro other hother
          rcases List.mem_cons.mp hother with rfl | hrest
          · rw [← hclean]
            exact .inl hseen
          · exact hkept.every other hrest
      · rename_i hunseen
        have hunseen : env.toLowercase tag ∉ seen := fun hmem =>
          hunseen (List.contains_iff_mem.mpr hmem)
        split at h
        · cases h
        · rename_i hroom
          obtain ⟨kept, hfinal, hkept, hlength⟩ := ih h
          refine ⟨tag :: kept, by rw [hfinal, List.append_assoc]; rfl, ⟨?_, ?_, ?_, ?_, ?_⟩, ?_⟩
          · rw [List.map_cons, ← hclean]
            exact hkept.cleaned.cons_cons tag
          · intro found hmem
            rcases List.mem_cons.mp hmem with rfl | hrest
            · exact ⟨raw, List.mem_cons_self, htag⟩
            · obtain ⟨source, hsource, hcheck⟩ := hkept.checked found hrest
              exact ⟨source, List.mem_cons_of_mem raw hsource, hcheck⟩
          · intro found hmem
            rcases List.mem_cons.mp hmem with rfl | hrest
            · exact hunseen
            · exact fun hseen => hkept.fresh found hrest (List.mem_cons_of_mem _ hseen)
          · rw [List.map_cons, List.nodup_cons]
            refine ⟨fun hmem => ?_, hkept.distinct⟩
            obtain ⟨found, hfound, hkey⟩ := List.mem_map.mp hmem
            exact hkept.fresh found hfound (hkey ▸ List.mem_cons_self)
          · intro other hother
            rcases List.mem_cons.mp hother with rfl | hrest
            · rw [← hclean]
              exact .inr ⟨tag, List.mem_cons_self, rfl⟩
            · rcases hkept.every other hrest with hseen | ⟨found, hmem, hkey⟩
              · rcases List.mem_cons.mp hseen with heq | hold
                · exact .inr ⟨tag, List.mem_cons_self, heq.symm⟩
                · exact .inl hold
              · exact .inr ⟨found, List.mem_cons_of_mem tag hmem, hkey⟩
          · intro _
            cases kept with
            | nil =>
                rw [hfinal, List.append_nil, List.length_append, List.length_singleton]
                omega
            | cons => exact hlength (List.cons_ne_nil _ _)

/-- Tags that pass their checks as they are, with different keys, are all kept. -/
theorem normalizeTagsFrom_self (hchecked : ∀ tag ∈ tags, checkTag tag = .ok tag)
    (hfresh : ∀ tag ∈ tags, env.toLowercase tag ∉ seen) (hdistinct : (tags.map env.toLowercase).Nodup)
    (hlength : result.length + tags.length ≤ maxTags) :
    normalizeTagsFrom env tags seen result = .ok (result ++ tags) := by
  induction tags generalizing seen result with
  | nil => rw [normalizeTagsFrom, List.append_nil]
  | cons tag rest ih =>
      rw [List.map_cons, List.nodup_cons] at hdistinct
      rw [List.length_cons] at hlength
      have hunseen : seen.contains (env.toLowercase tag) = false := by
        rw [Bool.eq_false_iff, Ne, List.contains_iff_mem]
        exact hfresh tag List.mem_cons_self
      rw [normalizeTagsFrom, hchecked tag List.mem_cons_self]
      change (if seen.contains (env.toLowercase tag) then _ else if _ then _ else _) = _
      rw [hunseen, if_neg (by decide), if_neg (by omega), ih]
      · rw [List.append_assoc]
        rfl
      · exact fun other hother => hchecked other (List.mem_cons_of_mem tag hother)
      · intro other hother hseen
        rcases List.mem_cons.mp hseen with heq | hold
        · exact hdistinct.1 (heq ▸ List.mem_map_of_mem hother)
        · exact hfresh other (List.mem_cons_of_mem tag hother) hold
      · exact hdistinct.2
      · rw [List.length_append, List.length_singleton]
        omega

theorem normalizeTags_eq_ok (h : normalizeTags env tags = .ok final) :
    Normalized env tags [] final ∧ final.length ≤ maxTags := by
  obtain ⟨kept, hfinal, hkept, hlength⟩ := normalizeTagsFrom_eq_ok h
  rw [List.nil_append] at hfinal
  subst hfinal
  refine ⟨hkept, ?_⟩
  cases final with
  | nil => exact Nat.zero_le _
  | cons => exact hlength (List.cons_ne_nil _ _)

/-- Normalized tags are normalized again to themselves when cleaning leaves each of them alone. -/
theorem normalizeTags_again_iff (h : normalizeTags env tags = .ok final) :
    normalizeTags env final = .ok final ↔ ∀ tag ∈ final, cleanTag tag = tag := by
  obtain ⟨hnormalized, hlength⟩ := normalizeTags_eq_ok h
  constructor
  · intro hagain
    have hsublist := (normalizeTags_eq_ok hagain).1.cleaned
    have hsame : final = final.map cleanTag := hsublist.eq_of_length (by rw [List.length_map])
    intro tag htag
    exact List.map_inj_left.mp (hsame.symm.trans (List.map_id final).symm) tag htag
  · intro hclean
    apply normalizeTagsFrom_self
    · intro tag htag
      obtain ⟨raw, -, hcheck⟩ := hnormalized.checked tag htag
      exact checkTag_again hcheck (hclean tag htag)
    · exact hnormalized.fresh
    · exact hnormalized.distinct
    · simpa using hlength

end Normalized

/-- Lower case neither makes nor takes a hash at the front. -/
def Env.LowercaseKeepsHash (env : Env) : Prop :=
  ∀ text, (env.toLowercase text).toList.head? = some '#' ↔ text.toList.head? = some '#'

theorem normalizeTags_stable_iff {env : Env} (henv : env.LowercaseKeepsHash) {tags final : List String}
    (h : normalizeTags env tags = .ok final) :
    normalizeTags env final = .ok final ↔ ∀ raw ∈ tags, ¬ DoubleHash raw := by
  rw [normalizeTags_again_iff h]
  obtain ⟨hnormalized, -⟩ := normalizeTags_eq_ok h
  constructor
  · intro hclean raw hraw hdouble
    rcases hnormalized.every raw hraw with hseen | ⟨tag, htag, hkey⟩
    · cases hseen
    · obtain ⟨source, -, hcheck⟩ := hnormalized.checked tag htag
      obtain rfl := checkTag_eq_ok hcheck
      have hhash : (cleanTag source).toList.head? = some '#' := by
        rw [← henv, hkey, henv]
        exact (head_cleanTag raw).mpr hdouble
      exact (cleanTag_cleanTag_iff source).mp (hclean _ htag) ((head_cleanTag source).mp hhash)
  · intro hsingle tag htag
    obtain ⟨raw, hraw, hcheck⟩ := hnormalized.checked tag htag
    obtain rfl := checkTag_eq_ok hcheck
    exact (cleanTag_cleanTag_iff raw).mpr (hsingle raw hraw)

/-! ### Patching a task -/

/-- The refusal of tags that are not normalized. -/
def notNormalized : MutationError := .validation "tags must be normalized before storage"

/-- The check refuses for another reason, if it refuses. -/
def Unrelated {α : Type} (check : Checked α) : Prop := check ≠ .error notNormalized

section Unrelated

variable {α β : Type} {field : String}

theorem unrelated_ok (value : α) : Unrelated (.ok value : Checked α) := nofun

theorem unrelated_refuseIf {condition : Prop} [Decidable condition] {error : MutationError}
    (herror : error ≠ notNormalized) : Unrelated (refuseIf condition error) :=
  fun h => herror (refuseIf_eq_error h).symm

theorem Unrelated.bind {first : Checked α} {rest : α → Checked β} (hfirst : Unrelated first)
    (hrest : ∀ value, Unrelated (rest value)) : Unrelated (first >>= rest) := by
  intro h
  rcases bind_eq_error_iff.mp h with hnow | ⟨value, -, hlater⟩
  · exact hfirst hnow
  · exact hrest value hlater

/-- A message that begins with another letter is another message. -/
theorem ne_notNormalized {detail : String} (h : detail.toList.head? ≠ some 't') :
    MutationError.validation detail ≠ notNormalized := by
  intro heq
  apply h
  rw [MutationError.mk.inj heq |>.2]
  decide

theorem unrelated_rejectNul (field value : String) : Unrelated (rejectNul field value) :=
  unrelated_refuseIf (ne_notNormalized (by simp [toString]))

theorem unrelated_requiredText (field value : String) (maxChars : Nat) :
    Unrelated (requiredText field value maxChars) := by
  apply (unrelated_rejectNul field value).bind
  intro _
  apply (unrelated_refuseIf (ne_notNormalized (by simp [toString]))).bind
  intro _
  exact unrelated_refuseIf (ne_notNormalized (by simp [toString]))

theorem unrelated_optionalText (field : String) (value : Option String) (maxChars : Nat) :
    Unrelated (optionalText field value maxChars) := by
  cases value with
  | none => exact unrelated_ok ()
  | some value =>
      apply (unrelated_rejectNul field value).bind
      intro _
      exact unrelated_refuseIf (ne_notNormalized (by simp [toString]))

theorem unrelated_requiredField (field : String) (value : PatchField α) :
    Unrelated (requiredField field value) := by
  cases value with
  | none => exact unrelated_ok none
  | some value =>
      cases value with
      | none => exact fun h => ne_notNormalized (by simp [toString]) (Except.error.inj h)
      | some value => exact unrelated_ok (some value)

theorem unrelated_storableDate (field : String) (value : NaiveDate) : Unrelated (storableDate field value) :=
  unrelated_refuseIf (ne_notNormalized (by simp [toString]))

theorem unrelated_checkTag (raw : String) : Unrelated (checkTag raw) := by
  apply (unrelated_rejectNul "tags" (cleanTag raw)).bind
  intro _
  apply (unrelated_refuseIf (by decide)).bind
  intro _
  apply (unrelated_refuseIf (ne_notNormalized (by simp [toString]))).bind
  intro _
  exact unrelated_ok (cleanTag raw)

theorem unrelated_normalizeTags (env : Env) : ∀ tags seen result : List String,
    Unrelated (normalizeTagsFrom env tags seen result)
  | [], _, result => unrelated_ok result
  | raw :: rest, seen, result => by
      apply (unrelated_checkTag raw).bind
      intro tag
      dsimp only
      split
      · exact unrelated_normalizeTags env rest seen result
      · split
        · exact fun h => ne_notNormalized (by simp [toString]) (Except.error.inj h)
        · exact unrelated_normalizeTags env rest _ _

theorem unrelated_validateTimezone (env : Env) (timezone : Option String) :
    Unrelated (TaskValues.validateTimezone env timezone) := by
  cases timezone with
  | none => exact unrelated_ok ()
  | some timezone =>
      apply (unrelated_requiredText "remind_timezone" timezone 64).bind
      intro _
      exact unrelated_refuseIf (by decide)

theorem unrelated_validateOccurrenceKey (key : Option String) :
    Unrelated (TaskValues.validateOccurrenceKey key) := by
  cases key with
  | none => exact unrelated_ok ()
  | some key => exact unrelated_requiredText "occurrence_key" key 64

theorem unrelated_validateRecurrence (recurrence : Option Json) :
    Unrelated (TaskValues.validateRecurrence recurrence) := by
  cases recurrence with
  | none => exact unrelated_ok ()
  | some recurrence =>
      apply (unrelated_refuseIf (by decide)).bind
      intro _
      apply (unrelated_refuseIf (by decide)).bind
      intro _
      exact unrelated_refuseIf (by decide)

theorem unrelated_validateDueOn (dueOn : Option NaiveDate) : Unrelated (TaskValues.validateDueOn dueOn) := by
  cases dueOn with
  | none => exact unrelated_ok ()
  | some dueOn => exact unrelated_storableDate "due_on" dueOn

theorem unrelated_storableTimestamp (field : String) (value : Option Instant) :
    Unrelated (storableTimestamp field value) := by
  cases value with
  | none => exact unrelated_ok ()
  | some value => exact unrelated_storableDate field value.dateNaive

end Unrelated

/-- Only the check of the tags refuses them as not normalized, and only when they are not. -/
theorem validate_notNormalized {env : Env} {values : TaskValues}
    (h : values.validate env = .error notNormalized) :
    normalizeTags env values.tags ≠ .ok values.tags := by
  intro hsame
  have htags : TaskValues.validateTags env values.tags = .ok () := by
    rw [TaskValues.validateTags, hsame]
    exact refuseIf_eq_ok_iff.mpr fun hne => hne rfl
  refine Unrelated.bind (unrelated_requiredText "title" values.title 1000) (fun _ => ?_) h
  refine Unrelated.bind (unrelated_optionalText "note" (some values.note) 100000) fun _ => ?_
  refine Unrelated.bind (unrelated_requiredText "rank" values.rank 128) fun _ => ?_
  refine Unrelated.bind (htags ▸ unrelated_ok ()) fun _ => ?_
  refine Unrelated.bind (unrelated_validateTimezone env values.remindTimezone) fun _ => ?_
  refine Unrelated.bind (unrelated_validateOccurrenceKey values.occurrenceKey) fun _ => ?_
  refine Unrelated.bind (unrelated_validateRecurrence values.recurrence) fun _ => ?_
  refine Unrelated.bind (unrelated_validateDueOn values.dueOn) fun _ => ?_
  refine Unrelated.bind (unrelated_storableTimestamp "remind_at" values.remindAt) fun _ => ?_
  exact unrelated_storableTimestamp "completed_at" values.completedAt

theorem Unrelated.of_bind {α β : Type} {first : Checked α} {rest : α → Checked β} (hfirst : Unrelated first)
    (h : (first >>= rest) = .error notNormalized) :
    ∃ value, first = .ok value ∧ rest value = .error notNormalized :=
  (bind_eq_error_iff.mp h).resolve_left hfirst

/-- A patch is refused so only when the tags that it leaves are not normalized. -/
theorem apply_notNormalized {env : Env} {patch : TaskPatch} {values : TaskValues}
    (h : patch.apply env values = .error notNormalized) :
    ∃ given tags, requiredField "tags" patch.tags = .ok given ∧
      TaskPatch.applyTags env values.tags given = .ok tags ∧ normalizeTags env tags ≠ .ok tags := by
  obtain ⟨title, -, h⟩ := (unrelated_requiredField "title" patch.title).of_bind h
  obtain ⟨note, -, h⟩ := (unrelated_requiredField "note" patch.note).of_bind h
  obtain ⟨status, -, h⟩ := (unrelated_requiredField "status" patch.status).of_bind h
  obtain ⟨important, -, h⟩ := (unrelated_requiredField "important" patch.important).of_bind h
  obtain ⟨given, hgiven, h⟩ := (unrelated_requiredField "tags" patch.tags).of_bind h
  have happly : Unrelated (TaskPatch.applyTags env values.tags given) := by
    cases given with
    | none => exact unrelated_ok values.tags
    | some tags => exact unrelated_normalizeTags env tags [] []
  obtain ⟨tags, htags, h⟩ := happly.of_bind h
  obtain ⟨rank, -, h⟩ := (unrelated_requiredField "rank" patch.rank).of_bind h
  refine ⟨given, tags, hgiven, htags, ?_⟩
  rcases bind_eq_error_iff.mp h with hvalidate | ⟨_, -, hdone⟩
  · exact validate_notNormalized hvalidate
  · cases hdone

/-! ### Stored tasks -/

/-- The tags of every stored task are normalized. -/
def StoredTags (env : Env) (entities : Entities) : Prop :=
  ∀ id row, entities.tasks.lookup id = some row → normalizeTags env row.values.tags = .ok row.values.tags

theorem tags_of_validate {env : Env} {values : TaskValues} (h : values.validate env = .ok ()) :
    normalizeTags env values.tags = .ok values.tags := by
  simp only [TaskValues.validate, TaskValues.validateTags, bind_eq_ok_iff, refuseIf_eq_ok_iff, not_not] at h
  obtain ⟨_, -, _, -, _, -, _, ⟨normalized, hnormalized, rfl⟩, -⟩ := h
  exact hnormalized

section Stored

variable {env : Env} {entities next : Entities} {userId : Uuid} {mutation : Mutation} {serverSeq : Int}
  {now : Instant} {logged : Json}

theorem StoredTags.apply (h : StoredTags env entities)
    (happly : applyMutation env entities userId mutation serverSeq now = .ok (logged, next)) :
    StoredTags env next := by
  rw [applyMutation] at happly
  cases hentity : mutation.entity with
  | list =>
      rw [hentity] at happly
      obtain ⟨row, -, rfl⟩ := EntitySpec.apply_eq_ok happly
      exact h
  | step =>
      rw [hentity] at happly
      obtain ⟨row, -, rfl⟩ := EntitySpec.apply_eq_ok happly
      exact h
  | dayPlan =>
      rw [hentity] at happly
      obtain ⟨row, -, rfl⟩ := EntitySpec.apply_eq_ok happly
      exact h
  | task =>
      rw [hentity] at happly
      obtain ⟨row, houtcome, rfl⟩ := EntitySpec.apply_eq_ok happly
      have hrow : normalizeTags env row.values.tags = .ok row.values.tags := by
        cases houtcome with
        | created values _ _ _ _ _ hvalid =>
            have htags := tags_of_validate hvalid
            exact htags
        | patched row values _ _ _ _ _ hvalid =>
            have htags := tags_of_validate hvalid
            exact htags
        | deleted row _ hrow => exact h mutation.entityId row hrow
        | restored row values _ _ _ _ _ hvalid =>
            have htags := tags_of_validate hvalid
            exact htags
      intro id found hfound
      change (entities.tasks.insert mutation.entityId row).lookup id = some found at hfound
      rw [Table.lookup_insert_eq_ite] at hfound
      split at hfound
      · cases hfound
        exact hrow
      · exact h id found hfound

theorem StoredTags.step {db : Db} (h : StoredTags env db.entities) (event : ServerEvent) :
    StoredTags env ((server env).step db event).entities := by
  cases event with
  | signUp other =>
      change StoredTags env (db.signUp other).entities
      unfold Db.signUp
      split <;> exact h
  | signIn auth =>
      change StoredTags env (db.signIn auth).entities
      unfold Db.signIn
      repeat' split
      all_goals exact h
  | revokeDevice auth now =>
      change StoredTags env (db.revokeDevice auth now).entities
      unfold Db.revokeDevice
      repeat' split
      all_goals exact h
  | cleanupReceipts cutoff chosen => exact h
  | pruneChangeLog cutoff batchSize =>
      obtain ⟨-, -, hentities, -⟩ := foldl_raiseMinAvailable
        ((db.pruneSelection cutoff batchSize).map ChangeRow.userId).dedup
        { db with changeLog :=
            db.changeLog.filter fun row => !(db.pruneSelection cutoff batchSize).contains row }
      change StoredTags env (db.pruneChangeLog cutoff batchSize).entities
      rw [Db.pruneChangeLog, hentities]
      exact h
  | request clock auth body =>
      change StoredTags env (serveSync env clock auth body db).2.entities
      cases hsync : sync env clock auth body db with
      | error error => simpa [serveSync, hsync] using h
      | ok answer =>
          obtain ⟨committed, hnext, -⟩ := sync_eq_ok hsync
          have hresult : (serveSync env clock auth body db).2 = committed.result := by
            rw [serveSync, hsync]
            exact hnext
          rw [hresult, committed.result_entities]
          exact processOps_invariant (fun state _ => StoredTags env state.db.entities)
            (fun state _ mutation next hstate houtcome => by
              cases houtcome with
              | known => exact hstate
              | old => exact hstate
              | rejected => exact hstate
              | applied patch entities _ happly => exact hstate.apply happly)
            body.ops committed.start committed.final [] committed.loop_eq_ok h

end Stored

theorem storedTags_run (env : Env) (events : List ServerEvent) :
    StoredTags env ((server env).run .empty events).entities :=
  (server env).invariant (fun db _ => StoredTags env db.entities) (fun _ _ event h => h.step event)
    (fun id row hrow => by cases hrow) events

/-- A stored task is not refused for its own tags. -/
theorem StoredTags.apply_ne {env : Env} {entities : Entities} (h : StoredTags env entities) {id : Uuid}
    {row : EntityRow TaskValues} (hrow : entities.tasks.lookup id = some row) {patch : TaskPatch}
    (hpatch : patch.tags = none) : patch.apply env row.values ≠ .error notNormalized := by
  intro hrefused
  obtain ⟨given, tags, hgiven, htags, hother⟩ := apply_notNormalized hrefused
  rw [hpatch] at hgiven
  cases hgiven
  cases htags
  exact hother (h id row hrow)

/-- Normalized tags are normalized again to themselves, and a patch is never refused for tags that it normalized itself, exactly for the lists without a tag that begins with two hashes; and a stored task takes patches of its other columns. -/
theorem tags_stable_iff {env : Env} (henv : env.LowercaseKeepsHash) :
    (∀ tags final, normalizeTags env tags = .ok final →
      ((normalizeTags env final = .ok final ∧
          ∀ (patch : TaskPatch) (values : TaskValues), patch.tags = some (some tags) →
            patch.apply env values ≠ .error notNormalized) ↔
        ∀ raw ∈ tags, ¬ DoubleHash raw)) ∧
      ∀ (events : List ServerEvent) (id : Uuid) (row : EntityRow TaskValues),
        ((server env).run .empty events).entities.tasks.lookup id = some row →
        ∀ patch : TaskPatch, patch.tags = none → patch.apply env row.values ≠ .error notNormalized := by
  constructor
  · intro tags final hfinal
    rw [← normalizeTags_stable_iff henv hfinal]
    refine ⟨And.left, fun hstable => ⟨hstable, fun patch values hpatch hrefused => ?_⟩⟩
    obtain ⟨given, left, hgiven, hleft, hother⟩ := apply_notNormalized hrefused
    rw [hpatch] at hgiven
    cases hgiven
    change normalizeTags env tags = .ok left at hleft
    rw [hfinal] at hleft
    cases hleft
    exact hother hstable
  · intro events id row hrow patch hpatch
    exact (storedTags_run env events).apply_ne hrow hpatch

theorem utc_lowercaseKeepsHash : Env.utc.LowercaseKeepsHash := by
  intro text
  change (String.ofList (text.toList.map Char.toLower)).toList.head? = some '#' ↔ _
  rw [String.toList_ofList, List.head?_map, Option.map_eq_some_iff]
  constructor
  · rintro ⟨c, hc, hlower⟩
    have hsame : c = '#' := by
      rcases toLower_cases c with ⟨hkept, -⟩ | ⟨hshifted, hletter, -⟩
      · rw [← hkept, hlower]
      · rw [hlower] at hshifted
        change 35 = c.toNat + 32 at hshifted
        omega
    rw [hc, hsame]
  · intro hhead
    exact ⟨'#', hhead, by decide⟩

theorem tags_stable_home : normalizeTags Env.utc ["home", "work"] = .ok ["home", "work"] :=
  (((tags_stable_iff utc_lowercaseKeepsHash).1 [" home", "#work", "Home"] ["home", "work"]
    (by decide)).mpr (by decide)).1

/-- A tag with two hashes keeps one, and the next cleaning takes it. -/
theorem tags_unstable : ¬ ∀ tags final, normalizeTags Env.utc tags = .ok final →
    normalizeTags Env.utc final = .ok final := by
  intro hclaim
  have hstable := hclaim ["##a"] ["#a"] (by decide)
  revert hstable
  decide

end ShishiTodo
