import Mathlib.Data.List.Infix

/-!
# Texts with markers

A text is cut at the first place of a marker. The blocks of a text are what stands between an opening marker and the first closing one after it. A delimiter that is in no marker keeps apart what stands before it from what stands after it.
-/

namespace Lib

variable {α : Type*} [DecidableEq α]

/-- What stands before the first place of the marker, and what stands after it. The marker is not empty. -/
def cutAt (marker : List α) : List α → Option (List α × List α)
  | [] => none
  | item :: rest =>
      if marker.isPrefixOf (item :: rest) then some ([], rest.drop (marker.length - 1))
      else (cutAt marker rest).map fun (before, after) => (item :: before, after)

/-- No end of the marker is a beginning of it. -/
def Unbordered (marker : List α) : Prop :=
  ∀ size < marker.length, 0 < size → marker.drop size ≠ marker.take (marker.length - size)

variable {marker opening closing text before after : List α} {delimiter : α}

omit [DecidableEq α] in
theorem drop_marker (hmarker : marker ≠ []) (item : α) (rest : List α) :
    rest.drop (marker.length - 1) = (item :: rest).drop marker.length := by
  obtain ⟨head, tail, rfl⟩ := List.exists_cons_of_ne_nil hmarker
  rfl

theorem cutAt_some (hmarker : marker ≠ []) (h : cutAt marker text = some (before, after)) :
    text = before ++ marker ++ after ∧ ∀ front back, before = front ++ back → back ≠ [] →
      ¬ marker <+: back ++ marker ++ after := by
  induction text generalizing before with
  | nil => cases h
  | cons item rest ih =>
      rw [cutAt] at h
      split at h
      · rename_i hbegins
        cases h
        obtain ⟨later, hlater⟩ := List.isPrefixOf_iff_prefix.mp hbegins
        refine ⟨?_, fun front back hempty hback => ?_⟩
        · rw [drop_marker hmarker item rest, ← hlater, List.drop_left, List.nil_append]
        · exact absurd (List.append_eq_nil_iff.mp hempty.symm).2 hback
      · rename_i hnot
        obtain ⟨⟨first, last⟩, hrest, hcut⟩ := Option.map_eq_some_iff.mp h
        cases hcut
        obtain ⟨rfl, hfirst⟩ := ih hrest
        refine ⟨rfl, fun front back hsplit hback hbegins => ?_⟩
        cases front with
        | nil =>
            rw [List.nil_append] at hsplit
            rw [← hsplit] at hbegins
            exact hnot (List.isPrefixOf_iff_prefix.mpr hbegins)
        | cons head tail =>
            rw [List.cons_append, List.cons.injEq] at hsplit
            exact hfirst tail back hsplit.2 hback hbegins

theorem inside_of_cutAt_isSome (hmarker : marker ≠ []) (h : (cutAt marker text).isSome) : marker <:+: text := by
  obtain ⟨⟨first, last⟩, hcut⟩ := Option.isSome_iff_exists.mp h
  exact ⟨first, last, (cutAt_some hmarker hcut).1.symm⟩

/-- The marker is found where it first begins. -/
theorem cutAt_of_first (hmarker : marker ≠ []) (hfirst : ∀ front back, before = front ++ back → back ≠ [] →
    ¬ marker <+: back ++ (marker ++ after)) :
    cutAt marker (before ++ (marker ++ after)) = some (before, after) := by
  induction before with
  | nil =>
      obtain ⟨head, tail, rfl⟩ := List.exists_cons_of_ne_nil hmarker
      have hbegins : (head :: tail).isPrefixOf (head :: (tail ++ after)) = true :=
        List.isPrefixOf_iff_prefix.mpr ⟨after, rfl⟩
      rw [List.nil_append, List.cons_append, cutAt, if_pos hbegins]
      exact congrArg (fun later => some (([] : List α), later)) List.drop_left
  | cons item rest ih =>
      have hnot : marker.isPrefixOf (item :: (rest ++ (marker ++ after))) = false := by
        rw [Bool.eq_false_iff]
        intro hbegins
        exact hfirst [] (item :: rest) rfl (List.cons_ne_nil _ _) (List.isPrefixOf_iff_prefix.mp hbegins)
      rw [List.cons_append, cutAt, hnot, if_neg Bool.false_ne_true,
        ih fun front back hsplit => hfirst (item :: front) back (by rw [hsplit, List.cons_append])]
      rfl

omit [DecidableEq α] in
omit [DecidableEq α] in
/-- A marker that is in a text has a first place in it. -/
theorem exists_first_place (hmarker : marker ≠ []) (h : marker <:+: text) :
    ∃ before after, text = before ++ (marker ++ after) ∧ ¬ marker <:+: before := by
  generalize hlength : text.length = length
  induction length using Nat.strongRecOn generalizing text with
  | ind length ih =>
      obtain ⟨front, back, rfl⟩ := h
      by_cases hearlier : marker <:+: front
      · have hshorter : front.length < length := by
          have := List.length_pos_iff.mpr hmarker
          rw [← hlength, List.length_append, List.length_append]
          omega
        obtain ⟨before, after, rfl, hfirst⟩ := ih front.length hshorter hearlier rfl
        exact ⟨before, after ++ (marker ++ back), by simp, hfirst⟩
      · exact ⟨front, back, List.append_assoc _ _ _, hearlier⟩

/-- A marker does not begin in a text that is free of it and runs on into the marker. -/
theorem not_begins_of_free (hunbordered : Unbordered marker) {back : List α} (hback : back ≠ [])
    (hfree : ¬ marker <:+: back) : ¬ marker <+: back ++ (marker ++ after) := by
  intro hbegins
  by_cases hlong : marker.length ≤ back.length
  · have hinside : marker <+: back :=
      List.prefix_of_prefix_length_le hbegins (List.prefix_append back _) hlong
    exact hfree hinside.isInfix
  · have hsize : 0 < back.length := List.length_pos_iff.mpr hback
    refine hunbordered back.length (by omega) hsize ?_
    obtain ⟨later, hlater⟩ := hbegins
    have hdropped := congrArg (List.drop back.length) hlater
    rw [List.drop_left, List.drop_append_of_le_length (by omega)] at hdropped
    have htaken := congrArg (List.take (marker.length - back.length)) hdropped
    rwa [List.take_left' (by rw [List.length_drop]), List.take_append_of_le_length (by omega)] at htaken

theorem cutAt_append (hmarker : marker ≠ []) (hunbordered : Unbordered marker) (hfree : ¬ marker <:+: before) :
    cutAt marker (before ++ (marker ++ after)) = some (before, after) := by
  refine cutAt_of_first hmarker fun front back hsplit hback => not_begins_of_free hunbordered hback ?_
  rintro hinside
  exact hfree (hinside.trans ⟨front, [], by rw [hsplit, List.append_nil]⟩)

theorem cutAt_eq_none (hmarker : marker ≠ []) (hfree : ¬ marker <:+: text) : cutAt marker text = none := by
  rw [Option.eq_none_iff_forall_ne_some]
  intro cut hcut
  exact hfree (inside_of_cutAt_isSome hmarker (by rw [hcut]; rfl))

/-! ### A delimiter that is in no marker -/

omit [DecidableEq α] in
theorem inside_append_delimiter_iff (hmarker : marker ≠ []) (hdelimiter : delimiter ∉ marker) :
    marker <:+: before ++ delimiter :: after ↔ marker <:+: before ∨ marker <:+: after := by
  constructor
  · rintro ⟨front, back, hplace⟩
    rw [List.append_assoc] at hplace
    rcases List.append_eq_append_iff.mp hplace with ⟨gap, hbefore, hrest⟩ | ⟨gap, hfront, hrest⟩
    · rcases List.append_eq_append_iff.mp hrest with ⟨more, hgap, hback⟩ | ⟨more, hmarkerEq, hback⟩
      · exact .inl ⟨front, more, by rw [hbefore, hgap, List.append_assoc]⟩
      · cases more with
        | nil => exact .inl ⟨front, [], by rw [hbefore, hmarkerEq]; simp⟩
        | cons head tail =>
            rw [List.cons_append, List.cons.injEq] at hback
            refine absurd ?_ hdelimiter
            rw [hmarkerEq, hback.1]
            exact List.mem_append_right _ List.mem_cons_self
    · cases gap with
      | nil =>
          cases marker with
          | nil => exact absurd rfl hmarker
          | cons head tail =>
              rw [List.nil_append, List.cons_append, List.cons.injEq] at hrest
              exact absurd (hrest.1 ▸ List.mem_cons_self) hdelimiter
      | cons head tail =>
          rw [List.cons_append, List.cons.injEq] at hrest
          exact .inr ⟨tail, back, by rw [hrest.2, List.append_assoc]⟩
  · rintro (hbefore | hafter)
    · exact hbefore.trans (List.prefix_append _ _).isInfix
    · exact hafter.trans ((List.suffix_cons _ _).trans (List.suffix_append _ _)).isInfix

omit [DecidableEq α] in
theorem not_begins_of_delimiter (hdelimiter : delimiter ∉ marker) (hfree : ¬ marker <:+: before) :
    ¬ marker <+: before ++ delimiter :: after := by
  intro hbegins
  by_cases hlong : marker.length ≤ before.length
  · have hinside : marker <+: before :=
      List.prefix_of_prefix_length_le hbegins (List.prefix_append before _) hlong
    exact hfree hinside.isInfix
  · have hreaches : before ++ [delimiter] <+: marker := by
      refine List.prefix_of_prefix_length_le ⟨after, by simp⟩ hbegins ?_
      rw [List.length_append, List.length_singleton]
      omega
    exact hdelimiter (hreaches.subset (by simp))

/-- A text that is free of the marker is passed over. -/
theorem cutAt_append_delimiter (hmarker : marker ≠ []) (hdelimiter : delimiter ∉ marker)
    (hfree : ¬ marker <:+: before) :
    cutAt marker (before ++ delimiter :: after) =
      (cutAt marker after).map fun cut => (before ++ delimiter :: cut.1, cut.2) := by
  induction before with
  | nil =>
      have hnot : marker.isPrefixOf (delimiter :: after) = false := by
        rw [Bool.eq_false_iff]
        intro hbegins
        obtain ⟨head, tail, rfl⟩ := List.exists_cons_of_ne_nil hmarker
        obtain ⟨later, hlater⟩ := List.isPrefixOf_iff_prefix.mp hbegins
        rw [List.cons_append, List.cons.injEq] at hlater
        exact hdelimiter (hlater.1 ▸ List.mem_cons_self)
      rw [List.nil_append, cutAt, hnot, if_neg Bool.false_ne_true]
      rfl
  | cons item rest ih =>
      have hnot : marker.isPrefixOf (item :: (rest ++ delimiter :: after)) = false := by
        rw [Bool.eq_false_iff]
        intro hbegins
        exact not_begins_of_delimiter hdelimiter hfree (List.isPrefixOf_iff_prefix.mp hbegins)
      have hrest : ¬ marker <:+: rest := fun hinside => hfree (hinside.trans (List.suffix_cons _ _).isInfix)
      rw [List.cons_append, cutAt, hnot, if_neg Bool.false_ne_true, ih hrest, Option.map_map]
      rfl

omit [DecidableEq α] in
/-- After a marker the last delimiter is still to come. -/
theorem delimited_rest (hmarker : marker ≠ []) (hdelimiter : delimiter ∉ marker)
    (h : [delimiter] <:+ before ++ (marker ++ after)) : [delimiter] <:+ after := by
  by_cases hafter : after = []
  · subst hafter
    rw [List.append_nil] at h
    have hinside : [delimiter] <:+ marker :=
      List.suffix_of_suffix_length_le h (List.suffix_append _ _) (List.length_pos_iff.mpr hmarker)
    exact absurd (hinside.subset List.mem_cons_self) hdelimiter
  · rw [← List.append_assoc] at h
    exact List.suffix_of_suffix_length_le h (List.suffix_append _ _) (List.length_pos_iff.mpr hafter)

/-! ### Blocks -/

theorem length_after_lt (h : cutAt marker text = some (before, after)) : after.length < text.length := by
  induction text generalizing before with
  | nil => cases h
  | cons item rest ih =>
      rw [cutAt] at h
      split at h
      · cases h
        rw [List.length_drop, List.length_cons]
        omega
      · obtain ⟨⟨first, last⟩, hrest, hcut⟩ := Option.map_eq_some_iff.mp h
        cases hcut
        have := ih hrest
        rw [List.length_cons]
        omega

/-- What stands from an opening marker to the first closing one after it, again and again. -/
def blocks (opening closing text : List α) : List (List α) :=
  match hopen : cutAt opening text with
  | none => []
  | some (_, opened) =>
      match hclose : cutAt closing opened with
      | none => []
      | some (inner, after) => (opening ++ inner ++ closing) :: blocks opening closing after
termination_by text.length
decreasing_by
  have hfirst := length_after_lt hopen
  have hsecond := length_after_lt hclose
  omega

theorem blocks_of_none (h : cutAt opening text = none) : blocks opening closing text = [] := by
  rw [blocks]
  split
  · rfl
  · rename_i hopen
    rw [h] at hopen
    cases hopen

theorem blocks_of_open {opened : List α} (h : cutAt opening text = some (before, opened)) :
    blocks opening closing text = match cutAt closing opened with
      | none => []
      | some (inner, after) => (opening ++ inner ++ closing) :: blocks opening closing after := by
  rw [blocks]
  split
  · rename_i hopen
    rw [h] at hopen
    cases hopen
  · rename_i hopen
    rw [h] at hopen
    cases hopen
    split
    · rename_i hclose
      rw [hclose]
    · rename_i hclose
      rw [hclose]

/-- Markers that cannot be mistaken for one another. -/
structure Bracketing (opening closing : List α) : Prop where
  opens : opening ≠ []
  closes : closing ≠ []
  opensOnce : Unbordered opening
  closesOnce : Unbordered closing
  apart : ¬ opening <:+: closing

namespace Bracketing

variable {inner tail : List α}

/-- Nothing opens in a text without the marker. -/
theorem blocks_skip (h : Bracketing opening closing) (hdelimiter : delimiter ∉ opening)
    (hfree : ¬ opening <:+: before) :
    blocks opening closing (before ++ delimiter :: tail) = blocks opening closing tail := by
  have hcut := @cutAt_append_delimiter _ _ opening before tail _ h.opens hdelimiter hfree
  cases hopen : cutAt opening tail with
  | none =>
      rw [hopen] at hcut
      rw [blocks_of_none hcut, blocks_of_none hopen]
  | some cut =>
      obtain ⟨first, opened⟩ := cut
      rw [hopen] at hcut
      rw [blocks_of_open hcut, blocks_of_open hopen]

theorem blocks_delimiter (h : Bracketing opening closing) (hdelimiter : delimiter ∉ opening) :
    blocks opening closing (delimiter :: tail) = blocks opening closing tail :=
  @blocks_skip _ _ opening closing [] _ tail h hdelimiter fun hinside => h.opens (List.infix_nil.mp hinside)

/-- The first block of a text that opens one. -/
theorem blocks_first (h : Bracketing opening closing) (hbefore : ¬ opening <:+: before)
    (hinner : ¬ closing <:+: inner) :
    blocks opening closing (before ++ (opening ++ (inner ++ (closing ++ tail)))) =
      (opening ++ inner ++ closing) :: blocks opening closing tail := by
  rw [blocks_of_open (cutAt_append h.opens h.opensOnce hbefore),
    cutAt_append h.closes h.closesOnce hinner]

/-- A text free of opening markers stays so with a closing one after its last delimiter. -/
theorem free_closing (h : Bracketing opening closing) (hdelimiter : delimiter ∉ opening)
    (hdelimited : before = [] ∨ [delimiter] <:+ before) (hfree : ¬ opening <:+: before) :
    ¬ opening <:+: before ++ closing := by
  rcases hdelimited with rfl | ⟨front, rfl⟩
  · exact h.apart
  · rw [List.append_assoc, List.singleton_append, inside_append_delimiter_iff h.opens hdelimiter]
    rintro (hinside | hinside)
    · exact hfree (hinside.trans (List.prefix_append _ _).isInfix)
    · exact h.apart hinside

/-- What is left of a text that ends with a closing marker holds whole blocks only, so that the text after it is read as if it stood alone. -/
theorem blocks_rest {next : α} (h : Bracketing opening closing) (hopening : delimiter ∉ opening)
    (hclosing : delimiter ∉ closing) (hnext : next ∉ opening)
    (hdelimited : before = [] ∨ [delimiter] <:+ before) :
    ∃ found, blocks opening closing (before ++ (closing ++ next :: tail)) =
        found ++ blocks opening closing tail ∧
      ∀ block ∈ found, opening <+: block ∧ block <:+: before ++ closing := by
  generalize hlength : before.length = length
  induction length using Nat.strongRecOn generalizing before with
  | ind length ih =>
      by_cases hopen : opening <:+: before
      · obtain ⟨front, opened, rfl, hfront⟩ := exists_first_place h.opens hopen
        have hopened := delimited_rest h.opens hopening (hdelimited.resolve_left (by simp [h.opens]))
        by_cases hclose : closing <:+: opened
        · obtain ⟨inner, rest, rfl, hinner⟩ := exists_first_place h.closes hclose
          have hrest := delimited_rest h.closes hclosing hopened
          have hshorter : rest.length < length := by
            have := List.length_pos_iff.mpr h.closes
            simp only [List.length_append] at hlength
            omega
          obtain ⟨found, hblocks, hfound⟩ := ih rest.length hshorter (Or.inr hrest) rfl
          refine ⟨(opening ++ inner ++ closing) :: found, ?_, fun block hblock => ?_⟩
          · simp only [List.append_assoc]
            rw [h.blocks_first hfront hinner, hblocks, List.append_assoc, List.cons_append]
          · rcases List.mem_cons.mp hblock with rfl | hlater
            · exact ⟨⟨inner ++ closing, by simp⟩, ⟨front, rest ++ closing, by simp⟩⟩
            · obtain ⟨hbegins, hinside⟩ := hfound block hlater
              exact ⟨hbegins, hinside.trans ⟨front ++ (opening ++ (inner ++ closing)), [], by simp⟩⟩
        · refine ⟨[opening ++ opened ++ closing], ?_, fun block hblock => ?_⟩
          · simp only [List.append_assoc]
            rw [h.blocks_first hfront hclose, h.blocks_delimiter hnext]
            simp
          · obtain rfl := List.mem_singleton.mp hblock
            exact ⟨⟨opened ++ closing, by simp⟩, ⟨front, [], by simp⟩⟩
      · refine ⟨[], ?_, by simp⟩
        rw [← List.append_assoc, h.blocks_skip hnext (h.free_closing hopening hdelimited hopen), List.nil_append]

end Bracketing

end Lib
