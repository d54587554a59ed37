import ShishiTodo.Export.ICalendar

/-!
# Folding and escaping

Unfolding undoes folding, for lines without line feeds. Undoing the escapes of a text gives the text back, but for a letter `n` that stands after a backslash: it is read as a line break.
-/

namespace ShishiTodo.Export

open Lib Tasks

/-! ### Folded lines -/

/-- Lines, each with its line break. -/
def ended (lines : List JsText) : JsText := lines.flatMap (· ++ lineBreak)

theorem joinTexts_append_glue {glue : JsText} {pieces : List JsText} (hsome : pieces ≠ []) :
    joinTexts glue pieces ++ glue = pieces.flatMap (· ++ glue) := by
  induction pieces with
  | nil => exact absurd rfl hsome
  | cons piece rest ih =>
      cases rest with
      | nil => simp [joinTexts, List.intercalate]
      | cons next rest =>
          have hrest := ih (List.cons_ne_nil _ _)
          rw [List.flatMap_cons, ← hrest]
          simp [joinTexts, List.intercalate]

theorem joinTexts_cons_cons (glue piece next : JsText) (rest : List JsText) :
    joinTexts glue (piece :: next :: rest) = piece ++ (glue ++ joinTexts glue (next :: rest)) := by
  simp [joinTexts, List.intercalate]

theorem unfoldLines_break {tail : JsText} {unit : Nat} (hblank : isBlankUnit unit = false) :
    unfoldLines (0x0D :: 0x0A :: unit :: tail) = 0x0D :: 0x0A :: unfoldLines (unit :: tail) := by
  simp [unfoldLines, hblank]

theorem unfoldLines_break_nil : unfoldLines lineBreak = lineBreak := by
  decide

theorem unfoldLines_fold (tail : JsText) : unfoldLines (0x0D :: 0x0A :: 0x20 :: tail) = unfoldLines tail := by
  simp [unfoldLines, isBlankUnit]

/-- Nothing is taken from a text before its first line feed. -/
theorem unfoldLines_append {line : JsText} (hline : 0x0A ∉ line) (tail : JsText) :
    unfoldLines (line ++ 0x0D :: 0x0A :: tail) = line ++ unfoldLines (0x0D :: 0x0A :: tail) := by
  induction line with
  | nil => rfl
  | cons unit rest ih =>
      rw [List.mem_cons, not_or] at hline
      have hstep : ∀ next later, next ≠ 0x0A ∨ next = 0x0D → unfoldLines (unit :: next :: later) =
          unit :: unfoldLines (next :: later) := by
        intro next later hnext
        have hother : next ≠ 0x0A := by
          rcases hnext with hnext | rfl
          · exact hnext
          · decide
        rw [unfoldLines, if_neg (fun h => hline.1 h.1.symm), if_neg (fun h => hother h.2.1)]
      cases rest with
      | nil => exact hstep _ _ (Or.inr rfl)
      | cons next rest =>
          rw [List.mem_cons, not_or] at hline
          rw [List.cons_append, List.cons_append, hstep _ _ (Or.inl (Ne.symm hline.2.1)), ← List.cons_append, ih]
          · rfl
          · rw [List.mem_cons, not_or]
            exact hline.2

theorem unfoldLines_cons {unit : Nat} (hfeed : unit ≠ 0x0A) (hreturn : unit ≠ 0x0D) (text : JsText) :
    unfoldLines (unit :: text) = unit :: unfoldLines text := by
  cases text with
  | nil => rfl
  | cons next rest => rw [unfoldLines, if_neg (fun h => hfeed h.1), if_neg (fun h => hreturn h.1)]

theorem foldIcsLine_short {line : JsText} (h : line.length ≤ 75) : foldIcsLine line = line := by
  rw [foldIcsLine, foldChunks, if_neg (by omega)]
  simp [joinTexts, List.intercalate]

theorem foldChunks_ne_nil (line : JsText) : foldChunks line ≠ [] := by
  rw [foldChunks]
  split <;> exact List.cons_ne_nil _ _

theorem foldIcsLine_long {line : JsText} (h : 75 < line.length) :
    foldIcsLine line = line.take 75 ++ (lineBreak ++ foldIcsLine (0x20 :: line.drop 75)) := by
  obtain ⟨chunk, chunks, hchunks⟩ := List.exists_cons_of_ne_nil (foldChunks_ne_nil (0x20 :: line.drop 75))
  rw [foldIcsLine, foldChunks, if_pos h, foldIcsLine, hchunks, joinTexts_cons_cons]

theorem foldIcsLine_cons (unit : Nat) (rest : JsText) : ∃ more, foldIcsLine (unit :: rest) = unit :: more := by
  by_cases h : (unit :: rest).length ≤ 75
  · exact ⟨rest, foldIcsLine_short h⟩
  · rw [foldIcsLine_long (Nat.lt_of_not_le h)]
    exact ⟨_, rfl⟩

theorem unfoldLines_foldIcsLine {line : JsText} (hline : 0x0A ∉ line) (tail : JsText) :
    unfoldLines (foldIcsLine line ++ 0x0D :: 0x0A :: tail) = line ++ unfoldLines (0x0D :: 0x0A :: tail) := by
  generalize hlength : line.length = length
  induction length using Nat.strongRecOn generalizing line with
  | ind length ih =>
      by_cases hshort : line.length ≤ 75
      · rw [foldIcsLine_short hshort, unfoldLines_append hline]
      · have hlong : 75 < line.length := Nat.lt_of_not_le hshort
        have hrest : 0x0A ∉ (0x20 :: line.drop 75 : JsText) := by
          rw [List.mem_cons, not_or]
          exact ⟨by decide, fun h => hline (List.mem_of_mem_drop h)⟩
        have hshorter : (0x20 :: line.drop 75 : JsText).length < length := by
          rw [List.length_cons, List.length_drop]
          omega
        have hlater := ih _ hshorter hrest rfl
        obtain ⟨more, hmore⟩ := foldIcsLine_cons 0x20 (line.drop 75)
        have hfolded : unfoldLines (more ++ 0x0D :: 0x0A :: tail) =
            line.drop 75 ++ unfoldLines (0x0D :: 0x0A :: tail) := by
          rw [hmore, List.cons_append, unfoldLines_cons (by decide) (by decide)] at hlater
          exact (List.cons.inj hlater).2
        rw [foldIcsLine_long hlong, hmore, List.append_assoc, List.append_assoc]
        show unfoldLines (line.take 75 ++ 0x0D :: 0x0A :: 0x20 :: (more ++ 0x0D :: 0x0A :: tail)) = _
        rw [unfoldLines_append (fun h => hline (List.mem_of_mem_take h)), unfoldLines_fold, hfolded,
          ← List.append_assoc, List.take_append_drop]

/-- A line of the file: it holds no line feed, and it begins with a letter. -/
structure PlainLine (line : JsText) : Prop where
  oneLine : 0x0A ∉ line
  begins : ∃ unit rest, line = unit :: rest ∧ isBlankUnit unit = false

theorem ended_cons (line : JsText) (lines : List JsText) :
    ended (line :: lines) = line ++ 0x0D :: 0x0A :: ended lines := by
  simp [ended, lineBreak]

/-- Unfolding undoes folding. -/
theorem unfoldLines_folded {lines : List JsText} (hplain : ∀ line ∈ lines, PlainLine line) :
    unfoldLines (ended (lines.map foldIcsLine)) = ended lines := by
  induction lines with
  | nil => rfl
  | cons line rest ih =>
      have hline := hplain line List.mem_cons_self
      rw [List.map_cons, ended_cons, ended_cons, unfoldLines_foldIcsLine hline.oneLine]
      have hrest := ih fun later hlater => hplain later (List.mem_cons_of_mem _ hlater)
      cases rest with
      | nil => exact congrArg (line ++ ·) unfoldLines_break_nil
      | cons next rest =>
          obtain ⟨unit, more, rfl, hblank⟩ := (hplain next (by simp)).begins
          obtain ⟨folded, hfolded⟩ := foldIcsLine_cons unit more
          rw [List.map_cons, ended_cons, hfolded, List.cons_append] at hrest ⊢
          rw [unfoldLines_break hblank, hrest]

/-! ### Escapes -/

/-- What a unit becomes. -/
def escapeUnit (unit : Nat) : JsText :=
  if unit = 0x0A then [0x5C, 0x6E]
  else if unit = 0x5C ∨ unit = 0x2C ∨ unit = 0x3B then [0x5C, unit]
  else [unit]

/-- A text as it is while the escapes are undone: after a backslash the letter `n` has become a line break. -/
def rereadWith (escape : Nat → JsText) : JsText → JsText
  | [] => []
  | [unit] => escape unit
  | first :: second :: rest =>
    if first = 0x5C ∧ (second = 0x6E ∨ second = 0x4E) then 0x5C :: 0x0A :: rereadWith escape rest
    else escape first ++ rereadWith escape (second :: rest)

/-- The text that is read. -/
def reread : JsText → JsText := rereadWith fun unit => [unit]

theorem replaceBreaks_eq (mark : JsText) (value : JsText) :
    replaceBreaks mark value = (withoutReturns value).flatMap fun unit => if unit = 0x0A then mark else [unit] := by
  induction value with
  | nil => rfl
  | cons unit rest ih =>
      rw [replaceBreaks, withoutReturns]
      by_cases hfeed : unit = 0x0A
      · subst hfeed
        rw [if_pos rfl, if_neg (fun h => absurd h.1 (by decide)), ih]
        rfl
      · rw [if_neg hfeed]
        split
        · exact ih
        · rw [ih, List.flatMap_cons, if_neg hfeed]
          rfl

theorem head?_guarded_eq_feed (value : JsText) :
    (guarded 0x5C value).head? = some 0x0A ↔ value.head? = some 0x0A := by
  cases value with
  | nil => rfl
  | cons first rest =>
      by_cases h : first = 0x5C
      · subst h
        simp [guarded]
      · simp [guarded, h]

theorem withoutReturns_guarded (value : JsText) :
    withoutReturns (guarded 0x5C value) = guarded 0x5C (withoutReturns value) := by
  induction value with
  | nil => rfl
  | cons unit rest ih =>
      have hcons : ∀ later, guarded 0x5C (unit :: later) =
          (if unit = 0x5C then [0x5C, 0x5C] else [unit]) ++ guarded 0x5C later := fun later => rfl
      by_cases hback : unit = 0x5C
      · subst hback
        rw [hcons, if_pos rfl, withoutReturns, if_neg (fun h => absurd h.1 (by decide))]
        show withoutReturns (0x5C :: 0x5C :: guarded 0x5C rest) = _
        rw [withoutReturns, if_neg (fun h => absurd h.1 (by decide)), withoutReturns,
          if_neg (fun h => absurd h.1 (by decide)), ih]
        rfl
      · have hdropped : (unit = 0x0D ∧ (guarded 0x5C rest).head? = some 0x0A) ↔
            unit = 0x0D ∧ rest.head? = some 0x0A :=
          and_congr_right fun _ => head?_guarded_eq_feed rest
        rw [hcons, if_neg hback, List.singleton_append, withoutReturns, withoutReturns]
        by_cases h : unit = 0x0D ∧ rest.head? = some 0x0A
        · rw [if_pos h, if_pos (hdropped.mpr h), ih]
        · rw [if_neg h, if_neg (fun hguarded => h (hdropped.mp hguarded)), hcons, if_neg hback, ih]
          rfl

theorem escapeText_eq (value : JsText) : escapeText value = (withoutReturns value).flatMap escapeUnit := by
  rw [escapeText, replaceBreaks_eq, withoutReturns_guarded]
  simp only [guarded, List.flatMap_assoc]
  congr 1
  funext unit
  by_cases hfeed : unit = 0x0A
  · subst hfeed; decide
  · by_cases hback : unit = 0x5C
    · subst hback; decide
    · by_cases hcomma : unit = 0x2C
      · subst hcomma; decide
      · by_cases hsemi : unit = 0x3B
        · subst hsemi; decide
        · simp [escapeUnit, hfeed, hback, hcomma, hsemi]

section

variable {test : Nat → Bool} {mark : Nat}

theorem replacePairs_cons {unit : Nat} (hunit : unit ≠ 0x5C) (text : JsText) :
    replacePairs test mark (unit :: text) = unit :: replacePairs test mark text := by
  cases text with
  | nil => rfl
  | cons next rest => rw [replacePairs, if_neg (fun h => hunit h.1)]

theorem replacePairs_backslash {text : JsText} (hhead : ∀ next, text.head? = some next → test next = false) :
    replacePairs test mark (0x5C :: text) = 0x5C :: replacePairs test mark text := by
  cases text with
  | nil => rfl
  | cons next rest => rw [replacePairs, if_neg (fun h => absurd h.2 (by simp [hhead next rfl]))]

theorem replacePairs_pair {unit : Nat} (hunit : test unit = true) (text : JsText) :
    replacePairs test mark (0x5C :: unit :: text) = mark :: replacePairs test mark text := by
  rw [replacePairs, if_pos ⟨rfl, hunit⟩]

/-- The head of a text that is being reread. -/
theorem rereadWith_head {escape : Nat → JsText} (good : Nat → Prop) (hback : good 0x5C)
    (hsome : ∀ unit, escape unit ≠ []) (hhead : ∀ unit next, (escape unit).head? = some next → good next)
    (value : JsText) (next : Nat) (h : (rereadWith escape value).head? = some next) : good next := by
  match value with
  | [] => cases h
  | [unit] => exact hhead unit next h
  | first :: second :: rest =>
      rw [rereadWith] at h
      split at h
      · cases h
        exact hback
      · rw [List.head?_append_of_ne_nil _ (hsome first)] at h
        exact hhead first next h

/-- One kind of escapes is undone. -/
theorem replacePairs_rereadWith {escape after : Nat → JsText} (good : Nat → Prop) (hback : good 0x5C)
    (hsome : ∀ unit, escape unit ≠ []) (hhead : ∀ unit next, (escape unit).head? = some next → good next)
    (hfeed : test 0x0A = false)
    (hunit : ∀ unit text, (∀ next, text.head? = some next → good next) →
      replacePairs test mark (escape unit ++ text) = after unit ++ replacePairs test mark text)
    (value : JsText) : replacePairs test mark (rereadWith escape value) = rereadWith after value := by
  fun_induction rereadWith after value with
  | case1 => rfl
  | case2 unit =>
      have hlast := hunit unit [] nofun
      rwa [List.append_nil, replacePairs, List.append_nil] at hlast
  | case3 first second rest hpair ih =>
      rw [rereadWith, if_pos hpair, replacePairs_backslash (fun next h => by cases h; exact hfeed),
        replacePairs_cons (by decide), ih]
  | case4 first second rest hpair ih =>
      rw [rereadWith, if_neg hpair, hunit first _ (rereadWith_head good hback hsome hhead _), ih]

end

/-- What is left of the escapes when those of the units that pass the test are undone. -/
def escapeOnly (kept : Nat → Bool) (unit : Nat) : JsText := if kept unit then [0x5C, unit] else [unit]

theorem escapeOnly_ne_nil (kept : Nat → Bool) (unit : Nat) : escapeOnly kept unit ≠ [] := by
  unfold escapeOnly
  split <;> exact List.cons_ne_nil _ _

def isSpecial (unit : Nat) : Bool := unit == 0x5C || unit == 0x2C || unit == 0x3B

theorem escapeUnit_of_special {unit : Nat} (h : isSpecial unit = true) : escapeUnit unit = [0x5C, unit] := by
  simp only [isSpecial, Bool.or_eq_true, beq_iff_eq] at h
  rcases h with (rfl | rfl) | rfl <;> rfl

theorem escapeUnit_of_plain {unit : Nat} (hfeed : unit ≠ 0x0A) (h : isSpecial unit = false) :
    escapeUnit unit = [unit] := by
  simp only [isSpecial, Bool.or_eq_false_iff, beq_eq_false_iff_ne] at h
  rw [escapeUnit, if_neg hfeed, if_neg (by simp [h])]

theorem not_isLetterN_of_special {unit : Nat} (h : isSpecial unit = true) : isLetterN unit = false := by
  simp only [isSpecial, Bool.or_eq_true, beq_iff_eq] at h
  rcases h with (rfl | rfl) | rfl <;> rfl

theorem replacePairs_breaks_unit (unit : Nat) {text : JsText}
    (hhead : unit = 0x5C → ∀ next, text.head? = some next → isLetterN next = false) :
    replacePairs isLetterN 0x0A (escapeUnit unit ++ text) =
      escapeOnly isSpecial unit ++ replacePairs isLetterN 0x0A text := by
  by_cases hfeed : unit = 0x0A
  · subst hfeed
    exact replacePairs_pair rfl text
  · cases hspecial : isSpecial unit with
    | false =>
        have hback : unit ≠ 0x5C := fun h => absurd hspecial (by rw [h]; decide)
        rw [escapeUnit_of_plain hfeed hspecial, List.singleton_append, replacePairs_cons hback]
        simp [escapeOnly, hspecial]
    | true =>
        have hlater : replacePairs isLetterN 0x0A (unit :: text) = unit :: replacePairs isLetterN 0x0A text := by
          by_cases hback : unit = 0x5C
          · subst hback
            exact replacePairs_backslash (hhead rfl)
          · exact replacePairs_cons hback text
        rw [escapeUnit_of_special hspecial, List.cons_append, List.singleton_append,
          replacePairs_backslash (fun next h => by cases h; exact not_isLetterN_of_special hspecial), hlater]
        simp [escapeOnly, hspecial]

theorem head?_escaped {unit next : Nat} {rest : JsText}
    (h : (List.flatMap escapeUnit (unit :: rest)).head? = some next) : next = 0x5C ∨ next = unit := by
  rw [List.flatMap_cons] at h
  by_cases hfeed : unit = 0x0A
  · subst hfeed
    cases h
    exact Or.inl rfl
  · cases hspecial : isSpecial unit with
    | false =>
        rw [escapeUnit_of_plain hfeed hspecial] at h
        cases h
        exact Or.inr rfl
    | true =>
        rw [escapeUnit_of_special hspecial] at h
        cases h
        exact Or.inl rfl

/-- The line breaks come first; a letter `n` after a backslash is taken for one. -/
theorem replacePairs_breaks (value : JsText) :
    replacePairs isLetterN 0x0A (value.flatMap escapeUnit) = rereadWith (escapeOnly isSpecial) value := by
  fun_induction rereadWith (escapeOnly isSpecial) value with
  | case1 => rfl
  | case2 unit =>
      have hlast := replacePairs_breaks_unit unit (fun _ => (nofun : ∀ next, ([] : JsText).head? = some next → _))
      simpa [replacePairs] using hlast
  | case3 first second rest hpair ih =>
      obtain ⟨rfl, hletter⟩ := hpair
      have hplain : escapeUnit second = [second] := by
        rcases hletter with rfl | rfl <;> rfl
      have htest : isLetterN second = true := by
        rcases hletter with rfl | rfl <;> rfl
      rw [List.flatMap_cons, List.flatMap_cons, hplain]
      show replacePairs isLetterN 0x0A (0x5C :: 0x5C :: second :: rest.flatMap escapeUnit) = _
      rw [replacePairs_backslash (fun next h => by cases h; rfl), replacePairs_pair htest, ih]
  | case4 first second rest hpair ih =>
      rw [List.flatMap_cons, replacePairs_breaks_unit first, ih]
      rintro rfl next hnext
      rcases head?_escaped hnext with rfl | rfl
      · rfl
      · rw [not_and, not_or] at hpair
        simp [isLetterN, hpair rfl]

/-- The escapes of one unit are undone, which is not the backslash. -/
theorem replacePairs_kind (kept : Nat → Bool) (unit : Nat) (hback : kept 0x5C = true) (hunit : kept unit = true)
    (hother : unit ≠ 0x5C) (hfeed : unit ≠ 0x0A) (value : JsText) :
    replacePairs (· == unit) unit (rereadWith (escapeOnly kept) value) =
      rereadWith (escapeOnly fun other => kept other && other != unit) value := by
  refine replacePairs_rereadWith (· ≠ unit) (Ne.symm hother) (escapeOnly_ne_nil kept) ?_
    (beq_false_of_ne (Ne.symm hfeed) : (0x0A == unit) = false) ?_ value
  · rintro other next hnext
    unfold escapeOnly at hnext
    split at hnext
    · cases hnext
      exact Ne.symm hother
    · cases hnext
      rintro rfl
      contradiction
  · rintro other text hhead
    have hfree : ∀ next, text.head? = some next → (next == unit) = false :=
      fun next hnext => beq_false_of_ne (hhead next hnext)
    by_cases hsame : other = unit
    · subst hsame
      simp [escapeOnly, hunit, replacePairs_pair]
    · cases hkept : kept other with
      | false =>
          have hplain : other ≠ 0x5C := fun h => absurd hkept (by rw [h, hback]; decide)
          simp [escapeOnly, hkept, replacePairs_cons hplain]
      | true =>
          have hlater : replacePairs (· == unit) unit (other :: text) =
              other :: replacePairs (· == unit) unit text := by
            by_cases hbackslash : other = 0x5C
            · subst hbackslash
              exact replacePairs_backslash hfree
            · exact replacePairs_cons hbackslash text
          have hfirst : replacePairs (· == unit) unit (0x5C :: other :: text) =
              0x5C :: replacePairs (· == unit) unit (other :: text) :=
            replacePairs_backslash (fun next h => by cases h; exact beq_false_of_ne hsame)
          simp [escapeOnly, hkept, hsame, hfirst, hlater]

/-- The escapes of the backslash come last. -/
theorem replacePairs_backslashes (value : JsText) :
    replacePairs (· == 0x5C) 0x5C (rereadWith (escapeOnly (· == 0x5C)) value) = reread value := by
  refine replacePairs_rereadWith (fun _ => True) trivial (escapeOnly_ne_nil _) (fun _ _ _ => trivial) rfl ?_ value
  intro unit text _
  by_cases hback : unit = 0x5C
  · subst hback
    exact replacePairs_pair rfl text
  · simp [escapeOnly, hback, replacePairs_cons]

theorem unescapeText_escaped (value : JsText) : unescapeText (value.flatMap escapeUnit) = reread value := by
  have hsemicolons : (fun unit => (isSpecial unit && unit != 0x2C) && unit != 0x3B) = (· == 0x5C) := by
    funext unit
    by_cases hback : unit = 0x5C
    · subst hback; rfl
    · by_cases hcomma : unit = 0x2C
      · subst hcomma; rfl
      · by_cases hsemi : unit = 0x3B
        · subst hsemi; rfl
        · simp [isSpecial, beq_false_of_ne hback, beq_false_of_ne hcomma, beq_false_of_ne hsemi]
  rw [unescapeText, replacePairs_breaks, replacePairs_kind _ 0x2C rfl rfl (by decide) (by decide),
    replacePairs_kind _ 0x3B rfl rfl (by decide) (by decide), hsemicolons, replacePairs_backslashes]

/-! ### What is read -/

theorem length_reread (value : JsText) : (reread value).length = value.length := by
  unfold reread
  fun_induction rereadWith (fun unit => [unit]) value with
  | case1 => rfl
  | case2 => rfl
  | case3 first second rest hpair ih => simp [ih]
  | case4 first second rest hpair ih => simp [ih]

/-- No letter `n` stands right after a backslash. -/
def NoBreakSpelled (value : JsText) : Prop :=
  value.IsChain fun first second => first = 0x5C → isLetterN second = false

instance (value : JsText) : Decidable (NoBreakSpelled value) :=
  inferInstanceAs (Decidable (value.IsChain _))

/-- A text is read as it is exactly when it spells no line break. -/
theorem reread_eq_iff (value : JsText) : reread value = value ↔ NoBreakSpelled value := by
  unfold reread NoBreakSpelled
  fun_induction rereadWith (fun unit => [unit]) value with
  | case1 => simp
  | case2 unit => simp
  | case3 first second rest hpair ih =>
      obtain ⟨rfl, rfl | rfl⟩ := hpair <;> simp [isLetterN]
  | case4 first second rest hpair ih =>
      have hletter : (first = 0x5C → isLetterN second = false) ↔ True := by
        refine iff_true_intro fun hback => ?_
        simpa [isLetterN] using (not_and.mp hpair) hback
      rw [List.isChain_cons_cons, hletter, true_and, ← ih]
      simp

end ShishiTodo.Export
