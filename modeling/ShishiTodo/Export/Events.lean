import ShishiTodo.Export.Lines

/-!
# Events

What the reader finds in an event: the end marker may stand in a title or in a note, and then the event ends there. What follows is no event of its own, for it has no date.
-/

namespace ShishiTodo.Export

open Lib Tasks

/-! ### Line breaks that became line feeds -/

theorem withoutReturns_append {left right : JsText} (h : left.getLast? ≠ some 0x0D) :
    withoutReturns (left ++ right) = withoutReturns left ++ withoutReturns right := by
  induction left with
  | nil => rfl
  | cons unit rest ih =>
      cases rest with
      | nil =>
          have hunit : unit ≠ 0x0D := fun heq => h (by rw [heq]; rfl)
          rw [List.singleton_append, withoutReturns, if_neg (fun hbreak => hunit hbreak.1), withoutReturns,
            if_neg (fun hbreak => hunit hbreak.1)]
          rfl
      | cons next later =>
          have hrest := ih (by rwa [List.getLast?_cons_cons] at h)
          rw [List.cons_append, withoutReturns, withoutReturns, hrest]
          by_cases hbreak : unit = 0x0D ∧ next = 0x0A
          · rw [if_pos ⟨hbreak.1, congrArg some hbreak.2⟩, if_pos ⟨hbreak.1, congrArg some hbreak.2⟩]
          · rw [if_neg (fun hdropped => hbreak ⟨hdropped.1, Option.some.inj hdropped.2⟩),
              if_neg (fun hdropped => hbreak ⟨hdropped.1, Option.some.inj hdropped.2⟩), List.cons_append]

theorem withoutReturns_of_plain {text : JsText} (h : 0x0D ∉ text) : withoutReturns text = text := by
  induction text with
  | nil => rfl
  | cons unit rest ih =>
      rw [List.mem_cons, not_or] at h
      rw [withoutReturns, if_neg (fun hbreak => h.1 hbreak.1.symm), ih h.2]

theorem withoutReturns_eq_nil {text : JsText} : withoutReturns text = [] ↔ text = [] := by
  refine ⟨fun h => ?_, fun h => by rw [h]; rfl⟩
  induction text with
  | nil => rfl
  | cons unit rest ih =>
      rw [withoutReturns] at h
      split at h
      · rename_i hbreak
        rw [ih h] at hbreak
        cases hbreak.2
      · cases h

theorem feed_not_mem_escapeText (value : JsText) : 0x0A ∉ escapeText value := by
  rw [escapeText_eq]
  intro h
  obtain ⟨unit, -, hunit⟩ := List.mem_flatMap.mp h
  by_cases hfeed : unit = 0x0A
  · subst hfeed
    revert hunit
    decide
  · cases hspecial : isSpecial unit with
    | false =>
        rw [escapeUnit_of_plain hfeed hspecial] at hunit
        exact hfeed (List.mem_singleton.mp hunit).symm
    | true =>
        rw [escapeUnit_of_special hspecial] at hunit
        simp [Ne.symm hfeed] at hunit

/-! ### A marker in an escaped text -/

/-- Units that no escape writes. -/
def Unescaped (marker : JsText) : Prop :=
  ∀ unit ∈ marker, unit ≠ 0x0A ∧ unit ≠ 0x6E ∧ isSpecial unit = false

theorem escapeUnit_cases (unit : Nat) :
    escapeUnit unit = [unit] ∨ ∃ second, escapeUnit unit = [0x5C, second] ∧ (second = 0x6E ∨ isSpecial second = true) := by
  by_cases hfeed : unit = 0x0A
  · subst hfeed
    exact Or.inr ⟨0x6E, rfl, Or.inl rfl⟩
  · cases hspecial : isSpecial unit with
    | false => exact Or.inl (escapeUnit_of_plain hfeed hspecial)
    | true => exact Or.inr ⟨unit, escapeUnit_of_special hspecial, Or.inr hspecial⟩

theorem begins_of_escaped {marker value : JsText} (hmarker : Unescaped marker)
    (h : marker <+: value.flatMap escapeUnit) : marker <+: value := by
  induction value generalizing marker with
  | nil => exact h
  | cons unit rest ih =>
      cases marker with
      | nil => exact List.nil_prefix
      | cons first more =>
          rw [List.flatMap_cons] at h
          rcases escapeUnit_cases unit with hunit | ⟨second, hunit, -⟩
          · rw [hunit, List.singleton_append, List.cons_prefix_cons] at h
            have hmore := ih (fun next hnext => hmarker next (List.mem_cons_of_mem _ hnext)) h.2
            exact List.cons_prefix_cons.mpr ⟨h.1, hmore⟩
          · rw [hunit, List.cons_append, List.cons_prefix_cons] at h
            have hfirst := (hmarker first List.mem_cons_self).2.2
            rw [h.1] at hfirst
            cases hfirst

theorem inside_of_escaped {marker value : JsText} (hsome : marker ≠ []) (hmarker : Unescaped marker)
    (h : marker <:+: value.flatMap escapeUnit) : marker <:+: value := by
  obtain ⟨first, more, rfl⟩ := List.exists_cons_of_ne_nil hsome
  have hfirst := hmarker first List.mem_cons_self
  induction value with
  | nil => exact h
  | cons unit rest ih =>
      have hlater (hinside : first :: more <:+: rest.flatMap escapeUnit) : first :: more <:+: unit :: rest :=
        (ih hinside).trans (List.suffix_cons _ _).isInfix
      rcases escapeUnit_cases unit with hunit | ⟨second, hunit, hsecond⟩
      · have hall : (unit :: rest).flatMap escapeUnit = unit :: rest.flatMap escapeUnit := by
          rw [List.flatMap_cons, hunit, List.singleton_append]
        rcases List.infix_cons_iff.mp (hall ▸ h) with hbegins | hinside
        · exact (begins_of_escaped hmarker (hall ▸ hbegins)).isInfix
        · exact hlater hinside
      · rw [List.flatMap_cons, hunit, List.cons_append, List.singleton_append] at h
        rcases List.infix_cons_iff.mp h with hbegins | hinside
        · have hback := (List.cons_prefix_cons.mp hbegins).1
          rw [hback] at hfirst
          cases hfirst.2.2
        · rcases List.infix_cons_iff.mp hinside with hbegins | hinside
          · have hother := (List.cons_prefix_cons.mp hbegins).1
            rw [hother] at hfirst
            rcases hsecond with hletter | hspecial
            · exact absurd hletter hfirst.2.1
            · exact absurd hfirst.2.2 (by rw [hspecial]; decide)
          · exact hlater hinside

theorem begins_of_withoutReturns {marker value : JsText} (hmarker : Unescaped marker)
    (h : marker <+: withoutReturns value) : marker <+: value := by
  induction value generalizing marker with
  | nil => exact h
  | cons unit rest ih =>
      cases marker with
      | nil => exact List.nil_prefix
      | cons first more =>
          rw [withoutReturns] at h
          split at h
          · rename_i hbreak
            obtain ⟨next, later, rfl⟩ := List.exists_cons_of_ne_nil (by rintro rfl; cases hbreak.2 : rest ≠ [])
            obtain rfl : next = 0x0A := Option.some.inj hbreak.2
            rw [withoutReturns, if_neg (fun h => absurd h.1 (by decide)), List.cons_prefix_cons] at h
            exact absurd h.1 (hmarker first List.mem_cons_self).1
          · rw [List.cons_prefix_cons] at h
            have hmore := ih (fun next hnext => hmarker next (List.mem_cons_of_mem _ hnext)) h.2
            exact List.cons_prefix_cons.mpr ⟨h.1, hmore⟩

theorem inside_of_withoutReturns {marker value : JsText} (hmarker : Unescaped marker)
    (h : marker <:+: withoutReturns value) : marker <:+: value := by
  induction value with
  | nil => exact h
  | cons unit rest ih =>
      have hlater (hinside : marker <:+: withoutReturns rest) : marker <:+: unit :: rest :=
        (ih hinside).trans (List.suffix_cons _ _).isInfix
      by_cases hbreak : unit = 0x0D ∧ rest.head? = some 0x0A
      · rw [withoutReturns, if_pos hbreak] at h
        exact hlater h
      · have hall : withoutReturns (unit :: rest) = unit :: withoutReturns rest := by
          rw [withoutReturns, if_neg hbreak]
        rcases List.infix_cons_iff.mp (hall ▸ h) with hbegins | hinside
        · exact (begins_of_withoutReturns hmarker (hall ▸ hbegins)).isInfix
        · exact hlater hinside

/-! ### The end marker -/

theorem endEvent_eq : endEvent = [0x45, 0x4E, 0x44, 0x3A, 0x56, 0x45, 0x56, 0x45, 0x4E, 0x54] := by
  decide

theorem beginEvent_eq :
    beginEvent = [0x42, 0x45, 0x47, 0x49, 0x4E, 0x3A, 0x56, 0x45, 0x56, 0x45, 0x4E, 0x54] := by
  decide

theorem endEvent_unescaped : Unescaped endEvent := by
  rw [endEvent_eq]
  unfold Unescaped
  decide

theorem endEvent_ne_nil : endEvent ≠ [] := by
  rw [endEvent_eq]
  exact List.cons_ne_nil _ _

theorem bracketing : Bracketing beginEvent endEvent := by
  rw [endEvent_eq, beginEvent_eq]
  refine ⟨List.cons_ne_nil _ _, List.cons_ne_nil _ _, ?_, ?_, ?_⟩
  · unfold Unbordered
    decide
  · unfold Unbordered
    decide
  · decide

theorem inside_of_escapeText {value : JsText} (h : endEvent <:+: escapeText value) : endEvent <:+: value := by
  rw [escapeText_eq] at h
  exact inside_of_withoutReturns endEvent_unescaped (inside_of_escaped endEvent_ne_nil endEvent_unescaped h)

theorem getLast?_append_endEvent (before : JsText) : (before ++ endEvent).getLast? ≠ some 0x0D := by
  rw [endEvent_eq]
  simp

theorem escapeText_append {left right : JsText} (h : left.getLast? ≠ some 0x0D) :
    escapeText (left ++ right) = escapeText left ++ escapeText right := by
  rw [escapeText_eq, escapeText_eq, escapeText_eq, withoutReturns_append h, List.flatMap_append]

/-- The line break after a carriage return is not one of the marker's. -/
theorem withoutReturns_append_endEvent (before : JsText) :
    withoutReturns (before ++ endEvent) = withoutReturns before ++ endEvent := by
  induction before with
  | nil => rw [endEvent_eq]; decide
  | cons unit rest ih =>
      have hdropped : (rest ++ endEvent).head? = some 0x0A ↔ rest.head? = some 0x0A := by
        cases rest with
        | nil => rw [endEvent_eq]; decide
        | cons next later => exact Iff.rfl
      rw [List.cons_append, withoutReturns, withoutReturns, ih]
      by_cases hbreak : unit = 0x0D ∧ rest.head? = some 0x0A
      · rw [if_pos hbreak, if_pos ⟨hbreak.1, hdropped.mpr hbreak.2⟩]
      · rw [if_neg hbreak, if_neg (fun h => hbreak ⟨h.1, hdropped.mp h.2⟩), List.cons_append]

theorem escapeText_append_endEvent (before : JsText) :
    escapeText (before ++ endEvent) = escapeText before ++ endEvent := by
  have hmarker : endEvent.flatMap escapeUnit = endEvent := by
    rw [endEvent_eq]
    decide
  rw [escapeText_eq, escapeText_eq, withoutReturns_append_endEvent, List.flatMap_append, hmarker]

theorem escapeText_marked (before after : JsText) :
    escapeText (before ++ (endEvent ++ after)) = escapeText before ++ (endEvent ++ escapeText after) := by
  rw [← List.append_assoc, escapeText_append (getLast?_append_endEvent before), escapeText_append_endEvent,
    List.append_assoc]

/-- What is read of a text: the event ends with the first end marker in it. -/
def upToEnd (text : JsText) : JsText :=
  match cutAt endEvent text with
  | none => text
  | some (before, _) => before ++ endEvent

theorem upToEnd_of_free {text : JsText} (h : ¬ endEvent <:+: text) : upToEnd text = text := by
  rw [upToEnd, cutAt_eq_none endEvent_ne_nil h]

theorem upToEnd_of_first {before : JsText} (h : ¬ endEvent <:+: before) (after : JsText) :
    upToEnd (before ++ (endEvent ++ after)) = before ++ endEvent := by
  rw [upToEnd, cutAt_append endEvent_ne_nil bracketing.closesOnce h]

/-- The end marker stands at the end of the text or nowhere. -/
def Closed (text : JsText) : Prop := ∀ before after, text = before ++ (endEvent ++ after) → after = []

theorem upToEnd_eq_iff (text : JsText) : upToEnd text = text ↔ Closed text := by
  by_cases hinside : endEvent <:+: text
  · obtain ⟨first, rest, rfl, hfirst⟩ := exists_first_place endEvent_ne_nil hinside
    rw [upToEnd_of_first hfirst]
    constructor
    · intro h before after hplace
      have hrest : rest = [] := by
        rw [← List.append_assoc] at h
        exact List.self_eq_append_right.mp h
      subst hrest
      by_contra hafter
      rw [List.append_nil] at hplace
      have hlength := congrArg List.length hplace
      simp only [List.length_append] at hlength
      have hmore := List.length_pos_iff.mpr hafter
      obtain ⟨back, hback⟩ : before <+: first :=
        List.prefix_of_prefix_length_le ⟨endEvent ++ after, hplace.symm⟩ (List.prefix_append first endEvent) (by omega)
      have hsome : back ≠ [] := by
        rintro rfl
        rw [← hback] at hlength
        simp only [List.append_nil] at hlength
        omega
      rw [← hback, List.append_assoc, List.append_cancel_left_eq] at hplace
      have hfree : ¬ endEvent <:+: back :=
        fun hinside => hfirst (hback ▸ hinside.trans (List.suffix_append before back).isInfix)
      have hnot : ¬ endEvent <+: back ++ (endEvent ++ []) :=
        not_begins_of_free bracketing.closesOnce hsome hfree
      exact hnot ⟨after, by rw [List.append_nil, hplace]⟩
    · intro hclosed
      rw [hclosed first rest rfl, List.append_nil]
  · refine iff_of_true (upToEnd_of_free hinside) fun before after hplace => ?_
    exact absurd ⟨before, after, by rw [hplace, List.append_assoc]⟩ hinside

end ShishiTodo.Export
