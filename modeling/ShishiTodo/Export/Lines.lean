import ShishiTodo.Export.Escapes

/-!
# Lines and fields

The lines of a text that was put together from lines, and of every part of it: but for the first, each is a line of the text, which may be cut at its end. A cut line has the name of the whole one as long as its colon is left.
-/

namespace ShishiTodo.Export

open Lib Tasks

/-! ### Lines -/

theorem splitLines_cons_feed (rest : JsText) : splitLines (0x0A :: rest) = [] :: splitLines rest := by
  rw [splitLines, if_pos rfl]

theorem splitLines_append {line : JsText} (hline : 0x0A ∉ line) (tail : JsText) :
    splitLines (line ++ 0x0D :: 0x0A :: tail) = line :: splitLines tail := by
  induction line with
  | nil =>
      rw [List.nil_append, splitLines, if_neg (by decide), if_pos ⟨rfl, rfl⟩, splitLines_cons_feed]
  | cons unit rest ih =>
      rw [List.mem_cons, not_or] at hline
      have hnext : ¬ (unit = 0x0D ∧ (rest ++ 0x0D :: 0x0A :: tail).head? = some 0x0A) := by
        rintro ⟨-, hhead⟩
        cases rest with
        | nil => cases hhead
        | cons next later => exact hline.2 (Option.some.inj hhead ▸ List.mem_cons_self)
      rw [List.cons_append, splitLines, if_neg (Ne.symm hline.1), if_neg hnext, ih hline.2, List.modifyHead_cons]

theorem splitLines_line {line : JsText} (hline : 0x0A ∉ line) : splitLines line = [line] := by
  induction line with
  | nil => rfl
  | cons unit rest ih =>
      rw [List.mem_cons, not_or] at hline
      have hnext : ¬ (unit = 0x0D ∧ rest.head? = some 0x0A) :=
        fun h => hline.2 (List.mem_of_head? h.2)
      rw [splitLines, if_neg (Ne.symm hline.1), if_neg hnext, ih hline.2, List.modifyHead_cons]

theorem splitLines_ended {lines : List JsText} (hlines : ∀ line ∈ lines, 0x0A ∉ line) (tail : JsText) :
    splitLines (ended lines ++ tail) = lines ++ splitLines tail := by
  induction lines with
  | nil => rfl
  | cons line rest ih =>
      rw [ended_cons, List.append_assoc, List.cons_append, List.cons_append,
        splitLines_append (hlines line List.mem_cons_self),
        ih fun later hlater => hlines later (List.mem_cons_of_mem _ hlater)]
      rfl

/-- The first line stands at the beginning of the text, every other one after a line feed. -/
theorem splitLines_places (text : JsText) :
    ∃ first others, splitLines text = first :: others ∧ 0x0A ∉ first ∧ first <+: text ∧
      ∀ line ∈ others, 0x0A ∉ line ∧ ∃ before after, text = before ++ 0x0A :: (line ++ after) := by
  induction text with
  | nil => exact ⟨[], [], rfl, List.not_mem_nil, List.prefix_rfl, nofun⟩
  | cons unit rest ih =>
      obtain ⟨first, others, hlines, hfree, hbegins, hothers⟩ := ih
      have hlater : ∀ line ∈ others, 0x0A ∉ line ∧ ∃ before after, unit :: rest = before ++ 0x0A :: (line ++ after) := by
        intro line hline
        obtain ⟨hfeed, before, after, hplace⟩ := hothers line hline
        exact ⟨hfeed, unit :: before, after, by rw [hplace, List.cons_append]⟩
      rw [splitLines]
      by_cases hfeed : unit = 0x0A
      · subst hfeed
        obtain ⟨after, hafter⟩ := hbegins
        rw [if_pos rfl, hlines]
        refine ⟨[], first :: others, rfl, List.not_mem_nil, List.nil_prefix, fun line hline => ?_⟩
        rcases List.mem_cons.mp hline with rfl | hline
        · exact ⟨hfree, [], after, by rw [hafter]; rfl⟩
        · exact hlater line hline
      · rw [if_neg hfeed]
        by_cases hbreak : unit = 0x0D ∧ rest.head? = some 0x0A
        · rw [if_pos hbreak, hlines]
          have hempty : first = [] := by
            cases first with
            | nil => rfl
            | cons next more =>
                obtain ⟨after, rfl⟩ := hbegins
                obtain rfl : next = 0x0A := Option.some.inj hbreak.2
                exact absurd List.mem_cons_self hfree
          exact ⟨first, others, rfl, hfree, by rw [hempty]; exact List.nil_prefix, hlater⟩
        · rw [if_neg hbreak, hlines, List.modifyHead_cons]
          refine ⟨unit :: first, others, rfl, ?_, List.cons_prefix_cons.mpr ⟨rfl, hbegins⟩, hlater⟩
          rw [List.mem_cons, not_or]
          exact ⟨Ne.symm hfeed, hfree⟩

/-- After a line feed comes a line. -/
theorem ended_after_feed {lines : List JsText} (hlines : ∀ line ∈ lines, 0x0A ∉ line) {before after : JsText}
    (h : ended lines = before ++ 0x0A :: after) : ∃ more, more <:+ lines ∧ after = ended more := by
  induction lines generalizing before with
  | nil => simp [ended] at h
  | cons line rest ih =>
      have hrest := fun later hlater => hlines later (List.mem_cons_of_mem line hlater)
      have hfirst : 0x0A ∉ line ++ [0x0D] := by
        rw [List.mem_append, not_or]
        exact ⟨hlines line List.mem_cons_self, by decide⟩
      have hcut : splitOnce 0x0A (ended (line :: rest)) = some (line ++ [0x0D], ended rest) := by
        rw [ended_cons, List.append_cons]
        exact splitOnce_append hfirst (ended rest)
      by_cases hearlier : 0x0A ∈ before
      · obtain ⟨front, back, rfl, hfront⟩ := List.eq_append_cons_of_mem hearlier
        rw [h, List.append_assoc, List.cons_append, splitOnce_append hfront] at hcut
        obtain ⟨more, hmore, hafter⟩ := ih hrest (Prod.ext_iff.mp (Option.some.inj hcut)).2.symm
        exact ⟨more, hmore.trans (List.suffix_cons _ _), hafter⟩
      · rw [h, splitOnce_append hearlier] at hcut
        exact ⟨rest, List.suffix_cons _ _, (Prod.ext_iff.mp (Option.some.inj hcut)).2⟩

/-- A beginning without a line feed is one of the first line. -/
theorem line_of_begin {lines : List JsText} {line after : JsText} (hline : 0x0A ∉ line)
    (h : ended lines = line ++ after) : line = [] ∨ ∃ whole ∈ lines, line <+: whole ++ [0x0D] := by
  cases lines with
  | nil => exact Or.inl (List.append_eq_nil_iff.mp h.symm).1
  | cons whole rest =>
      refine Or.inr ⟨whole, List.mem_cons_self, ?_⟩
      rw [ended_cons, List.append_cons] at h
      have hwhole : whole ++ [0x0D] ++ [0x0A] <+: line ++ after := ⟨ended rest, by rw [← h]; simp⟩
      by_cases hlong : (whole ++ [0x0D] ++ [0x0A]).length ≤ line.length
      · have hinside := List.prefix_of_prefix_length_le hwhole (List.prefix_append _ _) hlong
        exact absurd (hinside.subset (by simp)) hline
      · refine List.prefix_of_prefix_length_le (List.prefix_append line after) ⟨0x0A :: ended rest, h⟩ ?_
        simp only [List.length_append, List.length_singleton] at hlong ⊢
        omega

/-- The lines of a part of the text, but for the first. -/
theorem lines_of_part {lines : List JsText} (hlines : ∀ line ∈ lines, 0x0A ∉ line) {before part after : JsText}
    (h : ended lines = before ++ (part ++ after)) :
    ∃ first others, splitLines part = first :: others ∧ first <+: part ∧
      ∀ line ∈ others, line = [] ∨ ∃ whole ∈ lines, line <+: whole ++ [0x0D] := by
  obtain ⟨first, others, hsplit, -, hbegins, hothers⟩ := splitLines_places part
  refine ⟨first, others, hsplit, hbegins, fun line hline => ?_⟩
  obtain ⟨hfree, front, back, hplace⟩ := hothers line hline
  have hfeed : ended lines = (before ++ front) ++ 0x0A :: (line ++ (back ++ after)) := by
    rw [h, hplace]
    simp
  obtain ⟨more, hmore, hafter⟩ := ended_after_feed hlines hfeed
  rcases line_of_begin hfree hafter.symm with hempty | ⟨whole, hwhole, hcut⟩
  · exact Or.inl hempty
  · exact Or.inr ⟨whole, hmore.subset hwhole, hcut⟩

/-! ### Fields -/

section

variable {toUpperCase : JsText → JsText}

/-- A line with a label. -/
def labelled (label value : JsText) : JsText := label ++ 0x3A :: value

/-- The name that a label gives: what stands before its first semicolon, in capitals. -/
def nameOf (toUpperCase : JsText → JsText) (label : JsText) : JsText := toUpperCase (label.takeWhile (· ≠ 0x3B))

theorem lineField_labelled {label : JsText} (hlabel : 0x3A ∉ label) (hsome : nameOf toUpperCase label ≠ [])
    (hstarts : label ≠ []) (value : JsText) :
    lineField toUpperCase (labelled label value) = some (nameOf toUpperCase label, value) := by
  obtain ⟨unit, rest, rfl⟩ := List.exists_cons_of_ne_nil hstarts
  rw [lineField, labelled, splitOnce_append hlabel]
  exact if_neg hsome

/-- A line that is cut after its colon keeps its name. -/
theorem name_of_part {label value line : JsText} (hlabel : 0x3A ∉ label)
    (hpart : line <+: labelled label value ++ [0x0D]) {name found : JsText}
    (hfield : lineField toUpperCase line = some (name, found)) : name = nameOf toUpperCase label := by
  rw [lineField] at hfield
  split at hfield
  · cases hfield
  · cases hfield
  · rename_i left right _ hcut
    obtain ⟨hleft, rfl⟩ := splitOnce_some hcut
    obtain ⟨after, hafter⟩ := hpart
    have hsame : splitOnce 0x3A (left ++ 0x3A :: (right ++ after)) = splitOnce 0x3A (label ++ 0x3A :: (value ++ [0x0D])) := by
      rw [← List.cons_append, ← List.append_assoc, hafter, labelled, List.append_assoc, List.cons_append]
    rw [splitOnce_append hleft, splitOnce_append hlabel] at hsame
    obtain rfl := (Prod.ext_iff.mp (Option.some.inj hsame)).1
    dsimp only at hfield
    split at hfield
    · cases hfield
    · exact (Prod.ext_iff.mp (Option.some.inj hfield)).1.symm

theorem lineField_nil : lineField toUpperCase [] = none := rfl

/-- No line of the name. -/
def Unnamed (toUpperCase : JsText → JsText) (name : JsText) (lines : List JsText) : Prop :=
  ∀ line ∈ lines, ∀ value, lineField toUpperCase line ≠ some (name, value)

theorem get_fields_unnamed {name : JsText} {lines : List JsText} (h : Unnamed toUpperCase name lines)
    (fields : OrderedMap JsText JsText) :
    (lines.foldl (setField toUpperCase) fields).get name = fields.get name := by
  induction lines generalizing fields with
  | nil => rfl
  | cons line rest ih =>
      rw [List.foldl_cons, ih fun later hlater => h later (List.mem_cons_of_mem _ hlater), setField]
      have hline := h line List.mem_cons_self
      split
      · rename_i other value hfield
        rw [OrderedMap.get_set, if_neg]
        rintro rfl
        exact hline value hfield
      · rfl

/-- The last line of a name gives the field. -/
theorem get_fields_last {name value line : JsText} (hline : lineField toUpperCase line = some (name, value))
    (before : List JsText) {after : List JsText} (hafter : Unnamed toUpperCase name after)
    (fields : OrderedMap JsText JsText) :
    ((before ++ line :: after).foldl (setField toUpperCase) fields).get name = some value := by
  rw [List.foldl_append, List.foldl_cons, get_fields_unnamed hafter, setField, hline, OrderedMap.get_set, if_pos rfl]

theorem unnamed_append {name : JsText} {left right : List JsText} (hleft : Unnamed toUpperCase name left)
    (hright : Unnamed toUpperCase name right) : Unnamed toUpperCase name (left ++ right) := by
  intro line hline
  rcases List.mem_append.mp hline with hline | hline
  · exact hleft line hline
  · exact hright line hline

end

end ShishiTodo.Export
