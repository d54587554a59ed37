import ShishiTodo.Export.Values

/-!
# The lines of an event

Every line has a label, which gives the name of the field, and no line holds a line feed. Before the title the end marker stands nowhere.
-/

namespace ShishiTodo.Export

open Lib Tasks Recurring

/-! ### Labels -/

/-- `toUpperCase` leaves the capital letters of ASCII alone. -/
def FixesCapitals (toUpperCase : JsText → JsText) : Prop :=
  ∀ name : JsText, (∀ unit ∈ name, 0x41 ≤ unit ∧ unit ≤ 0x5A) → toUpperCase name = name

/-- A label of the file, and the name it gives. -/
structure IsLabel (label name : JsText) : Prop where
  uncoloned : 0x3A ∉ label
  oneLine : 0x0A ∉ label
  begins : label.head?.all isBlankUnit = false
  named : label.takeWhile (· ≠ 0x3B) = name
  capitals : ∀ unit ∈ name, 0x41 ≤ unit ∧ unit ≤ 0x5A
  some_name : name ≠ []

namespace IsLabel

variable {toUpperCase : JsText → JsText} {label name value : JsText}

theorem nameOf_eq (h : IsLabel label name) (hupper : FixesCapitals toUpperCase) : nameOf toUpperCase label = name := by
  rw [nameOf, h.named, hupper name h.capitals]

theorem ne_nil (h : IsLabel label name) : label ≠ [] := by
  rintro rfl
  exact h.some_name h.named.symm

theorem field (h : IsLabel label name) (hupper : FixesCapitals toUpperCase) (value : JsText) :
    lineField toUpperCase (labelled label value) = some (name, value) := by
  have hname := h.nameOf_eq hupper
  rw [lineField_labelled h.uncoloned (by rw [hname]; exact h.some_name) h.ne_nil, hname]

theorem plainLine (h : IsLabel label name) (hvalue : 0x0A ∉ value) : PlainLine (labelled label value) := by
  refine ⟨?_, ?_⟩
  · rw [labelled, List.mem_append, List.mem_cons, not_or, not_or]
    exact ⟨h.oneLine, by decide, hvalue⟩
  · obtain ⟨unit, rest, rfl⟩ := List.exists_cons_of_ne_nil h.ne_nil
    exact ⟨unit, rest ++ 0x3A :: value, rfl, by simpa using h.begins⟩

theorem label_begin : IsLabel (units "BEGIN") (units "BEGIN") := by constructor <;> decide
theorem label_uid : IsLabel (units "UID") (units "UID") := by constructor <;> decide
theorem label_stamp : IsLabel (units "DTSTAMP") (units "DTSTAMP") := by constructor <;> decide
theorem label_start : IsLabel (units "DTSTART;VALUE=DATE") (units "DTSTART") := by constructor <;> decide
theorem label_last : IsLabel (units "DTEND;VALUE=DATE") (units "DTEND") := by constructor <;> decide
theorem label_summary : IsLabel (units "SUMMARY") (units "SUMMARY") := by constructor <;> decide
theorem label_description : IsLabel (units "DESCRIPTION") (units "DESCRIPTION") := by constructor <;> decide
theorem label_categories : IsLabel (units "CATEGORIES") (units "CATEGORIES") := by constructor <;> decide
theorem label_status : IsLabel (units "STATUS") (units "STATUS") := by constructor <;> decide
theorem label_end : IsLabel (units "END") (units "END") := by constructor <;> decide

end IsLabel

/-- The lines have labels that give some of the names. -/
def Named (names : List JsText) (lines : List JsText) : Prop :=
  ∀ line ∈ lines, ∃ label name value, IsLabel label name ∧ name ∈ names ∧ line = labelled label value

/-- Whole lines, and lines that are cut, have no other names. -/
theorem unnamed_of_parts {toUpperCase : JsText → JsText} (hupper : FixesCapitals toUpperCase)
    {names lines parts : List JsText} (hnamed : Named names lines)
    (hparts : ∀ line ∈ parts, line = [] ∨ ∃ whole ∈ lines, line <+: whole ++ [0x0D]) {name : JsText}
    (hname : name ∉ names) : Unnamed toUpperCase name parts := by
  intro line hline value hfield
  rcases hparts line hline with rfl | ⟨whole, hwhole, hpart⟩
  · rw [lineField_nil] at hfield
    cases hfield
  · obtain ⟨label, other, rest, hlabel, hother, rfl⟩ := hnamed whole hwhole
    rw [name_of_part hlabel.uncoloned hpart hfield, hlabel.nameOf_eq hupper] at hname
    exact hname hother

theorem unnamed_of_named {toUpperCase : JsText → JsText} (hupper : FixesCapitals toUpperCase)
    {names lines : List JsText} (hnamed : Named names lines) {name : JsText} (hname : name ∉ names) :
    Unnamed toUpperCase name lines :=
  unnamed_of_parts hupper hnamed (fun line hline => Or.inr ⟨line, hline, List.prefix_append _ _⟩) hname

/-! ### The end marker in a line -/

/-- The end marker in a line stands in its value. -/
theorem inside_of_labelled {label value : JsText} (hlabel : 0x3A ∉ label) (hends : ¬ [0x45, 0x4E, 0x44] <:+ label)
    (h : endEvent <:+: labelled label value) : endEvent <:+: value := by
  obtain ⟨before, after, hplace⟩ := h
  have hsplit : endEvent = [0x45, 0x4E, 0x44] ++ 0x3A :: [0x56, 0x45, 0x56, 0x45, 0x4E, 0x54] := endEvent_eq
  have hline : splitOnce 0x3A (labelled label value) = some (label, value) := splitOnce_append hlabel value
  by_cases hearlier : 0x3A ∈ before
  · obtain ⟨front, back, rfl, hfront⟩ := List.eq_append_cons_of_mem hearlier
    have hcut : splitOnce 0x3A (labelled label value) = some (front, back ++ (endEvent ++ after)) := by
      rw [← hplace, List.append_assoc, List.append_assoc, List.cons_append, splitOnce_append hfront]
    obtain ⟨-, hvalue⟩ := Prod.mk.inj (Option.some.inj (hline.symm.trans hcut))
    exact ⟨back, after, by rw [hvalue, List.append_assoc]⟩
  · have hfree : 0x3A ∉ before ++ [0x45, 0x4E, 0x44] := by
      rw [List.mem_append, not_or]
      exact ⟨hearlier, by decide⟩
    have hcut : splitOnce 0x3A (labelled label value) =
        some (before ++ [0x45, 0x4E, 0x44], [0x56, 0x45, 0x56, 0x45, 0x4E, 0x54] ++ after) := by
      rw [← splitOnce_append hfree, ← hplace, hsplit]
      simp
    obtain ⟨hends', -⟩ := Prod.mk.inj (Option.some.inj (hline.symm.trans hcut))
    exact absurd ⟨before, hends'.symm⟩ hends

theorem not_inside_of_uncoloned {value : JsText} (h : 0x3A ∉ value) : ¬ endEvent <:+: value :=
  fun hinside => h (hinside.subset (by rw [endEvent_eq]; decide))

theorem parts_endEvent {unit : Nat} (h : unit = 0x0D ∨ unit = 0x0A ∨ unit = 0x40) : unit ∉ endEvent := by
  rw [endEvent_eq]
  rcases h with rfl | rfl | rfl <;> decide

theorem parts_beginEvent {unit : Nat} (h : unit = 0x0D ∨ unit = 0x0A) : unit ∉ beginEvent := by
  rw [beginEvent_eq]
  rcases h with rfl | rfl <;> decide

/-- The end marker after whole lines without it. -/
theorem inside_of_ended {lines : List JsText} {tail : JsText} (hlines : ∀ line ∈ lines, ¬ endEvent <:+: line)
    (h : endEvent <:+: ended lines ++ tail) : endEvent <:+: tail := by
  induction lines with
  | nil => exact h
  | cons line rest ih =>
      rw [ended_cons, List.append_assoc, List.cons_append, List.cons_append,
        inside_append_delimiter_iff endEvent_ne_nil (parts_endEvent (Or.inl rfl))] at h
      have hrest := h.resolve_left (hlines line List.mem_cons_self)
      rw [← List.nil_append (0x0A :: _), inside_append_delimiter_iff endEvent_ne_nil
        (parts_endEvent (Or.inr (Or.inl rfl)))] at hrest
      refine ih (fun later hlater => hlines later (List.mem_cons_of_mem _ hlater)) (hrest.resolve_left ?_)
      rw [List.infix_nil]
      exact endEvent_ne_nil

/-- Lines without the begin marker are passed over. -/
theorem blocks_ended {lines : List JsText} (hlines : ∀ line ∈ lines, ¬ beginEvent <:+: line) (tail : JsText) :
    blocks beginEvent endEvent (ended lines ++ tail) = blocks beginEvent endEvent tail := by
  induction lines with
  | nil => rfl
  | cons line rest ih =>
      rw [ended_cons, List.append_assoc, List.cons_append, List.cons_append,
        bracketing.blocks_skip (parts_beginEvent (Or.inl rfl)) (hlines line List.mem_cons_self),
        bracketing.blocks_delimiter (parts_beginEvent (Or.inr rfl)),
        ih fun later hlater => hlines later (List.mem_cons_of_mem _ hlater)]

/-! ### The lines of an event -/

/-- An id without a line feed and without the end marker. -/
structure PlainId (id : JsText) : Prop where
  oneLine : 0x0A ∉ id
  unmarked : ¬ endEvent <:+: id

section

variable (stamp : JsText) (task : CalendarTask) (dueOn : ReferenceDate)

/-- The lines before the title. -/
def earlyLines : List JsText :=
  [ labelled (units "UID") (task.id ++ units "@shishi.local"),
    labelled (units "DTSTAMP") stamp,
    labelled (units "DTSTART;VALUE=DATE") (withoutHyphens (units dueOn.text)),
    labelled (units "DTEND;VALUE=DATE") (nextDay dueOn) ]

def titleLine : JsText := labelled (units "SUMMARY") (escapeText task.title.text)

def noteLines : List JsText :=
  if task.note.text = [] then [] else [labelled (units "DESCRIPTION") (escapeText task.note.text)]

/-- The lines after the note. -/
def lastLines : List JsText :=
  (match task.tags with
    | some (tag :: more) => [labelled (units "CATEGORIES") (joinTexts [0x2C] ((tag :: more).map escapeText))]
    | _ => []) ++
  (if task.status = .completed then [labelled (units "STATUS") (units "COMPLETED")] else [])

def lateLines : List JsText := titleLine task :: (noteLines task ++ lastLines task)

theorem units_labelled {full label : String} (h : units full = units label ++ [0x3A]) (value : JsText) :
    units full ++ value = labelled (units label) value := by
  rw [h, labelled, List.append_assoc, List.singleton_append]

theorem eventLines_eq : eventLines stamp task dueOn =
    beginEvent :: (earlyLines stamp task dueOn ++ (lateLines task ++ [endEvent])) := by
  have huid : units "UID:" = units "UID" ++ [0x3A] := by decide
  have hstamp : units "DTSTAMP:" = units "DTSTAMP" ++ [0x3A] := by decide
  have hstart : units "DTSTART;VALUE=DATE:" = units "DTSTART;VALUE=DATE" ++ [0x3A] := by decide
  have hlast : units "DTEND;VALUE=DATE:" = units "DTEND;VALUE=DATE" ++ [0x3A] := by decide
  have hsummary : units "SUMMARY:" = units "SUMMARY" ++ [0x3A] := by decide
  have hdescription : units "DESCRIPTION:" = units "DESCRIPTION" ++ [0x3A] := by decide
  have hcategories : units "CATEGORIES:" = units "CATEGORIES" ++ [0x3A] := by decide
  have hstatus : units "STATUS:COMPLETED" = labelled (units "STATUS") (units "COMPLETED") := by decide
  have hid : units "UID:" ++ task.id ++ units "@shishi.local" =
      labelled (units "UID") (task.id ++ units "@shishi.local") := by
    rw [List.append_assoc, units_labelled huid]
  simp only [eventLines, hid, units_labelled hstamp,
    units_labelled hstart, units_labelled hlast, units_labelled hsummary, units_labelled hdescription,
    units_labelled hcategories, hstatus, earlyLines, lateLines, titleLine, noteLines, lastLines]
  rcases task.tags with _ | _ | ⟨tag, more⟩ <;> simp

theorem endEvent_labelled : endEvent = labelled (units "END") (units "VEVENT") := by decide

theorem beginEvent_labelled : beginEvent = labelled (units "BEGIN") (units "VEVENT") := by decide

theorem lastLines_named : Named [units "CATEGORIES", units "STATUS", units "END"] (lastLines task ++ [endEvent]) := by
  intro line hline
  rcases List.mem_append.mp hline with hline | hline
  · rcases List.mem_append.mp hline with hline | hline
    · split at hline
      · rw [List.mem_singleton.mp hline]
        exact ⟨_, _, _, .label_categories, by simp, rfl⟩
      · cases hline
    · split at hline
      · rw [List.mem_singleton.mp hline]
        exact ⟨_, _, _, .label_status, by simp, rfl⟩
      · cases hline
  · rw [List.mem_singleton.mp hline]
    exact ⟨_, _, _, .label_end, by simp, endEvent_labelled⟩

theorem lateLines_named :
    Named [units "SUMMARY", units "DESCRIPTION", units "CATEGORIES", units "STATUS", units "END"]
      (lateLines task ++ [endEvent]) := by
  intro line hline
  rw [lateLines, List.cons_append, List.append_assoc] at hline
  rcases List.mem_cons.mp hline with rfl | hline
  · exact ⟨_, _, _, .label_summary, by simp, rfl⟩
  · rcases List.mem_append.mp hline with hline | hline
    · unfold noteLines at hline
      split at hline
      · cases hline
      · rw [List.mem_singleton.mp hline]
        exact ⟨_, _, _, .label_description, by simp, rfl⟩
    · obtain ⟨label, name, value, hlabel, hname, hvalue⟩ := lastLines_named task line hline
      exact ⟨label, name, value, hlabel, List.mem_cons_of_mem _ (List.mem_cons_of_mem _ hname), hvalue⟩

theorem earlyLines_named :
    Named [units "BEGIN", units "UID", units "DTSTAMP", units "DTSTART", units "DTEND"]
      (beginEvent :: earlyLines stamp task dueOn) := by
  intro line hline
  simp only [earlyLines, List.mem_cons, List.not_mem_nil, or_false] at hline
  rcases hline with rfl | rfl | rfl | rfl | rfl
  · exact ⟨_, _, _, .label_begin, by simp, beginEvent_labelled⟩
  · exact ⟨_, _, _, .label_uid, by simp, rfl⟩
  · exact ⟨_, _, _, .label_stamp, by simp, rfl⟩
  · exact ⟨_, _, _, .label_start, by simp, rfl⟩
  · exact ⟨_, _, _, .label_last, by simp, rfl⟩

/-! ### Lines without line feeds -/

theorem feed_not_mem_joinTexts {glue : JsText} {pieces : List JsText} (hglue : 0x0A ∉ glue)
    (hpieces : ∀ piece ∈ pieces, 0x0A ∉ piece) : 0x0A ∉ joinTexts glue pieces := by
  induction pieces with
  | nil => simp [joinTexts, List.intercalate]
  | cons piece rest ih =>
      have hpiece := hpieces piece List.mem_cons_self
      have hrest := ih fun later hlater => hpieces later (List.mem_cons_of_mem _ hlater)
      cases rest with
      | nil => simpa [joinTexts, List.intercalate] using hpiece
      | cons next more =>
          rw [joinTexts_cons_cons, List.mem_append, List.mem_append, not_or, not_or]
          exact ⟨hpiece, hglue, hrest⟩

theorem lastLines_plain : ∀ line ∈ lastLines task, PlainLine line := by
  intro line hline
  rcases List.mem_append.mp hline with hline | hline
  · split at hline
    · rw [List.mem_singleton.mp hline]
      refine IsLabel.label_categories.plainLine (feed_not_mem_joinTexts (by decide) fun piece hpiece => ?_)
      obtain ⟨tag, -, rfl⟩ := List.mem_map.mp hpiece
      exact feed_not_mem_escapeText tag
    · cases hline
  · split at hline
    · rw [List.mem_singleton.mp hline]
      exact IsLabel.label_status.plainLine (by decide)
    · cases hline

theorem noteLines_plain : ∀ line ∈ noteLines task, PlainLine line := by
  intro line hline
  unfold noteLines at hline
  split at hline
  · cases hline
  · rw [List.mem_singleton.mp hline]
    exact IsLabel.label_description.plainLine (feed_not_mem_escapeText _)

theorem lateLines_plain : ∀ line ∈ lateLines task, PlainLine line := by
  intro line hline
  rcases List.mem_cons.mp hline with rfl | hline
  · exact IsLabel.label_summary.plainLine (feed_not_mem_escapeText _)
  · rcases List.mem_append.mp hline with hline | hline
    · exact noteLines_plain task line hline
    · exact lastLines_plain task line hline

theorem endEvent_plain : PlainLine endEvent := by
  rw [endEvent_labelled]
  exact IsLabel.label_end.plainLine (by decide)

theorem beginEvent_plain : PlainLine beginEvent := by
  rw [beginEvent_labelled]
  exact IsLabel.label_begin.plainLine (by decide)

end

/-- The time stamp of the events holds no colon. -/
theorem stampOf_units (now : IsoInstant) : ∀ unit ∈ stampOf now, isIsoUnit unit = true ∧ unit ≠ 0x3A := by
  have hkept : ∀ unit ∈ now.text.filter (fun unit => unit ≠ 0x2D ∧ unit ≠ 0x3A), isIsoUnit unit = true ∧ unit ≠ 0x3A := by
    intro unit hunit
    obtain ⟨hmem, hplain⟩ := List.mem_filter.mp hunit
    exact ⟨now.plain unit hmem, (of_decide_eq_true hplain).2⟩
  intro unit hunit
  unfold stampOf withoutMillis at hunit
  split at hunit
  · rename_i third second first rest hreverse
    split at hunit
    · rw [List.mem_reverse, List.mem_cons] at hunit
      refine hkept unit (List.mem_reverse.mp ?_)
      rw [hreverse]
      rcases hunit with rfl | hunit
      · exact List.mem_cons_self
      · simp [hunit]
    · exact hkept unit hunit
  · exact hkept unit hunit

section

variable {stamp : JsText} {task : CalendarTask} {dueOn : ReferenceDate}

/-- The time stamps that the events of a file have. -/
def PlainStamp (stamp : JsText) : Prop := 0x0A ∉ stamp ∧ 0x3A ∉ stamp

theorem plainStamp_stampOf (now : IsoInstant) : PlainStamp (stampOf now) := by
  constructor
  · intro hfeed
    exact absurd (stampOf_units now _ hfeed).1 (by decide)
  · intro hcolon
    exact (stampOf_units now _ hcolon).2 rfl

theorem dueOn_plain (date : ReferenceDate) :
    0x0A ∉ withoutHyphens (units date.text) ∧ 0x3A ∉ withoutHyphens (units date.text) := by
  obtain ⟨year, month, day, -, hdigits, hunits⟩ := dueOn_units date
  have hplain : ∀ unit ∈ withoutHyphens (units date.text), isDigitUnit unit = true := by
    intro unit hunit
    obtain ⟨hmem, hhyphen⟩ := List.mem_filter.mp hunit
    have hother : unit ≠ 0x2D := of_decide_eq_true hhyphen
    rw [hunits] at hmem
    simp only [List.mem_append, List.mem_cons, hother, false_or] at hmem
    exact hdigits unit (by simpa using hmem)
  exact ⟨fun h => absurd (hplain _ h) (by decide), fun h => absurd (hplain _ h) (by decide)⟩

theorem nextDay_plain (date : ReferenceDate) : 0x0A ∉ nextDay date ∧ 0x3A ∉ nextDay date :=
  ⟨fun h => absurd (nextDay_units date _ h) (by decide), fun h => absurd (nextDay_units date _ h) (by decide)⟩

theorem earlyLines_plain (hid : PlainId task.id) (hstamp : PlainStamp stamp) :
    ∀ line ∈ earlyLines stamp task dueOn, PlainLine line := by
  intro line hline
  simp only [earlyLines, List.mem_cons, List.not_mem_nil, or_false] at hline
  rcases hline with rfl | rfl | rfl | rfl
  · refine IsLabel.label_uid.plainLine ?_
    rw [List.mem_append, not_or]
    exact ⟨hid.oneLine, by decide⟩
  · exact IsLabel.label_stamp.plainLine hstamp.1
  · exact IsLabel.label_start.plainLine (dueOn_plain dueOn).1
  · exact IsLabel.label_last.plainLine (nextDay_plain dueOn).1

/-- The end marker stands in none of the lines before the title. -/
theorem earlyLines_unmarked (hid : PlainId task.id) (hstamp : PlainStamp stamp) :
    ∀ line ∈ earlyLines stamp task dueOn, ¬ endEvent <:+: line := by
  intro line hline hinside
  simp only [earlyLines, List.mem_cons, List.not_mem_nil, or_false] at hline
  rcases hline with rfl | rfl | rfl | rfl
  · have hvalue := inside_of_labelled IsLabel.label_uid.uncoloned (by decide) hinside
    have hsite : units "@shishi.local" = 0x40 :: units "shishi.local" := by decide
    rw [hsite, inside_append_delimiter_iff endEvent_ne_nil (parts_endEvent (Or.inr (Or.inr rfl)))] at hvalue
    rcases hvalue with hvalue | hvalue
    · exact hid.unmarked hvalue
    · exact not_inside_of_uncoloned (by decide) hvalue
  · exact not_inside_of_uncoloned hstamp.2
      (inside_of_labelled IsLabel.label_stamp.uncoloned (by decide) hinside)
  · exact not_inside_of_uncoloned (dueOn_plain dueOn).2
      (inside_of_labelled IsLabel.label_start.uncoloned (by decide) hinside)
  · exact not_inside_of_uncoloned (nextDay_plain dueOn).2
      (inside_of_labelled IsLabel.label_last.uncoloned (by decide) hinside)

end

end ShishiTodo.Export
