import ShishiTodo.Export.EventLines

/-!
# The blocks of an event

The first block of an event ends where the end marker first stands: after the lines of the event, in the note or in the title. The blocks after it have no date and are not read.
-/

namespace ShishiTodo.Export

open Lib Tasks Recurring

/-! ### The blocks of an event -/

theorem splitLines_append_plain {front : JsText} (hfeed : 0x0A ∉ front) (hreturn : 0x0D ∉ front) (text : JsText) :
    splitLines (front ++ text) = (splitLines text).modifyHead (front ++ ·) := by
  induction front with
  | nil =>
      rw [List.nil_append]
      cases splitLines text <;> rfl
  | cons unit rest ih =>
      rw [List.mem_cons, not_or] at hfeed hreturn
      rw [List.cons_append, splitLines, if_neg (Ne.symm hfeed.1), if_neg (fun h => hreturn.1 h.1.symm),
        ih hfeed.2 hreturn.2]
      cases splitLines text <;> rfl

theorem ended_append (front back : List JsText) : ended (front ++ back) = ended front ++ ended back :=
  List.flatMap_append

theorem ended_delimited {lines : List JsText} (hsome : lines ≠ []) : [0x0A] <:+ ended lines := by
  induction lines with
  | nil => exact absurd rfl hsome
  | cons line rest ih =>
      rw [ended_cons]
      cases rest with
      | nil => exact ⟨line ++ [0x0D], by simp [ended]⟩
      | cons next more => exact (ih (List.cons_ne_nil _ _)).trans ⟨line ++ [0x0D, 0x0A], by simp⟩

/-- The lines of a beginning of the text. -/
theorem lines_of_start {lines : List JsText} (hlines : ∀ line ∈ lines, 0x0A ∉ line) {part after : JsText}
    (h : ended lines = part ++ after) :
    ∀ line ∈ splitLines part, line = [] ∨ ∃ whole ∈ lines, line <+: whole ++ [0x0D] := by
  obtain ⟨first, others, hsplit, hfree, ⟨more, hmore⟩, -⟩ := splitLines_places part
  have hpart : ended lines = [] ++ (part ++ after) := h
  obtain ⟨first', others', hsplit', -, hothers⟩ := lines_of_part hlines hpart
  obtain ⟨rfl, rfl⟩ := List.cons.inj (hsplit.symm.trans hsplit')
  intro line hline
  rw [hsplit] at hline
  rcases List.mem_cons.mp hline with rfl | hline
  · exact line_of_begin hfree (by rw [h, ← hmore, List.append_assoc])
  · exact hothers line hline

/-- A block that begins after the dates is no event. -/
theorem readEvent_of_undated {toUpperCase : JsText → JsText} {block : JsText}
    (h : Unnamed toUpperCase (units "DTSTART") (splitLines block)) : readEvent toUpperCase block = none := by
  have hstart : (blockFields toUpperCase block).get (units "DTSTART") = none := by
    rw [blockFields, get_fields_unnamed h, OrderedMap.get_empty]
  rw [readEvent, hstart, if_pos]
  exact Or.inr rfl

section

variable {toUpperCase : JsText → JsText} {stamp : JsText} {task : CalendarTask} {dueOn : ReferenceDate}

/-- Where the first block of an event is cut: at the first end marker after the dates. -/
structure CutsAt (task : CalendarTask) (late : JsText) : Prop where
  first : ¬ endEvent <:+: late
  place : ended (lateLines task) = late ∨ ∃ rest, ended (lateLines task) = late ++ (endEvent ++ rest)

theorem event_text (stamp : JsText) (task : CalendarTask) (dueOn : ReferenceDate) (tail : JsText) : ended (eventLines stamp task dueOn) ++ tail =
    beginEvent ++ (0x0D :: 0x0A :: ended (earlyLines stamp task dueOn) ++
      (ended (lateLines task) ++ (endEvent ++ 0x0D :: 0x0A :: tail))) := by
  rw [eventLines_eq, ended_cons, ended_append, ended_append]
  simp [ended, lineBreak]

/-- The blocks after the first begin in the text of the task, and have no date. -/
theorem readEvent_of_later (hupper : FixesCapitals toUpperCase) {block before after : JsText}
    (hbegins : beginEvent <+: block) (h : ended (lateLines task ++ [endEvent]) = before ++ (block ++ after)) :
    readEvent toUpperCase block = none := by
  have hfeeds : ∀ line ∈ lateLines task ++ [endEvent], 0x0A ∉ line := by
    intro line hline
    rcases List.mem_append.mp hline with hline | hline
    · exact (lateLines_plain task line hline).oneLine
    · rw [List.mem_singleton.mp hline]
      exact endEvent_plain.oneLine
  obtain ⟨more, rfl⟩ := hbegins
  have hmore : ended (lateLines task ++ [endEvent]) = (before ++ beginEvent) ++ (more ++ after) := by
    rw [h]
    simp
  obtain ⟨first, others, hsplit, -, hothers⟩ := lines_of_part hfeeds hmore
  have hlines : splitLines (beginEvent ++ more) = (beginEvent ++ first) :: others := by
    rw [splitLines_append_plain beginEvent_plain.oneLine (parts_beginEvent (Or.inl rfl)), hsplit]
    rfl
  have hundated : units "DTSTART" ∉
      [units "SUMMARY", units "DESCRIPTION", units "CATEGORIES", units "STATUS", units "END"] := by decide
  refine readEvent_of_undated ?_
  rw [hlines]
  intro line hline value hfield
  rcases List.mem_cons.mp hline with rfl | hline
  · have hfirst : beginEvent ++ first = labelled (units "BEGIN") (units "VEVENT" ++ first) := by
      rw [beginEvent_labelled, labelled, labelled, List.append_assoc, List.cons_append]
    rw [hfirst, IsLabel.label_begin.field hupper] at hfield
    exact absurd (Prod.mk.inj (Option.some.inj hfield)).1 (by decide)
  · exact unnamed_of_parts hupper (lateLines_named task) hothers hundated line hline value hfield

/-- An event has one block with a date, and it ends where the text of the task is cut. -/
theorem event_blocks (hupper : FixesCapitals toUpperCase) (hid : PlainId task.id) (hstamp : PlainStamp stamp)
    {late : JsText} (hcut : CutsAt task late) (tail : JsText) :
    (blocks beginEvent endEvent (ended (eventLines stamp task dueOn) ++ tail)).filterMap (readEvent toUpperCase) =
      (readEvent toUpperCase (beginEvent ++
        (0x0D :: 0x0A :: ended (earlyLines stamp task dueOn) ++ late) ++ endEvent)).toList ++
        (blocks beginEvent endEvent tail).filterMap (readEvent toUpperCase) := by
  have hearly : ¬ endEvent <:+: 0x0D :: 0x0A :: ended (earlyLines stamp task dueOn) ++ late := by
    intro hinside
    have hwhole : 0x0D :: 0x0A :: ended (earlyLines stamp task dueOn) ++ late =
        ended ([] :: earlyLines stamp task dueOn) ++ late := by
      rw [ended_cons, List.nil_append]
    rw [hwhole] at hinside
    refine hcut.first (inside_of_ended (fun line hline => ?_) hinside)
    rcases List.mem_cons.mp hline with rfl | hline
    · rw [List.infix_nil]
      exact endEvent_ne_nil
    · exact earlyLines_unmarked hid hstamp line hline
  have hbegin : ¬ beginEvent <:+: ([] : JsText) := fun h => bracketing.opens (List.infix_nil.mp h)
  have hafter : blocks beginEvent endEvent (0x0D :: 0x0A :: tail) = blocks beginEvent endEvent tail := by
    rw [bracketing.blocks_delimiter (parts_beginEvent (Or.inl rfl)),
      bracketing.blocks_delimiter (parts_beginEvent (Or.inr rfl))]
  have hfirst (later : JsText) := @Bracketing.blocks_first _ _ _ _ _ _ later bracketing hbegin hearly
  rw [event_text]
  rcases hcut.place with hplace | ⟨rest, hplace⟩
  · rw [hplace, ← List.append_assoc _ late, ← List.nil_append (beginEvent ++ _), hfirst, List.filterMap_cons,
      hafter]
    cases readEvent toUpperCase (beginEvent ++
      (0x0D :: 0x0A :: ended (earlyLines stamp task dueOn) ++ late) ++ endEvent) <;> rfl
  · have hdelimited : [0x0A] <:+ rest := by
      have hwhole : [0x0A] <:+ late ++ (endEvent ++ rest) := hplace ▸ ended_delimited (List.cons_ne_nil _ _)
      exact delimited_rest endEvent_ne_nil (parts_endEvent (Or.inr (Or.inl rfl))) hwhole
    obtain ⟨found, hfound, hblocks⟩ := @Bracketing.blocks_rest _ _ _ _ rest _ (0x0A :: tail) 0x0D bracketing
      (parts_beginEvent (Or.inr rfl)) (parts_endEvent (Or.inr (Or.inl rfl))) (parts_beginEvent (Or.inl rfl))
      (Or.inr hdelimited)
    have hnone : found.filterMap (readEvent toUpperCase) = [] := by
      rw [List.filterMap_eq_nil_iff]
      intro block hblock
      obtain ⟨hbegins, before, after, hinside⟩ := hblocks block hblock
      have hwhole : ended (lateLines task ++ [endEvent]) =
          (late ++ endEvent ++ before) ++ (block ++ (after ++ lineBreak)) := by
        rw [ended_append, hplace]
        have hend : ended [endEvent] = endEvent ++ lineBreak := by simp [ended]
        rw [hend, List.append_assoc late, List.append_assoc endEvent, ← List.append_assoc rest, ← hinside]
        simp
      exact readEvent_of_later hupper hbegins hwhole
    have htext : 0x0D :: 0x0A :: ended (earlyLines stamp task dueOn) ++
        (late ++ (endEvent ++ rest) ++ (endEvent ++ 0x0D :: 0x0A :: tail)) =
        (0x0D :: 0x0A :: ended (earlyLines stamp task dueOn) ++ late) ++
          (endEvent ++ (rest ++ (endEvent ++ 0x0D :: 0x0A :: tail))) := by
      simp
    rw [hplace, htext, ← List.nil_append (beginEvent ++ _), hfirst, List.filterMap_cons, hfound,
      List.filterMap_append, hnone, bracketing.blocks_delimiter (parts_beginEvent (Or.inr rfl)), List.nil_append]
    cases readEvent toUpperCase (beginEvent ++
      (0x0D :: 0x0A :: ended (earlyLines stamp task dueOn) ++ late) ++ endEvent) <;> rfl

/-! ### What is read of an event -/

/-- The fields that the lines after the dates give. -/
structure LateFields (toUpperCase : JsText → JsText) (task : CalendarTask) (lines : List JsText) : Prop where
  summary : ∀ fields : OrderedMap JsText JsText,
    (lines.foldl (setField toUpperCase) fields).get (units "SUMMARY") = some (escapeText (upToEnd task.title.text))
  description : ∀ fields : OrderedMap JsText JsText, fields.get (units "DESCRIPTION") = none →
    ((lines.foldl (setField toUpperCase) fields).get (units "DESCRIPTION")).getD [] =
      if endEvent <:+: task.title.text then [] else escapeText (upToEnd task.note.text)
  undated : Unnamed toUpperCase (units "DTSTART") lines

theorem unmarked_titleLine {value : JsText} (h : ¬ endEvent <:+: value) :
    ¬ endEvent <:+: labelled (units "SUMMARY") (escapeText value) := fun hinside =>
  h (inside_of_escapeText (inside_of_labelled IsLabel.label_summary.uncoloned (by decide) hinside))

theorem unmarked_noteLine {value : JsText} (h : ¬ endEvent <:+: value) :
    ¬ endEvent <:+: labelled (units "DESCRIPTION") (escapeText value) := fun hinside =>
  h (inside_of_escapeText (inside_of_labelled IsLabel.label_description.uncoloned (by decide) hinside))

theorem labelled_append (label value more : JsText) : labelled label (value ++ more) = labelled label value ++ more := by
  rw [labelled, labelled, List.append_assoc, List.cons_append]

theorem named_singleton {label name : JsText} (h : IsLabel label name) (value : JsText) :
    Named [name] [labelled label value] := by
  intro line hline
  rw [List.mem_singleton.mp hline]
  exact ⟨label, name, value, h, List.mem_singleton_self name, rfl⟩

theorem titleLine_named (task : CalendarTask) : Named [units "SUMMARY"] [titleLine task] :=
  named_singleton IsLabel.label_summary _

theorem titleLine_plain (task : CalendarTask) : PlainLine (titleLine task) :=
  IsLabel.label_summary.plainLine (feed_not_mem_escapeText _)

theorem unnamed_nil (name : JsText) : Unnamed toUpperCase name [] := fun _ hline => absurd hline List.not_mem_nil

/-- The title holds the marker: the event ends there, and the note is not read. -/
theorem cut_in_title (hupper : FixesCapitals toUpperCase) {before after : JsText}
    (htitle : task.title.text = before ++ (endEvent ++ after)) (hfirst : ¬ endEvent <:+: before) :
    ∃ late, CutsAt task late ∧ LateFields toUpperCase task (splitLines (late ++ endEvent)) := by
  have hline : labelled (units "SUMMARY") (escapeText before) ++ endEvent =
      labelled (units "SUMMARY") (escapeText (before ++ endEvent)) := by
    rw [escapeText_append_endEvent, labelled_append]
  have hlines : splitLines (labelled (units "SUMMARY") (escapeText before) ++ endEvent) =
      [labelled (units "SUMMARY") (escapeText (before ++ endEvent))] := by
    rw [hline, splitLines_line (IsLabel.label_summary.plainLine (feed_not_mem_escapeText _)).oneLine]
  have hsummary := IsLabel.label_summary.field hupper (escapeText (before ++ endEvent))
  have hnamed := named_singleton IsLabel.label_summary (escapeText (before ++ endEvent))
  refine ⟨labelled (units "SUMMARY") (escapeText before), ⟨unmarked_titleLine hfirst,
    Or.inr ⟨escapeText after ++ 0x0D :: 0x0A :: ended (noteLines task ++ lastLines task), ?_⟩⟩, ?_⟩
  · rw [lateLines, ended_cons, titleLine, htitle, escapeText_marked, labelled_append, List.append_assoc,
      List.append_assoc]
  · rw [hlines]
    refine ⟨fun fields => ?_, fun fields hnone => ?_, unnamed_of_named hupper hnamed (by decide)⟩
    · rw [htitle, upToEnd_of_first hfirst]
      exact get_fields_last hsummary [] (unnamed_nil _) fields
    · rw [if_pos ⟨before, after, by rw [htitle, List.append_assoc]⟩,
        get_fields_unnamed (unnamed_of_named hupper hnamed (by decide)), hnone]
      rfl

theorem unmarked_append_break {left right : JsText} (hleft : ¬ endEvent <:+: left) (hright : ¬ endEvent <:+: right) :
    ¬ endEvent <:+: left ++ 0x0D :: 0x0A :: right := by
  intro hinside
  rw [inside_append_delimiter_iff endEvent_ne_nil (parts_endEvent (Or.inl rfl)), ← List.nil_append (0x0A :: right),
    inside_append_delimiter_iff endEvent_ne_nil (parts_endEvent (Or.inr (Or.inl rfl)))] at hinside
  rcases hinside with hinside | hinside | hinside
  · exact hleft hinside
  · exact endEvent_ne_nil (List.infix_nil.mp hinside)
  · exact hright hinside

theorem noteLines_of_ne_nil (h : task.note.text ≠ []) :
    noteLines task = [labelled (units "DESCRIPTION") (escapeText task.note.text)] := by
  rw [noteLines, if_neg h]

/-- The note holds the marker, and the title does not. -/
theorem cut_in_note (hupper : FixesCapitals toUpperCase) (hunmarked : ¬ endEvent <:+: task.title.text)
    {before after : JsText} (hnote : task.note.text = before ++ (endEvent ++ after))
    (hfirst : ¬ endEvent <:+: before) :
    ∃ late, CutsAt task late ∧ LateFields toUpperCase task (splitLines (late ++ endEvent)) := by
  have hsome : task.note.text ≠ [] := by
    rw [hnote]
    simp [endEvent_ne_nil]
  have hline : labelled (units "DESCRIPTION") (escapeText before) ++ endEvent =
      labelled (units "DESCRIPTION") (escapeText (before ++ endEvent)) := by
    rw [escapeText_append_endEvent, labelled_append]
  have hlines : splitLines (titleLine task ++ 0x0D :: 0x0A ::
      labelled (units "DESCRIPTION") (escapeText before) ++ endEvent) =
      [titleLine task, labelled (units "DESCRIPTION") (escapeText (before ++ endEvent))] := by
    rw [List.append_assoc, List.cons_append, List.cons_append, hline,
      splitLines_append (titleLine_plain task).oneLine,
      splitLines_line (IsLabel.label_description.plainLine (feed_not_mem_escapeText _)).oneLine]
  have hsummary := IsLabel.label_summary.field hupper (escapeText task.title.text)
  have hdescription := IsLabel.label_description.field hupper (escapeText (before ++ endEvent))
  have hnoteNamed := named_singleton IsLabel.label_description (escapeText (before ++ endEvent))
  refine ⟨titleLine task ++ 0x0D :: 0x0A :: labelled (units "DESCRIPTION") (escapeText before),
    ⟨unmarked_append_break (unmarked_titleLine hunmarked) (unmarked_noteLine hfirst),
      Or.inr ⟨escapeText after ++ 0x0D :: 0x0A :: ended (lastLines task), ?_⟩⟩, ?_⟩
  · rw [lateLines, ended_cons, noteLines_of_ne_nil hsome, List.singleton_append, ended_cons, hnote,
      escapeText_marked, labelled_append]
    simp
  · rw [hlines]
    refine ⟨fun fields => ?_, fun fields _ => ?_, ?_⟩
    · rw [upToEnd_of_free hunmarked]
      exact get_fields_last hsummary [] (unnamed_of_named hupper hnoteNamed (by decide)) fields
    · rw [if_neg hunmarked, hnote, upToEnd_of_first hfirst]
      exact congrArg (Option.getD · []) (get_fields_last hdescription [titleLine task] (unnamed_nil _) fields)
    · exact unnamed_append (unnamed_of_named hupper (titleLine_named task) (by decide))
        (unnamed_of_named hupper hnoteNamed (by decide))

/-- Neither the title nor the note holds the marker: both are read whole. -/
theorem cut_after_note (hupper : FixesCapitals toUpperCase) (htitle : ¬ endEvent <:+: task.title.text)
    (hnote : ¬ endEvent <:+: task.note.text) :
    ∃ late, CutsAt task late ∧ LateFields toUpperCase task (splitLines (late ++ endEvent)) := by
  obtain ⟨part, after, hpart, hplace, hwhole⟩ : ∃ part after, ¬ endEvent <:+: part ∧
      (ended (lastLines task) = part ∨ ∃ rest, ended (lastLines task) = part ++ (endEvent ++ rest)) ∧
      ended (lastLines task ++ [endEvent]) = (part ++ endEvent) ++ after := by
    have hend : ended [endEvent] = endEvent ++ lineBreak := by simp [ended]
    by_cases hinside : endEvent <:+: ended (lastLines task)
    · obtain ⟨before, rest, hplace, hfirst⟩ := exists_first_place endEvent_ne_nil hinside
      refine ⟨before, rest ++ (endEvent ++ lineBreak), hfirst, Or.inr ⟨rest, hplace⟩, ?_⟩
      rw [ended_append, hplace, hend]
      simp
    · exact ⟨ended (lastLines task), lineBreak, hinside, Or.inl rfl, by rw [ended_append, hend, List.append_assoc]⟩
  have hfront : ∀ line ∈ titleLine task :: noteLines task, PlainLine line := by
    intro line hline
    rcases List.mem_cons.mp hline with rfl | hline
    · exact titleLine_plain task
    · exact noteLines_plain task line hline
  have hunmarked : ∀ line ∈ titleLine task :: noteLines task, ¬ endEvent <:+: line := by
    intro line hline
    rcases List.mem_cons.mp hline with rfl | hline
    · exact unmarked_titleLine htitle
    · unfold noteLines at hline
      split at hline
      · cases hline
      · rw [List.mem_singleton.mp hline]
        exact unmarked_noteLine hnote
  have hlate : ended (lateLines task) = ended (titleLine task :: noteLines task) ++ ended (lastLines task) := by
    rw [lateLines, ← List.cons_append, ended_append]
  have hfeeds : ∀ line ∈ lastLines task ++ [endEvent], 0x0A ∉ line := by
    intro line hline
    rcases List.mem_append.mp hline with hline | hline
    · exact (lastLines_plain task line hline).oneLine
    · rw [List.mem_singleton.mp hline]
      exact endEvent_plain.oneLine
  have hother {name : JsText} (hname : name ∉ [units "CATEGORIES", units "STATUS", units "END"]) :
      Unnamed toUpperCase name (splitLines (part ++ endEvent)) :=
    unnamed_of_parts hupper (lastLines_named task) (lines_of_start hfeeds hwhole) hname
  have hnoteNamed : Named [units "DESCRIPTION"] (noteLines task) := by
    unfold noteLines
    split
    · exact fun line hline => absurd hline List.not_mem_nil
    · exact named_singleton IsLabel.label_description _
  have hsummary := IsLabel.label_summary.field hupper (escapeText task.title.text)
  refine ⟨ended (titleLine task :: noteLines task) ++ part, ⟨fun h => hpart (inside_of_ended hunmarked h), ?_⟩, ?_⟩
  · rw [hlate]
    rcases hplace with hplace | ⟨rest, hplace⟩
    · exact Or.inl (by rw [hplace])
    · exact Or.inr ⟨rest, by rw [hplace, List.append_assoc]⟩
  · rw [List.append_assoc, splitLines_ended fun line hline => (hfront line hline).oneLine]
    refine ⟨fun fields => ?_, fun fields hnone => ?_, ?_⟩
    · rw [upToEnd_of_free htitle]
      exact get_fields_last hsummary [] (unnamed_append (unnamed_of_named hupper hnoteNamed (by decide))
        (hother (by decide))) fields
    · rw [if_neg htitle, upToEnd_of_free hnote]
      by_cases hempty : task.note.text = []
      · have hlines : noteLines task = [] := if_pos hempty
        have hunnamed : Unnamed toUpperCase (units "DESCRIPTION") ([titleLine task] ++ splitLines (part ++ endEvent)) :=
          unnamed_append (unnamed_of_named hupper (titleLine_named task) (by decide))
            (hother (by decide))
        rw [hlines, get_fields_unnamed hunnamed, hnone, hempty]
        rfl
      · have hdescription := IsLabel.label_description.field hupper (escapeText task.note.text)
        rw [noteLines_of_ne_nil hempty]
        exact congrArg (Option.getD · []) (get_fields_last hdescription [titleLine task] (hother (by decide)) fields)
    · exact unnamed_append (unnamed_append (unnamed_of_named hupper (titleLine_named task) (by decide))
        (unnamed_of_named hupper hnoteNamed (by decide))) (hother (by decide))

theorem exists_cut (hupper : FixesCapitals toUpperCase) (task : CalendarTask) :
    ∃ late, CutsAt task late ∧ LateFields toUpperCase task (splitLines (late ++ endEvent)) := by
  by_cases htitle : endEvent <:+: task.title.text
  · obtain ⟨before, after, hplace, hfirst⟩ := exists_first_place endEvent_ne_nil htitle
    exact cut_in_title hupper hplace hfirst
  · by_cases hnote : endEvent <:+: task.note.text
    · obtain ⟨before, after, hplace, hfirst⟩ := exists_first_place endEvent_ne_nil hnote
      exact cut_in_note hupper htitle hplace hfirst
    · exact cut_after_note hupper htitle hnote

end

end ShishiTodo.Export
