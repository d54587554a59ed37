import ShishiTodo.Export.EventBlocks

/-!
# The calendar round trip

Every exported task is read back as one event. Its title and its note come back as they were unless they spell a line break, end in white space or hold the end marker.
-/

namespace ShishiTodo.Export

open Lib Tasks Recurring

/-! ### The event that is read -/

theorem upToEnd_begins (text : JsText) : upToEnd text <+: text := by
  unfold upToEnd
  split
  · exact List.prefix_rfl
  · rename_i hcut
    rw [(cutAt_some endEvent_ne_nil hcut).1]
    exact List.prefix_append _ _

theorem upToEnd_ne_nil {text : JsText} (h : text ≠ []) : upToEnd text ≠ [] := by
  unfold upToEnd
  split
  · exact h
  · simp [endEvent_ne_nil]

namespace Title

theorem cleaned (title : Title) : title.text ≠ [] ∧ ∃ raw, title.text = Tasks.cleanSingleLine raw := by
  obtain ⟨raw, haccepted⟩ := title.accepted
  rw [assertTitle] at haccepted
  by_cases hnone : Tasks.cleanSingleLine raw = []
  · rw [if_pos hnone] at haccepted
    cases haccepted
  · rw [if_neg hnone] at haccepted
    have htext := Except.ok.inj haccepted
    exact ⟨htext ▸ hnone, raw, htext.symm⟩

theorem singleLine (title : Title) : SingleLine title.text := by
  obtain ⟨-, raw, hraw⟩ := title.cleaned
  rw [hraw]
  exact singleLine_cleanSingleLine raw

theorem begins (title : Title) : title.text.dropWhile JsText.isSpace = title.text := by
  obtain ⟨-, raw, hraw⟩ := title.cleaned
  rw [hraw]
  exact cleanSingleLine_begins raw

end Title

theorem trim_upToEnd_ne_nil (title : Title) : JsText.trim (upToEnd title.text) ≠ [] := by
  have hbegins := dropWhile_of_begins (upToEnd_begins title.text) title.begins
  rw [trim_of_begins hbegins]
  intro hnone
  rw [List.rdropWhile_eq_nil_iff] at hnone
  have hempty : (upToEnd title.text).dropWhile JsText.isSpace = [] := List.dropWhile_eq_nil_iff.mpr hnone
  exact upToEnd_ne_nil title.cleaned.1 (hbegins.symm.trans hempty)

/-- What comes back of an exported task. -/
def readBack (task : CalendarTask) (dueOn : ReferenceDate) : ImportedCalendarTask where
  title := reread (JsText.trim (upToEnd task.title.text))
  note := if endEvent <:+: task.title.text then [] else reread (withoutReturns (upToEnd task.note.text))
  dueOn := units dueOn.text

theorem unescapeText_escapeText (value : JsText) : unescapeText (escapeText value) = reread (withoutReturns value) := by
  rw [escapeText_eq, unescapeText_escaped]

/-- A title is read without the white space at its end. -/
theorem unescapeText_title (title : Title) :
    unescapeText (JsText.trim (escapeText (upToEnd title.text))) = reread (JsText.trim (upToEnd title.text)) := by
  have hplain := title.singleLine.plain
  have hbegins := (upToEnd_begins title.text).subset
  have hfeed : 0x0A ∉ upToEnd title.text := fun h => absurd (hplain _ (hbegins h)) (by decide)
  have hreturn : 0x0D ∉ upToEnd title.text := fun h => absurd (hplain _ (hbegins h)) (by decide)
  have htrimmed : 0x0D ∉ JsText.trim (upToEnd title.text) := fun h => hreturn ((trim_part _).subset h)
  rw [trim_escapeText hfeed hreturn, unescapeText_escapeText, withoutReturns_of_plain htrimmed]

section

variable {toUpperCase : JsText → JsText} {stamp : JsText} {task : CalendarTask} {dueOn : ReferenceDate}

theorem readEvent_of_fields {block summary start : JsText} {fields : OrderedMap JsText JsText}
    (hfields : blockFields toUpperCase block = fields) (hsummary : fields.get (units "SUMMARY") = some summary)
    (hstart : fields.get (units "DTSTART") = some start) (htitle : unescapeText (JsText.trim summary) ≠ [])
    (hdate : datedText (JsText.trim start) ≠ []) :
    readEvent toUpperCase block = some ⟨unescapeText (JsText.trim summary),
      unescapeText ((fields.get (units "DESCRIPTION")).getD []), datedText (JsText.trim start)⟩ := by
  rw [readEvent, hfields, hsummary, hstart]
  exact if_neg (not_or.mpr ⟨htitle, hdate⟩)

theorem readEvent_first (hupper : FixesCapitals toUpperCase) (hid : PlainId task.id) (hstamp : PlainStamp stamp)
    {late : JsText} (hlate : LateFields toUpperCase task (splitLines (late ++ endEvent))) :
    readEvent toUpperCase (beginEvent ++ (0x0D :: 0x0A :: ended (earlyLines stamp task dueOn) ++ late) ++ endEvent) =
      some (readBack task dueOn) := by
  generalize hlines : splitLines (late ++ endEvent) = lines at hlate
  have hblock : splitLines (beginEvent ++
      (0x0D :: 0x0A :: ended (earlyLines stamp task dueOn) ++ late) ++ endEvent) =
      (beginEvent :: earlyLines stamp task dueOn) ++ lines := by
    have hfeeds : ∀ line ∈ earlyLines stamp task dueOn, 0x0A ∉ line :=
      fun line hline => (earlyLines_plain hid hstamp line hline).oneLine
    have htext : beginEvent ++ (0x0D :: 0x0A :: ended (earlyLines stamp task dueOn) ++ late) ++ endEvent =
        beginEvent ++ 0x0D :: 0x0A :: (ended (earlyLines stamp task dueOn) ++ (late ++ endEvent)) := by
      simp
    rw [htext, splitLines_append beginEvent_plain.oneLine, splitLines_ended hfeeds, hlines, List.cons_append]
  have hearly := earlyLines_named stamp task dueOn
  generalize hfields : blockFields toUpperCase (beginEvent ++
    (0x0D :: 0x0A :: ended (earlyLines stamp task dueOn) ++ late) ++ endEvent) = fields
  have hrun := hfields
  rw [blockFields, hblock] at hrun
  have hsummary : fields.get (units "SUMMARY") = some (escapeText (upToEnd task.title.text)) := by
    rw [← hrun, List.foldl_append]
    exact hlate.summary _
  have hdescription : (fields.get (units "DESCRIPTION")).getD [] =
      if endEvent <:+: task.title.text then [] else escapeText (upToEnd task.note.text) := by
    rw [← hrun, List.foldl_append]
    refine hlate.description _ ?_
    rw [get_fields_unnamed (unnamed_of_named hupper hearly (by decide)), OrderedMap.get_empty]
  have hstart : fields.get (units "DTSTART") = some (withoutHyphens (units dueOn.text)) := by
    have hfield := IsLabel.label_start.field hupper (withoutHyphens (units dueOn.text))
    have hlast := unnamed_of_named hupper (named_singleton IsLabel.label_last (nextDay dueOn))
      (by decide : units "DTSTART" ∉ [units "DTEND"])
    rw [← hrun]
    exact get_fields_last hfield [beginEvent, labelled (units "UID") (task.id ++ units "@shishi.local"),
      labelled (units "DTSTAMP") stamp] (unnamed_append hlast hlate.undated) OrderedMap.empty
  have htitle : unescapeText (JsText.trim (escapeText (upToEnd task.title.text))) ≠ [] := by
    rw [unescapeText_title]
    intro hnone
    have hlength := congrArg List.length hnone
    rw [length_reread] at hlength
    exact trim_upToEnd_ne_nil task.title (List.length_eq_zero_iff.mp hlength)
  have hdate : datedText (JsText.trim (withoutHyphens (units dueOn.text))) ≠ [] := by
    obtain ⟨year, month, day, -, -, hunits⟩ := dueOn_units dueOn
    rw [datedText_dueOn, hunits]
    simp
  have hnote : unescapeText (if endEvent <:+: task.title.text then [] else escapeText (upToEnd task.note.text)) =
      if endEvent <:+: task.title.text then [] else reread (withoutReturns (upToEnd task.note.text)) := by
    split
    · rfl
    · exact unescapeText_escapeText _
  rw [readEvent_of_fields hfields hsummary hstart htitle hdate, hdescription, hnote, unescapeText_title,
    datedText_dueOn, readBack]

/-- An exported task is read back as one event. -/
theorem read_event (hupper : FixesCapitals toUpperCase) (hid : PlainId task.id) (hstamp : PlainStamp stamp)
    (tail : JsText) :
    (blocks beginEvent endEvent (ended (eventLines stamp task dueOn) ++ tail)).filterMap (readEvent toUpperCase) =
      readBack task dueOn :: (blocks beginEvent endEvent tail).filterMap (readEvent toUpperCase) := by
  obtain ⟨late, hcut, hlate⟩ := exists_cut hupper task
  rw [event_blocks hupper hid hstamp hcut, readEvent_first hupper hid hstamp hlate]
  rfl

/-- What the round trip is to give: the title, the note with line feeds for its line breaks, and the date. -/
def expectedEvent (task : CalendarTask) (dueOn : ReferenceDate) : ImportedCalendarTask :=
  ⟨task.title.text, withoutReturns task.note.text, units dueOn.text⟩

def exportedTasks (read : CalendarTask → ReferenceDate → ImportedCalendarTask) (tasks : List CalendarTask) :
    List ImportedCalendarTask :=
  tasks.filterMap fun task => task.exportedOn.map (read task)

theorem read_events (hupper : FixesCapitals toUpperCase) (hstamp : PlainStamp stamp) {tasks : List CalendarTask}
    (hids : ∀ task ∈ tasks, PlainId task.id) (tail : JsText) :
    (blocks beginEvent endEvent (ended (tasks.flatMap fun task =>
      (task.exportedOn.map (eventLines stamp task)).getD []) ++ tail)).filterMap (readEvent toUpperCase) =
      exportedTasks readBack tasks ++ (blocks beginEvent endEvent tail).filterMap (readEvent toUpperCase) := by
  induction tasks with
  | nil => rfl
  | cons task rest ih =>
      have hrest := ih fun later hlater => hids later (List.mem_cons_of_mem _ hlater)
      rw [List.flatMap_cons, ended_append, List.append_assoc, exportedTasks, List.filterMap_cons]
      cases task.exportedOn with
      | none => exact hrest
      | some dueOn =>
          have hevent := fun later => @read_event toUpperCase stamp task dueOn hupper (hids task List.mem_cons_self) hstamp later
          exact (hevent _).trans (congrArg (readBack task dueOn :: ·) hrest)

theorem header_unopened : ∀ line ∈ calendarHeader, ¬ beginEvent <:+: line := by
  rw [beginEvent_eq]
  decide

theorem header_plain : ∀ line ∈ calendarHeader, 0x0A ∉ line ∧ line.head?.all isBlankUnit = false := by
  decide

theorem PlainLine.of_head {line : JsText} (h : 0x0A ∉ line ∧ line.head?.all isBlankUnit = false) : PlainLine line := by
  refine ⟨h.1, ?_⟩
  cases line with
  | nil => cases h.2
  | cons unit rest => exact ⟨unit, rest, rfl, by simpa using h.2⟩

theorem eventLines_plain (hid : PlainId task.id) (hstamp : PlainStamp stamp) :
    ∀ line ∈ eventLines stamp task dueOn, PlainLine line := by
  intro line hline
  rw [eventLines_eq] at hline
  rcases List.mem_cons.mp hline with rfl | hline
  · exact beginEvent_plain
  · rcases List.mem_append.mp hline with hline | hline
    · exact earlyLines_plain hid hstamp line hline
    · rcases List.mem_append.mp hline with hline | hline
      · exact lateLines_plain task line hline
      · rw [List.mem_singleton.mp hline]
        exact endEvent_plain

theorem calendarLines_plain (hstamp : PlainStamp stamp) {tasks : List CalendarTask}
    (hids : ∀ task ∈ tasks, PlainId task.id) : ∀ line ∈ calendarLines stamp tasks, PlainLine line := by
  intro line hline
  rcases List.mem_append.mp hline with hline | hline
  · rcases List.mem_append.mp hline with hline | hline
    · exact .of_head (header_plain line hline)
    · obtain ⟨task, htask, hline⟩ := List.mem_flatMap.mp hline
      cases hexported : task.exportedOn with
      | none =>
          rw [hexported] at hline
          cases hline
      | some dueOn =>
          rw [hexported] at hline
          exact eventLines_plain (hids task htask) hstamp line hline
  · rw [List.mem_singleton.mp hline]
    exact .of_head (by decide)

/-- The tasks that are read, whatever their texts are. -/
theorem fromIcs_toIcs (hupper : FixesCapitals toUpperCase) {tasks : List CalendarTask} (now : IsoInstant)
    (hids : ∀ task ∈ tasks, PlainId task.id) :
    fromIcs toUpperCase (toIcs tasks now) = exportedTasks readBack tasks := by
  have hstamp := plainStamp_stampOf now
  have hsome : (calendarLines (stampOf now) tasks).map foldIcsLine ≠ [] := by
    simp [calendarLines]
  have hopened : ¬ beginEvent <:+: units "END:VCALENDAR" := by
    rw [beginEvent_eq]
    decide
  have hend : blocks beginEvent endEvent (ended [units "END:VCALENDAR"]) = [] := by
    have hclosing : ∀ line ∈ [units "END:VCALENDAR"], ¬ beginEvent <:+: line := by
      intro line hline
      rw [List.mem_singleton.mp hline]
      exact hopened
    rw [← List.append_nil (ended _), blocks_ended hclosing]
    exact blocks_of_none rfl
  have hunfolded : unfoldLines (toIcs tasks now) = ended (calendarLines (stampOf now) tasks) := by
    rw [toIcs, joinTexts_append_glue hsome]
    exact unfoldLines_folded (calendarLines_plain hstamp hids)
  rw [fromIcs, hunfolded, calendarLines, ended_append, ended_append, List.append_assoc,
    blocks_ended header_unopened, read_events hupper hstamp hids, hend, List.filterMap_nil, List.append_nil]

end

/-! ### What survives -/

/-- A task that comes back as it was: its title ends in no white space, no letter `n` stands after a backslash, and the end marker stands nowhere but at the end of the title or, where the title is without it, of the note. -/
structure Survives (task : CalendarTask) : Prop where
  title_trimmed : JsText.trim task.title.text = task.title.text
  title_spelled : NoBreakSpelled task.title.text
  title_closed : Closed task.title.text
  note_spelled : NoBreakSpelled (withoutReturns task.note.text)
  note_closed : Closed task.note.text
  note_read : endEvent <:+: task.title.text → task.note.text = []

theorem title_read_iff (title : Title) : reread (JsText.trim (upToEnd title.text)) = title.text ↔
    JsText.trim title.text = title.text ∧ NoBreakSpelled title.text ∧ Closed title.text := by
  constructor
  · intro hread
    have hbegins := dropWhile_of_begins (upToEnd_begins title.text) title.begins
    have hpart : JsText.trim (upToEnd title.text) <+: upToEnd title.text := by
      rw [trim_of_begins hbegins]
      exact List.rdropWhile_prefix _ _
    have hlength := congrArg List.length hread
    rw [length_reread] at hlength
    have hwhole : JsText.trim (upToEnd title.text) = title.text :=
      (hpart.trans (upToEnd_begins title.text)).eq_of_length hlength
    have hclosed : upToEnd title.text = title.text := by
      refine (upToEnd_begins title.text).eq_of_length ?_
      have hshort := hpart.length_le
      have hlong := (upToEnd_begins title.text).length_le
      omega
    rw [hwhole] at hread
    rw [hclosed] at hwhole
    exact ⟨hwhole, (reread_eq_iff _).mp hread, (upToEnd_eq_iff _).mp hclosed⟩
  · rintro ⟨htrimmed, hspelled, hclosed⟩
    rw [(upToEnd_eq_iff _).mpr hclosed, htrimmed, (reread_eq_iff _).mpr hspelled]

/-- The line breaks of a text that ends with the marker are those of its beginning. -/
theorem withoutReturns_upToEnd (text : JsText) :
    ∃ rest, text = upToEnd text ++ rest ∧
      withoutReturns text = withoutReturns (upToEnd text) ++ withoutReturns rest := by
  unfold upToEnd
  split
  · exact ⟨[], (List.append_nil _).symm, (List.append_nil _).symm⟩
  · rename_i before after hcut
    have hplace := (cutAt_some endEvent_ne_nil hcut).1
    refine ⟨after, hplace, ?_⟩
    rw [hplace, withoutReturns_append (getLast?_append_endEvent before)]

theorem note_read_iff (text : JsText) : reread (withoutReturns (upToEnd text)) = withoutReturns text ↔
    NoBreakSpelled (withoutReturns text) ∧ Closed text := by
  constructor
  · intro hread
    obtain ⟨rest, htext, hreturns⟩ := withoutReturns_upToEnd text
    have hlength := congrArg List.length hread
    rw [length_reread, hreturns, List.length_append] at hlength
    have hnone : withoutReturns rest = [] := List.length_eq_zero_iff.mp (by omega)
    rw [withoutReturns_eq_nil.mp hnone, List.append_nil] at htext
    rw [← htext] at hread
    exact ⟨(reread_eq_iff _).mp hread, (upToEnd_eq_iff _).mp htext.symm⟩
  · rintro ⟨hspelled, hclosed⟩
    rw [(upToEnd_eq_iff _).mpr hclosed, (reread_eq_iff _).mpr hspelled]

theorem readBack_eq_iff (task : CalendarTask) (dueOn : ReferenceDate) :
    readBack task dueOn = expectedEvent task dueOn ↔ Survives task := by
  rw [readBack, expectedEvent, ImportedCalendarTask.mk.injEq, title_read_iff, and_iff_left rfl]
  constructor
  · rintro ⟨⟨htrimmed, hspelled, hclosed⟩, hnote⟩
    by_cases hmarked : endEvent <:+: task.title.text
    · rw [if_pos hmarked] at hnote
      have hempty := withoutReturns_eq_nil.mp hnote.symm
      refine ⟨htrimmed, hspelled, hclosed, ?_, ?_, fun _ => hempty⟩
      · rw [hempty]
        exact List.IsChain.nil
      · rw [hempty]
        intro before after hplace
        have hnothing := (List.append_eq_nil_iff.mp hplace.symm).2
        exact absurd (List.append_eq_nil_iff.mp hnothing).1 endEvent_ne_nil
    · rw [if_neg hmarked] at hnote
      obtain ⟨hnoteSpelled, hnoteClosed⟩ := (note_read_iff _).mp hnote
      exact ⟨htrimmed, hspelled, hclosed, hnoteSpelled, hnoteClosed, fun hinside => absurd hinside hmarked⟩
  · intro h
    refine ⟨⟨h.title_trimmed, h.title_spelled, h.title_closed⟩, ?_⟩
    by_cases hmarked : endEvent <:+: task.title.text
    · rw [if_pos hmarked, h.note_read hmarked]
      rfl
    · rw [if_neg hmarked]
      exact (note_read_iff _).mpr ⟨h.note_spelled, h.note_closed⟩

theorem exportedTasks_eq_iff (tasks : List CalendarTask) :
    exportedTasks readBack tasks = exportedTasks expectedEvent tasks ↔
      ∀ task ∈ tasks, task.exportedOn ≠ none → Survives task := by
  induction tasks with
  | nil => exact iff_of_true rfl fun _ htask => absurd htask List.not_mem_nil
  | cons task rest ih =>
      rw [List.forall_mem_cons, ← ih, exportedTasks, exportedTasks, List.filterMap_cons, List.filterMap_cons]
      cases task.exportedOn with
      | none => exact ⟨fun h => ⟨fun hsome => absurd rfl hsome, h⟩, fun h => h.2⟩
      | some dueOn =>
          refine (List.cons.injEq _ _ _ _).to_iff.trans (and_congr ?_ Iff.rfl)
          rw [readBack_eq_iff]
          exact ⟨fun h _ => h, fun h => h (Option.some_ne_none _)⟩

/-- The calendar gives back what went into it exactly when every exported task survives. -/
theorem calendar_round_trip_iff {toUpperCase : JsText → JsText} (hupper : FixesCapitals toUpperCase)
    (tasks : List CalendarTask) (now : IsoInstant) (hids : ∀ task ∈ tasks, PlainId task.id) :
    fromIcs toUpperCase (toIcs tasks now) = exportedTasks expectedEvent tasks ↔
      ∀ task ∈ tasks, task.exportedOn ≠ none → Survives task := by
  rw [fromIcs_toIcs hupper now hids]
  exact exportedTasks_eq_iff tasks

/-! ### Two tasks -/

def asciiUpper (text : JsText) : JsText := text.map fun unit => if 0x61 ≤ unit ∧ unit ≤ 0x7A then unit - 0x20 else unit

theorem fixesCapitals_asciiUpper : FixesCapitals asciiUpper := by
  intro name hname
  refine (List.map_congr_left fun unit hunit => ?_).trans (List.map_id name)
  have hcapital := hname unit hunit
  rw [if_neg (by omega)]
  rfl

def autumnMorning : IsoInstant := ⟨units "2026-10-22T00:00:00.000Z", by decide⟩

def autumnDay : ReferenceDate := ⟨20749, by unfold Dated; decide⟩

def weeklyReport : CalendarTask where
  id := units "00000000-0000-7000-8000-000000000001"
  title := ⟨units "Report; twice, for A\\B", ⟨units "Report; twice, for A\\B", by decide⟩⟩
  note := ⟨units "one\ntwo", ⟨units "one\r\ntwo", by decide⟩⟩
  tags := some [units "END:VEVENT"]
  status := .open
  dueOn := some autumnDay
  deletedAt := none

/-- The title names a folder of Windows. -/
def newFolder : CalendarTask :=
  { weeklyReport with title := ⟨units "C:\\new", ⟨units "C:\\new", by decide⟩⟩ }

theorem closed_of_free {text : JsText} (h : ¬ endEvent <:+: text) : Closed text :=
  fun before after hplace => absurd ⟨before, after, by rw [hplace, List.append_assoc]⟩ h

theorem plainId_weeklyReport : PlainId weeklyReport.id := by
  refine ⟨by decide, ?_⟩
  rw [endEvent_eq]
  decide

theorem survives_weeklyReport : Survives weeklyReport where
  title_trimmed := by decide
  title_spelled := by decide
  title_closed := closed_of_free (by decide)
  note_spelled := by decide
  note_closed := closed_of_free (by decide)
  note_read := fun h => absurd h (by decide)

theorem weeklyReport_comes_back : fromIcs asciiUpper (toIcs [weeklyReport] autumnMorning) =
    exportedTasks expectedEvent [weeklyReport] := by
  refine (calendar_round_trip_iff fixesCapitals_asciiUpper [weeklyReport] autumnMorning fun task htask => ?_).mpr
    fun task htask _ => ?_
  · rw [List.mem_singleton.mp htask]
    exact plainId_weeklyReport
  · rw [List.mem_singleton.mp htask]
    exact survives_weeklyReport

/-- The `n` of the folder's name is read as a line break. -/
theorem newFolder_misread : ¬ ∀ toUpperCase : JsText → JsText, FixesCapitals toUpperCase →
    ∀ (tasks : List CalendarTask) (now : IsoInstant), (∀ task ∈ tasks, PlainId task.id) →
      fromIcs toUpperCase (toIcs tasks now) = exportedTasks expectedEvent tasks := by
  intro h
  have hids : ∀ task ∈ [newFolder], PlainId task.id := by
    intro task htask
    rw [List.mem_singleton.mp htask]
    exact plainId_weeklyReport
  have hread := h asciiUpper fixesCapitals_asciiUpper [newFolder] autumnMorning hids
  rw [fromIcs_toIcs fixesCapitals_asciiUpper autumnMorning hids, exportedTasks_eq_iff] at hread
  have hsurvives := hread newFolder (List.mem_singleton_self _) (Option.some_ne_none autumnDay)
  exact absurd hsurvives.title_spelled (by decide)

end ShishiTodo.Export
