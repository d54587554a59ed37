import ShishiTodo.Web.Service

/-!
# Recurring tasks and their due dates

A task that repeats goes on to its next occurrence only from a due date. The calls of the service keep one for every such task, unless a task is made to repeat without a date, or a patch clears the date of a task that repeats: `ensureValidRecurrence` would refuse both and is called by neither.
-/

namespace ShishiTodo.Web

open Lib Native Recurring

variable {platform : Platform} {moment : Moment} {db : Db} {written : Written} {task : Task} {id : String}

theorem mapError_eq_ok_iff {ε ε' α : Type} {convert : ε → ε'} {outcome : Except ε α} {value : α} :
    outcome.mapError convert = .ok value ↔ outcome = .ok value := by
  cases outcome <;> simp [Except.mapError]

/-- A rule that counts: `null` is none. -/
def repeats (recurrence : Option Json) : Bool := recurrence.any truthy

/-- A task that repeats has a due date. -/
def KeepsDate (task : Task) : Prop := repeats task.recurrence = true → Tasks.hasDate task.dueOn = true

/-! ### Arguments -/

theorem normalizedRule_ok {input output : Option Json} (h : normalizedRule input = .ok output) :
    repeats output = repeats input ∧ output.isSome = repeats input := by
  unfold normalizedRule at h
  have hrepeats : repeats input = (input.filter truthy).isSome := by
    cases input with
    | none => rfl
    | some rule => cases hrule : truthy rule <;> simp [repeats, hrule, Option.filter]
  rw [hrepeats]
  split at h
  · rename_i hnone
    rw [← Except.ok.inj h, hnone]
    exact ⟨rfl, rfl⟩
  · rename_i hsome
    obtain ⟨regular, -, h⟩ := bind_eq_ok_iff.mp h
    rw [← Except.ok.inj h, hsome]
    exact ⟨rfl, rfl⟩

theorem normalizeNewTask_ok {texts : Texts} {input normalized : NewTask}
    (h : normalizeNewTask texts input = .ok normalized) :
    repeats normalized.recurrence = repeats input.recurrence ∧ normalized.dueOn = input.dueOn := by
  obtain ⟨title, -, h⟩ := bind_eq_ok_iff.mp h
  obtain ⟨-, -, h⟩ := bind_eq_ok_iff.mp h
  obtain ⟨-, -, h⟩ := bind_eq_ok_iff.mp h
  obtain ⟨recurrence, hrule, h⟩ := bind_eq_ok_iff.mp h
  rw [← Except.ok.inj h]
  exact ⟨(normalizedRule_ok hrule).1, rfl⟩

/-- What a patch says of the rule and of the date, once it is validated. -/
theorem validateTaskPatch_ok {now : String} {patch validated : TaskPatch}
    (h : validateTaskPatch platform now patch = .ok validated) :
    validated.dueOn = patch.dueOn ∧ (∀ dueOn, patch.dueOn = some (some dueOn) → isDateOnly dueOn = true) ∧
      (patch.recurrence = none ∧ validated.recurrence = none ∨
        ∃ rule output, patch.recurrence = some rule ∧ validated.recurrence = some output ∧
          repeats output = repeats rule ∧ output.isSome = repeats rule) := by
  obtain ⟨title, -, h⟩ := bind_eq_ok_iff.mp h
  obtain ⟨_, hdate, h⟩ := bind_eq_ok_iff.mp h
  obtain ⟨remindAt, -, h⟩ := bind_eq_ok_iff.mp h
  obtain ⟨recurrence, hrule, h⟩ := bind_eq_ok_iff.mp h
  rw [← Except.ok.inj h]
  refine ⟨rfl, ?_, ?_⟩
  · intro dueOn hdueOn
    rw [refuseIf_eq_ok_iff, hdueOn] at hdate
    simpa using hdate
  · cases hpatch : patch.recurrence with
    | none =>
        rw [hpatch] at hrule
        cases hrule
        exact .inl ⟨rfl, rfl⟩
    | some rule =>
        rw [hpatch] at hrule
        obtain ⟨output, houtput, hsome⟩ := map_eq_ok_iff.mp hrule
        exact .inr ⟨rule, output, rfl, hsome.symm, normalizedRule_ok houtput⟩

/-! ### What a call writes -/

theorem rows_localWrite (db : Db) (rows : Tables) (edits : List Edit) : (localWrite db rows edits).rows = rows := by
  unfold localWrite
  generalize hstart : ({ db with rows := rows } : Db) = start
  have hrows : start.rows = rows := by rw [← hstart]
  clear hstart
  induction edits generalizing start with
  | nil => exact hrows
  | cons edit rest ih => exact ih (appendMutation start edit) hrows

theorem createFrom_ok {input : NewTask} (h : db.createFrom platform moment input = .ok written) :
    ∃ task : Task, repeats task.recurrence = repeats input.recurrence ∧ task.dueOn = input.dueOn ∧
      task.deletedAt = none ∧ written.rows.tasks = db.rows.tasks.insert task.id task := by
  obtain ⟨normalized, hnormalized, h⟩ := bind_eq_ok_iff.mp h
  obtain ⟨again, hagain, h⟩ := bind_eq_ok_iff.mp h
  have hfirst := normalizeNewTask_ok (mapError_eq_ok_iff.mp hnormalized)
  have hsecond := normalizeNewTask_ok (mapError_eq_ok_iff.mp hagain)
  obtain ⟨-, -, h⟩ := bind_eq_ok_iff.mp (mapError_eq_ok_iff.mp h)
  refine ⟨makeTask platform.texts moment.supply.id (prepared again) moment.supply.now
    (nextRank platform.beyond (db.rows.tasks.values.map Task.rank)), hsecond.1.trans hfirst.1,
    hsecond.2.trans hfirst.2, rfl, ?_⟩
  split at h
  · rw [← Except.ok.inj h]
    rfl
  · rw [← Except.ok.inj h]
    rfl

theorem patchFrom_ok {patch : TaskPatch} (h : db.patchFrom platform moment id patch = .ok written) :
    ∃ current changed : Task, db.liveTask id = some current ∧
      repeats changed.recurrence = repeats (patch.recurrence.getD current.recurrence) ∧
      changed.dueOn = patch.dueOn.getD current.dueOn ∧ changed.deletedAt = current.deletedAt ∧
      written.rows.tasks = db.rows.tasks.insert changed.id changed := by
  obtain ⟨validated, hvalidated, h⟩ := bind_eq_ok_iff.mp h
  obtain ⟨hdueOn, -, hrule⟩ := validateTaskPatch_ok (mapError_eq_ok_iff.mp hvalidated)
  obtain ⟨current, hcurrent, h⟩ := bind_eq_ok_iff.mp (mapError_eq_ok_iff.mp h)
  obtain ⟨-, -, h⟩ := bind_eq_ok_iff.mp h
  have hlive : db.liveTask id = some current := by
    cases hfound : db.liveTask id with
    | none =>
        rw [hfound] at hcurrent
        cases hcurrent
    | some found =>
        rw [hfound] at hcurrent
        rw [Except.ok.inj hcurrent]
  refine ⟨current, { validated.onto current with updatedAt := moment.supply.now }, hlive, ?_, ?_, rfl, ?_⟩
  · rcases hrule with ⟨hnone, hsame⟩ | ⟨rule, output, hsome, houtput, hsame, -⟩
    · rw [hnone]
      change repeats (validated.recurrence.getD current.recurrence) = _
      rw [hsame]
    · rw [hsome]
      change repeats (validated.recurrence.getD current.recurrence) = _
      rw [houtput]
      exact hsame
  · change validated.dueOn.getD current.dueOn = _
    rw [hdueOn]
  · rw [← Except.ok.inj h]
    rfl

/-- The next instance of a task that repeats has a date, and there is one when the task has a date. -/
theorem nextRecurringTask_ok {task : Task} {completionDate newId now : String} {outcome : Option Task}
    (h : nextRecurringTask task completionDate newId now = .ok outcome) :
    (∀ next, outcome = some next → Tasks.hasDate next.dueOn = true ∧ next.recurrence = task.recurrence ∧
      next.status = .open ∧ next.deletedAt = none) ∧
    (repeats task.recurrence = true → Tasks.hasDate task.dueOn = true → task.status = .completed →
      outcome.isSome) := by
  unfold nextRecurringTask at h
  split at h
  · rename_i hrule
    rw [← Except.ok.inj h]
    refine ⟨fun _ hnext => (by cases hnext), fun hrepeats => ?_⟩
    rw [hrule] at hrepeats
    cases hrepeats
  · rename_i hrule
    rw [← Except.ok.inj h]
    refine ⟨fun _ hnext => (by cases hnext), fun hrepeats => ?_⟩
    rw [hrule] at hrepeats
    cases hrepeats
  · rename_i hdue hsome hnull
    rw [← Except.ok.inj h]
    refine ⟨fun _ hnext => (by cases hnext), fun _ hdate => ?_⟩
    rw [hdue] at hdate
    cases hdate
  · rename_i rule due hnull hrule hdue
    split at h
    · rename_i hidle
      rw [← Except.ok.inj h]
      refine ⟨fun _ hnext => (by cases hnext), fun _ hdate hstatus => ?_⟩
      rw [hdue] at hdate
      rcases hidle with hempty | hopen
      · simp [Tasks.hasDate, hempty] at hdate
      · exact absurd hstatus hopen
    · obtain ⟨dueOn, -, h⟩ := bind_eq_ok_iff.mp h
      obtain ⟨occurrenceKey, hkey, h⟩ := bind_eq_ok_iff.mp h
      obtain ⟨day, hday, -⟩ := bind_eq_ok_iff.mp hkey
      have hdate : isDateOnly dueOn = true := by
        unfold parseDateOnly at hday
        split at hday
        · rename_i hread
          exact (Option.filter_eq_some_iff.mp hread).2
        · cases hday
      refine ⟨fun next hnext => ?_, fun _ _ _ => ?_⟩
      · rw [← Except.ok.inj h] at hnext
        rw [← Option.some.inj hnext]
        exact ⟨Tasks.hasDate_of_isDateOnly hdate, rfl, rfl, rfl⟩
      · rw [← Except.ok.inj h]
        rfl

/-- A rule that has another date gives a next instance. -/
theorem exists_nextRecurringTask {task : Task} {rule : Json} {due completionDate dueOn : String}
    (hrule : task.recurrence = some rule) (htrue : truthy rule = true) (hdue : task.dueOn = some due)
    (hdated : Tasks.hasDate task.dueOn = true) (hstatus : task.status = .completed)
    (hnext : nextOccurrence rule (if fromCompletion rule then completionDate else due) completionDate = .ok dueOn)
    (hdate : isDateOnly dueOn = true) (newId now : String) :
    ∃ next, nextRecurringTask task completionDate newId now = .ok (some next) := by
  obtain ⟨day, hday, rfl⟩ := (isDateOnly_iff dueOn).mp hdate
  have hkey : occurrenceKeyFor (toDateOnly day) = .ok (toDateOnly day) := by
    rw [occurrenceKeyFor, hday.parse]
    rfl
  unfold nextRecurringTask
  split
  · rename_i hnone
    rw [hnone] at hrule
    cases hrule
  · rename_i hnull
    rw [hnull] at hrule
    rw [← Option.some.inj hrule] at htrue
    cases htrue
  · rename_i hnone _ _
    rw [hnone] at hdue
    cases hdue
  · rename_i found foundDue _ hfound hfoundDue
    obtain rfl : found = rule := Option.some.inj (hfound.symm.trans hrule)
    obtain rfl : foundDue = due := Option.some.inj (hfoundDue.symm.trans hdue)
    have hgoes : ¬ (foundDue.isEmpty = true ∨ task.status ≠ .completed) := by
      rw [hdue] at hdated
      rintro (hempty | hopen)
      · simp [Tasks.hasDate, hempty] at hdated
      · exact hopen hstatus
    rw [if_neg hgoes]
    dsimp only
    rw [hnext, ok_bind, hkey]
    exact ⟨_, rfl⟩

theorem requireTask_ok (h : requireTask db id = .ok task) : db.liveTask id = some task := by
  unfold requireTask at h
  split at h
  · rename_i found hfound
    rw [hfound, Except.ok.inj h]
  · cases h

theorem completeTask_ok {reading : Recurring.Reading} {newId : String} {commit : CompletionCommit}
    (h : completeTask db id reading newId = .ok (some commit)) :
    ∃ task completionDate outcome, db.liveTask id = some task ∧ task.status ≠ .completed ∧
      nextRecurringTask { task with status := .completed } completionDate newId reading.now = .ok outcome ∧
      commit = ⟨id, reading.now, outcome.map (db.attachDetails task).withTask⟩ := by
  obtain ⟨task, htask, h⟩ := bind_eq_ok_iff.mp h
  split at h
  · cases h
  · rename_i hstatus
    obtain ⟨completionDate, -, h⟩ := bind_eq_ok_iff.mp h
    obtain ⟨outcome, houtcome, h⟩ := bind_eq_ok_iff.mp h
    exact ⟨task, completionDate, outcome, requireTask_ok htask, hstatus, houtcome,
      (Option.some.inj (Except.ok.inj h)).symm⟩

theorem liveTask_eq_some (h : db.liveTask id = some task) :
    db.rows.tasks.lookup id = some task ∧ isDeleted (.task task) = false := by
  have hfound := Option.filter_eq_some_iff.mp h
  exact ⟨hfound.1, by simpa using hfound.2⟩

/-! ### One call -/

/-- Every row of a task keeps a date, deleted ones too. -/
def KeepDates (rows : Tables) : Prop := ∀ id task, rows.tasks.lookup id = some task → KeepsDate task

theorem KeepDates.insert {rows changed : Tables} (h : KeepDates rows) (htask : KeepsDate task)
    (hchanged : changed.tasks = rows.tasks.insert task.id task) : KeepDates changed := by
  intro other found hfound
  rw [hchanged, Table.lookup_insert_eq_ite] at hfound
  split at hfound
  · rw [← Option.some.inj hfound]
    exact htask
  · exact h other found hfound

theorem KeepDates.put {rows : Tables} (h : KeepDates rows) (htask : KeepsDate task) :
    KeepDates (rows.put (.task task)) :=
  h.insert htask rfl

/-- A task with the rule and the date of one that keeps its date. -/
theorem KeepsDate.of_same {changed : Task} (h : KeepsDate task) (hrule : changed.recurrence = task.recurrence)
    (hdue : changed.dueOn = task.dueOn) : KeepsDate changed := by
  unfold KeepsDate
  rw [hrule, hdue]
  exact h

theorem KeepDates.commitCompletion {supply : Supply} {commit : CompletionCommit} (h : KeepDates db.rows)
    (hnext : ∀ next, commit.nextTask = some next → KeepsDate next.task)
    (hwritten : db.commitCompletion supply commit = .ok written) : KeepDates written.rows := by
  obtain ⟨current, hcurrent, hwritten⟩ := bind_eq_ok_iff.mp hwritten
  have hlive : db.liveTask commit.taskId = some current := by
    cases hfound : db.liveTask commit.taskId with
    | none =>
        rw [hfound] at hcurrent
        cases hcurrent
    | some found =>
        rw [hfound] at hcurrent
        rw [Except.ok.inj hcurrent]
  have hkept := h _ _ (liveTask_eq_some hlive).1
  have hcompleted : KeepDates (db.rows.put (.task { current with
      status := .completed
      completedAt := some commit.completedAt
      updatedAt := supply.now })) := by
    refine h.put ?_
    exact hkept.of_same rfl rfl
  split at hwritten
  · rw [← Except.ok.inj hwritten]
    exact hcompleted
  · rename_i next hsome
    rw [← Except.ok.inj hwritten]
    exact hcompleted.put (hnext next hsome)

theorem KeepDates.deleteTask (h : KeepDates db.rows) (supply : Supply) (id : String) :
    KeepDates (db.deleteTask supply id).rows := by
  unfold Db.deleteTask
  split
  · exact h
  · rename_i task hlive
    have hkept := h _ _ (liveTask_eq_some hlive).1
    refine h.put ?_
    exact hkept.of_same rfl rfl

theorem KeepDates.restoreTask (h : KeepDates db.rows) (supply : Supply) (id : String) :
    KeepDates (db.restoreTask supply id).rows := by
  unfold Db.restoreTask
  split
  · exact h
  · rename_i task hfound
    have hkept := h _ _ hfound
    refine h.put ?_
    exact hkept.of_same rfl rfl

/-- The call makes no task repeat without a date, and clears the date of none that repeats. -/
def ServiceCall.KeepsDue (db : Db) : ServiceCall → Prop
  | .createTask input => repeats input.recurrence = true → Tasks.hasDate input.dueOn = true
  | .patchTask id patch => ∀ task, db.liveTask id = some task →
      repeats (patch.recurrence.getD task.recurrence) = true → patch.dueOn ≠ some none
  | .quickAdd _ _ | .completeTask _ | .uncompleteTask _ | .deleteTask _ | .restoreTask _ => True

theorem KeepDates.createFrom {input : NewTask} (h : KeepDates db.rows)
    (hdue : repeats input.recurrence = true → Tasks.hasDate input.dueOn = true)
    (hwritten : db.createFrom platform moment input = .ok written) : KeepDates written.rows := by
  obtain ⟨task, hrule, hdate, -, hrows⟩ := createFrom_ok hwritten
  refine h.insert (fun hrepeats => ?_) hrows
  rw [hrule] at hrepeats
  rw [hdate]
  exact hdue hrepeats

theorem KeepDates.patchTask {patch : TaskPatch} (h : KeepDates db.rows)
    (hcall : ServiceCall.KeepsDue db (.patchTask id patch))
    (hwritten : (ServiceCall.patchTask id patch).write platform moment db = .ok written) :
    KeepDates written.rows := by
  obtain ⟨task, htask, hwritten⟩ := bind_eq_ok_iff.mp hwritten
  obtain ⟨validated, hvalidated, hwritten⟩ := bind_eq_ok_iff.mp hwritten
  obtain ⟨_, hdated, hwritten⟩ := bind_eq_ok_iff.mp hwritten
  rw [refuseIf_eq_ok_iff, not_and, not_and, not_not] at hdated
  have hlive := requireTask_ok (mapError_eq_ok_iff.mp htask)
  obtain ⟨hdueOn, hdates, hrule⟩ := validateTaskPatch_ok (mapError_eq_ok_iff.mp hvalidated)
  obtain ⟨current, changed, hcurrent, hchanged, hdue, -, hrows⟩ := patchFrom_ok hwritten
  obtain rfl : current = task := by
    rw [hlive] at hcurrent
    exact (Option.some.inj hcurrent).symm
  -- The second validation, in the repository, is of what the first one returned.
  have hsame : repeats (validated.recurrence.getD current.recurrence) =
      repeats (patch.recurrence.getD current.recurrence) := by
    rcases hrule with ⟨hnone, hvalid⟩ | ⟨rule, output, hsome, hvalid, houtput, -⟩
    · rw [hnone, hvalid]
    · rw [hsome, hvalid]
      exact houtput
  refine h.insert (fun hrepeats => ?_) hrows
  rw [hchanged, hsame] at hrepeats
  rw [hdue, hdueOn]
  have hclear := hcall current hlive hrepeats
  cases hpatch : patch.dueOn with
  | some dueOn =>
      cases dueOn with
      | none => exact absurd hpatch hclear
      | some dueOn => exact Tasks.hasDate_of_isDateOnly (hdates dueOn hpatch)
  | none =>
      change Tasks.hasDate current.dueOn = true
      rcases hrule with ⟨hnone, -⟩ | ⟨rule, output, hsome, hvalid, -, houtput⟩
      · rw [hnone] at hrepeats
        exact h _ _ (liveTask_eq_some hlive).1 hrepeats
      · rw [hsome] at hrepeats
        refine hdated ?_ ?_
        · rw [hvalid]
          exact houtput.trans hrepeats
        · rw [hdueOn, hpatch]
          exact Bool.false_ne_true

theorem KeepDates.write {call : ServiceCall} (h : KeepDates db.rows) (hcall : call.KeepsDue db)
    (hwritten : call.write platform moment db = .ok written) : KeepDates written.rows := by
  cases call with
  | createTask input => exact h.createFrom hcall hwritten
  | quickAdd text context =>
      obtain ⟨parsed, hparsed, hwritten⟩ := bind_eq_ok_iff.mp hwritten
      have hparse := mapError_eq_ok_iff.mp hparsed
      refine h.createFrom ?_ hwritten
      intro hrepeats
      have hrule : parsed.recurrence.any truthy = true := hrepeats
      have hdate := Tasks.hasDate_parseQuickAdd hparse (Option.isSome_of_any hrule)
      exact hdate
  | patchTask id patch => exact h.patchTask hcall hwritten
  | completeTask id =>
      obtain ⟨commit, hcommit, hwritten⟩ := bind_eq_ok_iff.mp hwritten
      cases commit with
      | none =>
          rw [← Except.ok.inj hwritten]
          exact h
      | some commit =>
          obtain ⟨task, completionDate, outcome, -, -, houtcome, rfl⟩ :=
            completeTask_ok (mapError_eq_ok_iff.mp hcommit)
          refine h.commitCompletion (fun next hnext => ?_) (mapError_eq_ok_iff.mp hwritten)
          obtain ⟨found, hfound, rfl⟩ := Option.map_eq_some_iff.mp hnext
          exact fun _ => ((nextRecurringTask_ok houtcome).1 found hfound).1
  | uncompleteTask id =>
      obtain ⟨task, -, hwritten⟩ := bind_eq_ok_iff.mp hwritten
      split at hwritten
      · rw [← Except.ok.inj hwritten]
        exact h
      · obtain ⟨current, changed, hlive, hrule, hdue, -, hrows⟩ := patchFrom_ok hwritten
        refine h.insert (fun hrepeats => ?_) hrows
        rw [hrule] at hrepeats
        rw [hdue]
        exact h _ _ (liveTask_eq_some hlive).1 hrepeats
  | deleteTask id =>
      obtain ⟨task, -, hwritten⟩ := bind_eq_ok_iff.mp hwritten
      rw [← Except.ok.inj hwritten]
      exact h.deleteTask moment.supply id
  | restoreTask id =>
      rw [← Except.ok.inj hwritten]
      exact h.restoreTask moment.supply id

/-- A call that breaks the rule leaves a live task that repeats without a date. -/
theorem broken_of_accepted {call : ServiceCall} (hwritten : call.write platform moment db = .ok written)
    (hnot : ¬ call.KeepsDue db) :
    ∃ id task, (call.after platform moment db).liveTask id = some task ∧ ¬ KeepsDate task := by
  have hafter : (call.after platform moment db).rows = written.rows := by
    rw [ServiceCall.after, hwritten]
    exact rows_localWrite db written.rows written.edits
  have hinserted {task : Task} (hrows : written.rows.tasks = db.rows.tasks.insert task.id task)
      (hlive : isDeleted (.task task) = false) :
      (call.after platform moment db).liveTask task.id = some task := by
    rw [Db.liveTask, hafter, hrows, Table.lookup_insert_eq_ite, if_pos rfl, Option.filter_some, hlive]
    rfl
  cases call with
  | createTask input =>
      have hbroken : repeats input.recurrence = true ∧ ¬ Tasks.hasDate input.dueOn = true :=
        Classical.not_imp.mp hnot
      obtain ⟨task, hrule, hdue, hdeleted, hrows⟩ := createFrom_ok hwritten
      have hlive : isDeleted (.task task) = false := by
        change task.deletedAt.any _ = false
        rw [hdeleted]
        rfl
      refine ⟨task.id, task, hinserted hrows hlive, fun hkept => ?_⟩
      rw [KeepsDate, hrule, hdue] at hkept
      exact hbroken.2 (hkept hbroken.1)
  | patchTask id patch =>
      obtain ⟨task, hlive, hrepeats, hclear⟩ : ∃ task, db.liveTask id = some task ∧
          repeats (patch.recurrence.getD task.recurrence) = true ∧ patch.dueOn = some none := by
        by_contra hnone
        refine hnot fun task hlive hrepeats hclear => hnone ⟨task, hlive, hrepeats, hclear⟩
      obtain ⟨_, -, hwritten⟩ := bind_eq_ok_iff.mp hwritten
      obtain ⟨validated, hvalidated, hwritten⟩ := bind_eq_ok_iff.mp hwritten
      obtain ⟨-, -, hwritten⟩ := bind_eq_ok_iff.mp hwritten
      obtain ⟨hdueOn, -, hrule⟩ := validateTaskPatch_ok (mapError_eq_ok_iff.mp hvalidated)
      obtain ⟨current, changed, hcurrent, hchanged, hdue, hdeleted, hrows⟩ := patchFrom_ok hwritten
      obtain rfl : current = task := by
        rw [hlive] at hcurrent
        exact (Option.some.inj hcurrent).symm
      have hstays : isDeleted (.task changed) = false := by
        change changed.deletedAt.any _ = false
        rw [hdeleted]
        exact (liveTask_eq_some hlive).2
      refine ⟨changed.id, changed, hinserted hrows hstays, fun hkept => ?_⟩
      rw [KeepsDate, hchanged, hdue, hdueOn, hclear] at hkept
      refine Bool.false_ne_true (hkept ?_)
      rcases hrule with ⟨hnone, hvalid⟩ | ⟨rule, output, hsome, hvalid, houtput, -⟩
      · rw [hvalid]
        rw [hnone] at hrepeats
        exact hrepeats
      · rw [hvalid]
        rw [hsome] at hrepeats
        exact houtput.trans hrepeats
  | quickAdd _ _ => exact absurd trivial hnot
  | completeTask _ => exact absurd trivial hnot
  | uncompleteTask _ => exact absurd trivial hnot
  | deleteTask _ => exact absurd trivial hnot
  | restoreTask _ => exact absurd trivial hnot

/-! ### Runs of the service -/

/-- Every live task that repeats has a due date, and completing an open one never ends its series. -/
structure Db.SeriesGoOn (db : Db) : Prop where
  due : ∀ id task, db.liveTask id = some task → KeepsDate task
  next : ∀ id task, db.liveTask id = some task → repeats task.recurrence = true → task.status = .open →
    ∀ reading newId outcome, completeTask db id reading newId = .ok outcome →
      ∃ commit next, outcome = some commit ∧ commit.nextTask = some next ∧
        next.task.recurrence = task.recurrence ∧ Tasks.hasDate next.task.dueOn = true ∧
        next.task.status = .open ∧ next.task.deletedAt = none ∧
        ∀ supply written, db.commitCompletion supply commit = .ok written →
          written.rows.tasks.lookup next.task.id = some next.task
  /-- Only an unknown time zone, or a rule without another date, stops a completion. -/
  goes_through : ∀ id task rule due, db.liveTask id = some task → task.recurrence = some rule →
    truthy rule = true → task.dueOn = some due → task.status = .open →
    ∀ reading today newId dueOn, reading.today = some today →
      nextOccurrence rule (if fromCompletion rule then today else due) today = .ok dueOn →
      isDateOnly dueOn = true → ∃ commit, completeTask db id reading newId = .ok (some commit)

theorem completeTask_open (hlive : db.liveTask id = some task) (hopen : task.status = .open)
    (reading : Recurring.Reading) (newId : String) :
    completeTask db id reading newId = (do
      let completionDate ← reading.date
      let next ← nextRecurringTask { task with status := .completed } completionDate newId reading.now
      return some ⟨id, reading.now, next.map (db.attachDetails task).withTask⟩) := by
  have hrequired : requireTask db id = .ok task := by rw [requireTask, hlive]
  have hnot : task.status ≠ .completed := by
    rw [hopen]
    nofun
  rw [completeTask, hrequired, ok_bind, if_neg hnot]

theorem lookup_commitCompletion {supply : Supply} {commit : CompletionCommit} {next : Spread}
    (hnext : commit.nextTask = some next) (hwritten : db.commitCompletion supply commit = .ok written) :
    written.rows.tasks.lookup next.task.id = some next.task := by
  obtain ⟨current, -, hwritten⟩ := bind_eq_ok_iff.mp hwritten
  rw [hnext] at hwritten
  rw [← Except.ok.inj hwritten]
  exact (Table.lookup_insert_eq_ite _ _ _ _).trans (if_pos rfl)

theorem KeepDates.seriesGoOn (h : KeepDates db.rows) : db.SeriesGoOn where
  due id task hlive := h _ _ (liveTask_eq_some hlive).1
  next id task hlive hrepeats hopen reading newId outcome houtcome := by
    rw [completeTask_open hlive hopen] at houtcome
    obtain ⟨completionDate, -, houtcome⟩ := bind_eq_ok_iff.mp houtcome
    obtain ⟨found, hfound, houtcome⟩ := bind_eq_ok_iff.mp houtcome
    obtain ⟨hnext, hsome⟩ := nextRecurringTask_ok hfound
    have hdate := h _ _ (liveTask_eq_some hlive).1 hrepeats
    obtain ⟨next, rfl⟩ := Option.isSome_iff_exists.mp (hsome hrepeats hdate rfl)
    obtain ⟨hnextDate, hrule, hnextOpen, hnextLive⟩ := hnext next rfl
    refine ⟨_, (db.attachDetails task).withTask next, (Except.ok.inj houtcome).symm, rfl, hrule, hnextDate,
      hnextOpen, hnextLive, fun supply written hwritten => ?_⟩
    exact lookup_commitCompletion rfl hwritten
  goes_through id task rule due hlive hrule htrue hdue hopen reading today newId dueOn htoday hnext hdate := by
    have hreading : reading.date = .ok today := by rw [Recurring.Reading.date, htoday]
    have hdated := h _ _ (liveTask_eq_some hlive).1 (by rw [hrule]; exact htrue)
    have hstarted : ∃ next, nextRecurringTask { task with status := .completed } today newId reading.now =
        .ok (some next) := by
      refine exists_nextRecurringTask ?_ htrue ?_ ?_ rfl hnext hdate newId reading.now
      · exact hrule
      · exact hdue
      · exact hdated
    obtain ⟨next, hfound⟩ := hstarted
    rw [completeTask_open hlive hopen, hreading, ok_bind, hfound]
    exact ⟨_, rfl⟩

/-- After calls that keep to the rule, every row of a task keeps a date. -/
theorem keepDates_run {events : List (Moment × ServiceCall)} {state : Db} (h : KeepDates state.rows)
    (halong : (service platform).Along (fun db event => ∀ written,
      event.2.write platform event.1 db = .ok written → event.2.KeepsDue db) state events) :
    KeepDates ((service platform).run state events).rows := by
  refine (service platform).invariant_along _ (fun db _ => KeepDates db.rows) (fun db _ event hkept hcall => ?_)
    events state [] h halong
  change KeepDates (event.2.after platform event.1 db).rows
  rw [ServiceCall.after]
  cases hwrite : event.2.write platform event.1 db with
  | error error => exact hkept
  | ok written =>
      rw [rows_localWrite]
      exact hkept.write (hcall written hwrite) hwrite

/-- The series of every live task go on at every moment of a run exactly when no accepted call makes a task repeat without a date, or clears the date of one that repeats. -/
theorem series_go_on_iff (platform : Platform) (kv : MetaRows) (events : List (Moment × ServiceCall)) :
    (∀ before, before <+: events → ((service platform).run (.empty kv) before).SeriesGoOn) ↔
      (service platform).Along (fun db event => ∀ written,
        event.2.write platform event.1 db = .ok written → event.2.KeepsDue db) (.empty kv) events := by
  constructor
  · intro hkept
    rw [Machine.along_iff]
    rintro before event after rfl written hwritten
    by_contra hnot
    obtain ⟨id, task, hlive, hbroken⟩ := broken_of_accepted hwritten hnot
    have hreached := hkept (before ++ [event]) ⟨after, by simp⟩
    rw [Machine.run_append] at hreached
    exact hbroken (hreached.due id task hlive)
  · rintro halong before ⟨after, rfl⟩
    have hempty : KeepDates (Db.empty kv).rows := by
      intro id task hfound
      cases hfound
    exact (keepDates_run hempty (((service platform).along_append before _).mp halong).1).seriesGoOn

/-! ### A date that is cleared -/

def wateringDaily : NewTask where
  title := "Water the plants"
  listId := none
  note := none
  tags := []
  important := none
  dueOn := some "2026-10-21"
  remindAt := none
  remindTimezone := none
  recurrence := some (.obj [("frequency", .str "daily")])
  rank := none
  planDate := none

def clearingTheDate : TaskPatch := { reopening with status := none, completedAt := none, dueOn := some none }

def onThatMorning (drawn : String) : Moment where
  reading := { now := "2026-10-21T05:00:00.000Z", timeZone := "UTC", today := some "2026-10-21" }
  newId := drawn
  supply := { now := "2026-10-21T05:00:00.000Z", id := drawn, planId := "", opId := fun _ => drawn }

def plainPlatform : Platform where
  texts := Texts.utc
  beyond _ := none
  toUtc _ _ := none
  toIso := some

/-- A daily task with a date is made, and its date is cleared. -/
theorem series_stops :
    ¬ ∀ (platform : Platform) (kv : MetaRows) (events : List (Moment × ServiceCall)),
      ((service platform).run (.empty kv) events).SeriesGoOn := by
  intro hall
  have hreached := hall plainPlatform ⟨"device", 0, false, "0", "", false, none⟩
    [(onThatMorning "plants", .createTask wateringDaily),
      (onThatMorning "cleared", .patchTask "plants" clearingTheDate)]
  have hbroken : (((service plainPlatform).run (.empty ⟨"device", 0, false, "0", "", false, none⟩)
      [(onThatMorning "plants", .createTask wateringDaily),
        (onThatMorning "cleared", .patchTask "plants" clearingTheDate)]).liveTask "plants").any
      (fun task => repeats task.recurrence && !Tasks.hasDate task.dueOn) = true := by
    decide
  obtain ⟨task, hlive, hrule⟩ := (Option.any_eq_true _ _).mp hbroken
  obtain ⟨hrepeats, hundated⟩ := Bool.and_eq_true_iff.mp hrule
  have hkept := hreached.due "plants" task hlive hrepeats
  rw [hkept] at hundated
  cases hundated

end ShishiTodo.Web
