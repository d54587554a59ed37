import ShishiTodo.Lib.Machine
import ShishiTodo.Reminders.Reconcile

/-!
# Reminders over many calls

Each call of `reconcileReminders` is given the map of the call before, over tasks that change in between and a platform that may refuse. What the map says is always what the platform holds; that it says something of all that the platform holds is lost where an old entry can neither be replaced nor cancelled.
-/

namespace ShishiTodo.Reminders

open Lib

/-! ### Sequences of calls -/

/-- A call with the tasks as they are then, and the answers it gets. -/
structure Call where
  tasks : List ReminderCandidate
  platform : Platform

/-- What goes from one call to the next, with the active tasks of the last call and the ids whose last `schedule` succeeded. -/
structure World where
  held : Entries
  nextScheduled : OrderedMap String JsText
  active : List String
  succeeded : List String

def World.init : World := ⟨.empty, .empty, [], []⟩

/-- Whether a call schedules the task: its content is not the tracked one. -/
def World.schedules (world : World) (task : ReminderCandidate) : Bool :=
  world.nextScheduled.get task.id ≠ some (reminderFingerprint task)

/-- Whether the `schedule` of the task succeeds. -/
def Call.succeeds (call : Call) (task : ReminderCandidate) : Bool :=
  (call.platform.scheduleResult task).status = .scheduled

def World.next (world : World) (call : Call) : World :=
  let outcome := reconcileReminders call.platform call.tasks world.held world.nextScheduled
  let active := activeTasks call.tasks
  let asked := active.values.filter world.schedules
  { held := outcome.held
    nextScheduled := outcome.nextScheduled
    active := active.keys
    succeeded := (world.succeeded.filter fun id => id ∉ asked.map ReminderCandidate.id) ++
      (asked.filter call.succeeds).map ReminderCandidate.id }

def calls : Machine World Call Unit where
  step := World.next
  emit _ _ := []

/-- Nothing that the platform holds is lost sight of, and what the map says of an active task is what the platform holds. -/
structure Settled (world : World) : Prop where
  tracked : ∀ id, (world.held.get id).isSome → (world.nextScheduled.get id).isSome
  cancelled : ∀ (call : Call) (id : String), (world.held.get id).isSome →
    (activeTasks call.tasks).get id = none → call.platform.cancel id = .ok () →
      (world.next call).held.get id = none
  current : ∀ id ∈ world.active, id ∈ world.succeeded → ∃ task, world.held.get id = some task ∧
    world.nextScheduled.get id = some (reminderFingerprint task)

/-- No active task keeps an old entry that could neither be replaced nor cancelled. -/
def Replaceable (world : World) (call : Call) : Prop :=
  ∀ task ∈ (activeTasks call.tasks).values, (world.held.get task.id).isSome → world.schedules task →
    call.succeeds task = false → call.platform.cancel task.id = .ok ()

/-- What the map says is what the platform holds. -/
def Truthful (world : World) : Prop :=
  ∀ id fingerprint, world.nextScheduled.get id = some fingerprint →
    ∃ task, world.held.get id = some task ∧ fingerprint = reminderFingerprint task

def World.under (world : World) (id : String) : Tracked := ⟨world.held.get id, world.nextScheduled.get id⟩

theorem under_next (world : World) (call : Call) (id : String) :
    (world.next call).under id =
      match (activeTasks call.tasks).get id with
      | some task => call.platform.renewed task (world.under id)
      | none =>
          if (world.nextScheduled.get id).isSome then call.platform.dropped id (world.under id)
          else world.under id :=
  under_reconcileReminders call.platform call.tasks world.held world.nextScheduled id

/-- The two readings of an id are in line. -/
structure Tracked.Truthful (tracked : Tracked) : Prop where
  held : ∀ fingerprint, tracked.fingerprint = some fingerprint →
    ∃ task, tracked.held = some task ∧ fingerprint = reminderFingerprint task

theorem truthful_iff {world : World} : Truthful world ↔ ∀ id, (world.under id).Truthful :=
  ⟨fun h id => ⟨h id⟩, fun h id => (h id).held⟩

theorem truthful_none {held : Option ReminderCandidate} : Tracked.Truthful ⟨held, none⟩ := ⟨nofun⟩

theorem Tracked.Truthful.dropped {tracked : Tracked} (h : tracked.Truthful) (platform : Platform) (id : String) :
    (platform.dropped id tracked).Truthful := by
  rw [Platform.dropped]
  cases platform.cancel id with
  | ok done => exact truthful_none
  | error rejection => exact h

theorem Tracked.Truthful.renewed {tracked : Tracked} (h : tracked.Truthful) (platform : Platform)
    (task : ReminderCandidate) : (platform.renewed task tracked).Truthful := by
  rw [Platform.renewed]
  split
  · exact h
  · split
    · refine ⟨fun fingerprint hfingerprint => ⟨task, rfl, ?_⟩⟩
      exact (Option.some.inj hfingerprint).symm
    · cases platform.cancel task.id with
      | ok done => exact truthful_none
      | error rejection => exact truthful_none

theorem truthful_next {world : World} (h : Truthful world) (call : Call) : Truthful (world.next call) := by
  rw [truthful_iff] at h ⊢
  intro id
  rw [under_next]
  cases (activeTasks call.tasks).get id with
  | some task => exact (h id).renewed call.platform task
  | none =>
      dsimp only
      split
      · exact (h id).dropped call.platform id
      · exact h id

theorem truthful_init : Truthful World.init := by
  intro id fingerprint h
  rw [World.init, OrderedMap.get_empty] at h
  cases h

theorem truthful_run (events : List Call) : Truthful (calls.run World.init events) :=
  calls.invariant (fun world _ => Truthful world) (fun _ _ call h => truthful_next h call)
    truthful_init events

/-- What is held is tracked. -/
def Tracked.Seen (tracked : Tracked) : Prop := tracked.held.isSome → tracked.fingerprint.isSome

theorem Tracked.Seen.dropped {tracked : Tracked} (h : tracked.Seen) (platform : Platform) (id : String) :
    (platform.dropped id tracked).Seen := by
  rw [Platform.dropped]
  cases platform.cancel id with
  | ok done => exact fun hheld => absurd hheld Bool.false_ne_true
  | error rejection => exact h

/-- An active id is lost sight of where its old entry stays without a new one. -/
theorem seen_renewed_iff {call : Call} {world : World} {task : ReminderCandidate}
    (h : (world.under task.id).Seen) : (call.platform.renewed task (world.under task.id)).Seen ↔
      ((world.held.get task.id).isSome → world.schedules task → call.succeeds task = false →
        call.platform.cancel task.id = .ok ()) := by
  rw [Platform.renewed]
  by_cases hsame : (world.under task.id).fingerprint = some (reminderFingerprint task)
  · rw [if_pos hsame]
    refine iff_of_true h fun _ hschedules => ?_
    exact absurd hsame (of_decide_eq_true hschedules)
  · rw [if_neg hsame]
    by_cases hdone : (call.platform.scheduleResult task).status = .scheduled
    · rw [if_pos hdone]
      refine iff_of_true (fun _ => rfl) fun _ _ hfails => ?_
      exact absurd hdone (of_decide_eq_false hfails)
    · rw [if_neg hdone]
      cases hcancel : call.platform.cancel task.id with
      | ok done => exact iff_of_true (fun hheld => absurd hheld Bool.false_ne_true) fun _ _ _ => rfl
      | error rejection =>
          constructor
          · intro hseen hheld
            exact absurd (hseen hheld) Bool.false_ne_true
          · intro hreplaceable hheld
            cases hreplaceable hheld (decide_eq_true hsame) (decide_eq_false hdone)

theorem seen_next_iff {world : World} (h : ∀ id, (world.under id).Seen) (call : Call) :
    (∀ id, ((world.next call).under id).Seen) ↔ Replaceable world call := by
  have hkeyed := keyed_activeTasks call.tasks
  constructor
  · intro hnext task htask
    obtain ⟨entry, hentry, rfl⟩ := List.mem_map.mp htask
    have hget := OrderedMap.mem_entries_iff.mp hentry
    have hid := hkeyed _ _ hget
    have hown := hnext entry.2.id
    rw [under_next, hid, hget] at hown
    rw [← hid] at hown
    exact (seen_renewed_iff (h entry.2.id)).mp hown
  · intro hreplaceable id
    rw [under_next]
    cases hget : (activeTasks call.tasks).get id with
    | some task =>
        obtain rfl := hkeyed id task hget
        apply (seen_renewed_iff (h task.id)).mpr
        exact hreplaceable task (List.mem_map.mpr ⟨_, OrderedMap.mem_entries_iff.mpr hget, rfl⟩)
    | none =>
        dsimp only
        split
        · exact (h id).dropped call.platform id
        · exact h id

/-- What is tracked and inactive is cancelled by the next call. -/
theorem cancelled_of_seen {world : World} (h : ∀ id, (world.under id).Seen) (call : Call) {id : String}
    (hheld : (world.held.get id).isSome) (hinactive : (activeTasks call.tasks).get id = none)
    (hcancel : call.platform.cancel id = .ok ()) : (world.next call).held.get id = none := by
  have hnext := under_next world call id
  rw [hinactive] at hnext
  dsimp only at hnext
  have htracked : (world.nextScheduled.get id).isSome := h id hheld
  rw [if_pos htracked, Platform.dropped, hcancel] at hnext
  exact congrArg Tracked.held hnext

/-- After a call the map is right about every active task whose last `schedule` succeeded. -/
theorem current_next {world : World} (h : Truthful world) (call : Call) :
    ∀ id ∈ (world.next call).active, id ∈ (world.next call).succeeded →
      ∃ task, (world.next call).held.get id = some task ∧
        (world.next call).nextScheduled.get id = some (reminderFingerprint task) := by
  intro id hactive hsucceeded
  have hkeyed := keyed_activeTasks call.tasks
  obtain ⟨task, hget⟩ := Option.isSome_iff_exists.mp (OrderedMap.get_isSome_iff.mpr hactive)
  obtain rfl := hkeyed id task hget
  have hvalues : task ∈ (activeTasks call.tasks).values :=
    List.mem_map.mpr ⟨_, OrderedMap.mem_entries_iff.mpr hget, rfl⟩
  have hnext := under_next world call task.id
  rw [hget] at hnext
  dsimp only at hnext
  have hread : ∀ {found : Tracked}, (world.next call).under task.id = found →
      (∃ held, found.held = some held ∧ found.fingerprint = some (reminderFingerprint held)) →
      ∃ held, (world.next call).held.get task.id = some held ∧
        (world.next call).nextScheduled.get task.id = some (reminderFingerprint held) := by
    rintro found rfl hfound
    exact hfound
  apply hread hnext
  rw [Platform.renewed]
  by_cases hsame : (world.under task.id).fingerprint = some (reminderFingerprint task)
  · rw [if_pos hsame]
    obtain ⟨held, hheld, hfingerprint⟩ := h task.id _ hsame
    exact ⟨held, hheld, hsame.trans (congrArg some hfingerprint)⟩
  · rw [if_neg hsame]
    by_cases hdone : (call.platform.scheduleResult task).status = .scheduled
    · rw [if_pos hdone]
      exact ⟨task, rfl, rfl⟩
    · -- A task whose `schedule` just failed is none whose last one succeeded.
      exfalso
      have hasked : task ∈ (activeTasks call.tasks).values.filter world.schedules :=
        List.mem_filter.mpr ⟨hvalues, decide_eq_true hsame⟩
      rcases List.mem_append.mp hsucceeded with hbefore | hnow
      · exact of_decide_eq_true (List.mem_filter.mp hbefore).2 (List.mem_map_of_mem hasked)
      · obtain ⟨other, hother, hid⟩ := List.mem_map.mp hnow
        obtain ⟨hmem, hsucceeds⟩ := List.mem_filter.mp hother
        obtain ⟨entry, hentry, rfl⟩ := List.mem_map.mp (List.mem_filter.mp hmem).1
        have hfound := OrderedMap.mem_entries_iff.mp hentry
        rw [← hkeyed _ _ hfound, hid, hget] at hfound
        cases hfound
        exact hdone (of_decide_eq_true hsucceeds)

theorem settled_iff_seen {before : List Call} :
    Settled (calls.run World.init before) ↔ ∀ id, ((calls.run World.init before).under id).Seen := by
  refine ⟨fun h id => h.tracked id, fun h => ⟨h, fun call id => cancelled_of_seen h call, ?_⟩⟩
  rcases List.eq_nil_or_concat before with rfl | ⟨earlier, call, rfl⟩
  · exact nofun
  · rw [List.concat_eq_append, calls.run_append]
    exact current_next (truthful_run earlier) call

/-- The reminders are settled all along exactly when no call meets an old entry that it can neither replace nor cancel. -/
theorem reminders_settled_iff (events : List Call) :
    (∀ before after, events = before ++ after → Settled (calls.run World.init before)) ↔
      calls.Along Replaceable World.init events := by
  rw [calls.along_iff]
  constructor
  · rintro h before call after rfl
    have hbefore := settled_iff_seen.mp (h before (call :: after) rfl)
    have hnext := settled_iff_seen.mp (h (before ++ [call]) after (by simp))
    rw [calls.run_append] at hnext
    exact (seen_next_iff hbefore call).mp hnext
  · intro h before
    induction before using List.reverseRecOn with
    | nil =>
        intro after hevents
        exact settled_iff_seen.mpr fun id hheld => absurd hheld nofun
    | append_singleton earlier call ih =>
        intro after hevents
        have hearlier := settled_iff_seen.mp (ih (call :: after) (by rw [hevents, List.append_assoc]; rfl))
        rw [settled_iff_seen, calls.run_append]
        apply (seen_next_iff hearlier call).mpr
        exact h earlier call after (by rw [hevents, List.append_assoc]; rfl)

def weeklyReport (title : String) : ReminderCandidate :=
  ⟨"task", .open, some "2026-10-24T09:00:00Z", title, ""⟩

def allowing : Platform := ⟨fun _ => .ok ⟨.scheduled, none⟩, fun _ => .ok ()⟩

def refusing : Platform := ⟨fun _ => .ok ⟨.permissionDenied, some "denied"⟩, fun _ => .error (some "busy")⟩

/-- A reminder that was scheduled, and whose new title could neither be scheduled nor the old one cancelled. -/
theorem renamed_reminder_lost :
    ¬ ∀ events before after : List Call, events = before ++ after → Settled (calls.run World.init before) := by
  intro h
  have hsettled := h [⟨[weeklyReport "Draft"], allowing⟩, ⟨[weeklyReport "Report"], refusing⟩] _ []
    (List.append_nil _).symm
  have hlost : ((calls.run World.init [⟨[weeklyReport "Draft"], allowing⟩,
      ⟨[weeklyReport "Report"], refusing⟩]).nextScheduled.get "task").isSome = false := by
    decide
  rw [hsettled.tracked "task" (by decide)] at hlost
  cases hlost

end ShishiTodo.Reminders
