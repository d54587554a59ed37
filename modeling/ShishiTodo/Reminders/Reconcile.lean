import ShishiTodo.Lib.OrderedMap
import ShishiTodo.Domain
import ShishiTodo.JsText

/-!
# Reconciling reminders

`reconcileReminders`: the reminders that the platform holds are brought in line with the tasks, with a map of what was scheduled that goes from one call to the next. A cancellation that fails while a reminder is replaced takes the id out of that map although the platform still holds it.
-/

namespace ShishiTodo.Reminders

open Lib

/-! ### Candidates -/

structure ReminderCandidate where
  id : String
  status : TaskStatus
  remindAt : Option String
  title : String
  note : String
  deriving DecidableEq, Repr

def reminderFingerprint (task : ReminderCandidate) : JsText :=
  units (task.remindAt.getD "") ++ 0 :: (units task.title ++ 0 :: (units task.note).take 120)

def isActive (task : ReminderCandidate) : Bool :=
  task.status == .open && task.remindAt.any fun remindAt => !remindAt.isEmpty

/-! ### Answers of the platform -/

inductive ReminderScheduleStatus where
  | scheduled | skippedPast | outsideWindow | permissionDenied | capacityExceeded | failed
  deriving DecidableEq, Repr

structure ReminderScheduleResult where
  status : ReminderScheduleStatus
  message : Option String
  deriving DecidableEq, Repr

/-- What is thrown: the message of an `Error`, or something else. -/
abbrev Rejection := Option String

/-- How the platform answers during one call, which asks at most once for each id. -/
structure Platform where
  schedule : ReminderCandidate → Except Rejection ReminderScheduleResult
  cancel : String → Except Rejection Unit

/-- A `schedule` that throws counts as one that failed. -/
def Platform.scheduleResult (platform : Platform) (task : ReminderCandidate) : ReminderScheduleResult :=
  match platform.schedule task with
  | .ok result => result
  | .error rejection => ⟨.failed, some (rejection.getD "调度失败")⟩

/-- `status` of an issue. -/
inductive IssueStatus where
  | schedule (status : ReminderScheduleStatus)
  | cancelFailed
  deriving DecidableEq, Repr

structure ReminderIssue where
  reminderId : String
  status : IssueStatus
  message : Option String
  deriving DecidableEq, Repr

/-! ### One call -/

/-- The reminders that the platform holds, with the tasks they were scheduled for. -/
abbrev Entries := OrderedMap String ReminderCandidate

/-- The state of a call; `held` is what the platform holds meanwhile. -/
structure Reconciling where
  held : Entries
  nextScheduled : OrderedMap String JsText
  scheduled : List String
  cancelled : List String
  unchanged : List String
  issues : List ReminderIssue

/-- The loop over what was scheduled: an id without an active task is cancelled. -/
def cancelInactive (platform : Platform) (active : OrderedMap String ReminderCandidate) (state : Reconciling)
    (id : String) : Reconciling :=
  if (active.get id).isSome then state
  else
    match platform.cancel id with
    | .ok _ => { state with
        held := state.held.delete id
        nextScheduled := state.nextScheduled.delete id
        cancelled := state.cancelled ++ [id] }
    | .error rejection => { state with
        issues := state.issues ++ [⟨id, .cancelFailed, some (rejection.getD "取消提醒失败")⟩] }

/-- The loop over the active tasks. The id is given up even when its old entry could not be cancelled. -/
def scheduleActive (platform : Platform) (state : Reconciling) (task : ReminderCandidate) : Reconciling :=
  let fingerprint := reminderFingerprint task
  if state.nextScheduled.get task.id = some fingerprint then
    { state with unchanged := state.unchanged ++ [task.id] }
  else
    let result := platform.scheduleResult task
    if result.status = .scheduled then
      { state with
        held := state.held.set task.id task
        nextScheduled := state.nextScheduled.set task.id fingerprint
        scheduled := state.scheduled ++ [task.id] }
    else
      let issue : ReminderIssue := ⟨task.id, .schedule result.status, result.message⟩
      match platform.cancel task.id with
      | .ok _ => { state with
          held := state.held.delete task.id
          nextScheduled := state.nextScheduled.delete task.id
          issues := state.issues ++ [issue] }
      | .error rejection => { state with
          nextScheduled := state.nextScheduled.delete task.id
          issues := state.issues ++
            [⟨task.id, .cancelFailed, some (rejection.getD "取消旧提醒失败")⟩, issue] }

/-- The active tasks: of the tasks with one id, the last one, in the place of the first. -/
def activeTasks (tasks : List ReminderCandidate) : OrderedMap String ReminderCandidate :=
  OrderedMap.ofList ((tasks.filter isActive).map fun task => (task.id, task))

def reconcileReminders (platform : Platform) (tasks : List ReminderCandidate) (held : Entries)
    (scheduled : OrderedMap String JsText) : Reconciling :=
  let active := activeTasks tasks
  let start : Reconciling := ⟨held, scheduled, [], [], [], []⟩
  active.values.foldl (scheduleActive platform)
    (scheduled.keys.foldl (cancelInactive platform active) start)

/-! ### What a call does under one id -/

/-- What is held and what is tracked under an id. -/
structure Tracked where
  held : Option ReminderCandidate
  fingerprint : Option JsText

def Reconciling.under (state : Reconciling) (id : String) : Tracked :=
  ⟨state.held.get id, state.nextScheduled.get id⟩

/-- An inactive id. -/
def Platform.dropped (platform : Platform) (id : String) (tracked : Tracked) : Tracked :=
  match platform.cancel id with
  | .ok _ => ⟨none, none⟩
  | .error _ => tracked

/-- An id that was tracked. -/
def Platform.swept (platform : Platform) (active : OrderedMap String ReminderCandidate) (id : String)
    (tracked : Tracked) : Tracked :=
  if (active.get id).isSome then tracked else platform.dropped id tracked

/-- An active id. -/
def Platform.renewed (platform : Platform) (task : ReminderCandidate) (tracked : Tracked) : Tracked :=
  if tracked.fingerprint = some (reminderFingerprint task) then tracked
  else if (platform.scheduleResult task).status = .scheduled then
    ⟨some task, some (reminderFingerprint task)⟩
  else
    match platform.cancel task.id with
    | .ok _ => ⟨none, none⟩
    | .error _ => ⟨tracked.held, none⟩

variable {platform : Platform} {active : OrderedMap String ReminderCandidate}

theorem under_cancelInactive (state : Reconciling) (id : String) :
    (cancelInactive platform active state id).under id = platform.swept active id (state.under id) := by
  rw [cancelInactive, Platform.swept]
  split
  · rfl
  · rw [Platform.dropped]
    cases platform.cancel id with
    | ok done => simp only [Reconciling.under, OrderedMap.get_delete, if_pos]
    | error rejection => rfl

theorem under_cancelInactive_of_ne (state : Reconciling) {id other : String} (h : other ≠ id) :
    (cancelInactive platform active state id).under other = state.under other := by
  rw [cancelInactive]
  split
  · rfl
  · cases platform.cancel id with
    | ok done => simp only [Reconciling.under, OrderedMap.get_delete, if_neg h]
    | error rejection => rfl

theorem under_scheduleActive (state : Reconciling) (task : ReminderCandidate) :
    (scheduleActive platform state task).under task.id = platform.renewed task (state.under task.id) := by
  rw [scheduleActive, Platform.renewed]
  by_cases hsame : state.nextScheduled.get task.id = some (reminderFingerprint task)
  · simp [Reconciling.under, hsame]
  · by_cases hdone : (platform.scheduleResult task).status = .scheduled
    · simp [Reconciling.under, hsame, hdone, OrderedMap.get_set]
    · cases hcancel : platform.cancel task.id <;>
        simp [Reconciling.under, hsame, hdone, OrderedMap.get_delete]

theorem under_scheduleActive_of_ne (state : Reconciling) {task : ReminderCandidate} {other : String}
    (h : other ≠ task.id) : (scheduleActive platform state task).under other = state.under other := by
  rw [scheduleActive]
  dsimp only [Reconciling.under]
  split
  · rfl
  · split
    · simp only [OrderedMap.get_set, if_neg h]
    · cases platform.cancel task.id with
      | ok done => simp only [OrderedMap.get_delete, if_neg h]
      | error rejection => simp only [OrderedMap.get_delete, if_neg h]

theorem keyed_activeTasks (tasks : List ReminderCandidate) :
    (activeTasks tasks).Keyed ReminderCandidate.id := by
  intro id task htask
  obtain ⟨found, -, hpair⟩ := List.mem_map.mp (OrderedMap.mem_of_get_ofList htask)
  cases hpair
  rfl

/-- What a call leaves under an id: an active task is renewed, and another id that was tracked is dropped. -/
theorem under_reconcileReminders (platform : Platform) (tasks : List ReminderCandidate) (held : Entries)
    (scheduled : OrderedMap String JsText) (id : String) :
    (reconcileReminders platform tasks held scheduled).under id =
      match (activeTasks tasks).get id with
      | some task => platform.renewed task ⟨held.get id, scheduled.get id⟩
      | none =>
          if (scheduled.get id).isSome then platform.dropped id ⟨held.get id, scheduled.get id⟩
          else ⟨held.get id, scheduled.get id⟩ := by
  have hkeyed := keyed_activeTasks tasks
  have hnodup : ((activeTasks tasks).values.map ReminderCandidate.id).Nodup := by
    rw [hkeyed.map_values]
    exact (activeTasks tasks).nodup
  have hkeys : (scheduled.keys.map fun id => id).Nodup := by
    rw [List.map_id']
    exact scheduled.nodup
  rw [reconcileReminders, foldl_own under_scheduleActive (fun _ _ _ => under_scheduleActive_of_ne _) _ _ hnodup,
    hkeyed.find_values, foldl_own under_cancelInactive (fun _ _ _ => under_cancelInactive_of_ne _) _ _ hkeys,
    find_key]
  have hstart : Reconciling.under ⟨held, scheduled, [], [], [], []⟩ id = ⟨held.get id, scheduled.get id⟩ := rfl
  rw [hstart]
  by_cases htracked : id ∈ scheduled.keys
  · rw [if_pos htracked, if_pos (OrderedMap.get_isSome_iff.mpr htracked)]
    cases hactive : (activeTasks tasks).get id <;> simp [Platform.swept, hactive]
  · rw [if_neg htracked, if_neg (mt OrderedMap.get_isSome_iff.mp htracked)]
    cases (activeTasks tasks).get id <;> rfl

end ShishiTodo.Reminders
