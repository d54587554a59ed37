import ShishiTodo.Push.Subscriptions
import ShishiTodo.Codecs

/-!
# The push worker

`run_worker_once` and the test notification, cut where they wait: for a statement of the database or for the push service. Several workers and any number of requests go on at once, and each event lets one of them take its next step.
-/

namespace ShishiTodo.Push

open Lib

inductive PushSendError where
  /-- The push service no longer knows the endpoint. -/
  | gone
  | transient
  deriving DecidableEq, Repr

structure PushTarget where
  subscriptionId : Uuid
  endpoint : String
  p256dh : String
  auth : String
  deriving DecidableEq, Repr

structure PushPayload where
  title : String
  body : String
  taskId : Option Uuid
  url : String
  deriving DecidableEq, Repr

structure ReminderTask where
  id : Uuid
  userId : Uuid
  title : String
  note : String
  deriving DecidableEq, Repr

def reminderPayload (env : Env) (taskId : Uuid) (title note : String) : PushPayload where
  title := title
  body := if (trim note).isEmpty then "Task reminder" else String.ofList (note.toList.take 500)
  taskId := some taskId
  url := "/?task=" ++ env.uuid.render taskId

def testPayload : PushPayload where
  title := "Test notification"
  body := "Web Push is configured correctly"
  taskId := none
  url := "/"

structure PushStats where
  sent : Nat
  failed : Nat
  skipped : Nat
  deriving DecidableEq, Repr

def PushStats.zero : PushStats := ⟨0, 0, 0⟩

/-! ### Queries -/

/-- The reminder came up within the last five minutes, and its task is open and live. -/
def due (now : Instant) (row : EntityRow TaskValues) : Bool :=
  (row.values.remindAt.any fun remindAt =>
      remindAt.nanos ≤ now.nanos && now.nanos - 300 * 1000000000 < remindAt.nanos) &&
    row.values.status == .open && row.deletedAt.isNone

/-- `ORDER BY remind_at, id`. -/
def reminderOrder (left right : Instant × ReminderTask) : Prop :=
  left.1.nanos < right.1.nanos ∨ left.1.nanos = right.1.nanos ∧ right.2.id.lt left.2.id = false

instance : DecidableRel reminderOrder := fun left right => by
  unfold reminderOrder
  infer_instance

def pushTaskBatch : Nat := 100

/-- The first query of `run_worker_once`. -/
def dueReminders (entities : Entities) (now : Instant) : List ReminderTask :=
  let rows := entities.tasks.entries.filterMap fun entry =>
    if due now entry.2 then
      entry.2.values.remindAt.map fun remindAt =>
        (remindAt, ⟨entry.1, entry.2.userId, entry.2.values.title, entry.2.values.note⟩)
    else none
  ((rows.insertionSort reminderOrder).take pushTaskBatch).map Prod.snd

/-- `ORDER BY created_at, id`. -/
def targetOrder (left right : Instant × PushTarget) : Prop :=
  left.1.nanos < right.1.nanos ∨
    left.1.nanos = right.1.nanos ∧ right.2.subscriptionId.lt left.2.subscriptionId = false

instance : DecidableRel targetOrder := fun left right => by
  unfold targetOrder
  infer_instance

def Subscription.target (id : Uuid) (row : Subscription) : PushTarget := ⟨id, row.endpoint, row.p256dh, row.auth⟩

def Tables.loadTargets (tables : Tables) (userId : Uuid) : List PushTarget :=
  let rows := tables.pushSubscriptions.entries.filterMap fun entry =>
    if entry.2.userId = userId ∧ entry.2.failedAt = none then
      some (entry.2.createdAt, entry.2.target entry.1)
    else none
  (rows.insertionSort targetOrder).map Prod.snd

/-! ### Jobs -/

/-- Where a tick of the worker, or a test notification, has got to. -/
inductive Job where
  /-- The targets of the first task are loaded next. -/
  | loading (tasks : List ReminderTask)
  /-- The claim on the first target is made next. -/
  | claiming (task : ReminderTask) (targets : List PushTarget) (tasks : List ReminderTask)
  /-- The push service has not answered yet. -/
  | sending (task : ReminderTask) (target : PushTarget) (targets : List PushTarget) (tasks : List ReminderTask)
  /-- What the answer asks for is written next. -/
  | settling (task : ReminderTask) (target : PushTarget) (answer : Except PushSendError Unit)
      (targets : List PushTarget) (tasks : List ReminderTask)
  | testLoading (userId : Uuid)
  | testSending (targets : List PushTarget)
  | testSettling (target : PushTarget) (answer : Except PushSendError Unit) (targets : List PushTarget)
  | finished
  /-- A statement failed, or the process stopped. -/
  | stopped

/-- What happened, as the job of the number saw it. -/
inductive Record where
  | selected (job : Nat) (now : Instant) (tasks : List ReminderTask)
  | loaded (job : Nat) (task : ReminderTask) (targets : List PushTarget)
  /-- The claim was made, and the notification goes out. -/
  | began (job : Nat) (task : ReminderTask) (target : PushTarget) (payload : PushPayload)
  /-- The claim of another tick was found. -/
  | skipped (job : Nat) (task : ReminderTask) (target : PushTarget)
  | answered (job : Nat) (task : ReminderTask) (target : PushTarget) (answer : Except PushSendError Unit)
  | released (job : Nat) (task : ReminderTask) (target : PushTarget)
  | finished (job : Nat) (stats : PushStats)
  /-- A test notification goes out. -/
  | tested (job : Nat) (target : PushTarget) (payload : PushPayload)
  deriving DecidableEq

/-- What one step of a job leaves. -/
structure Progress where
  tables : Tables
  job : Job
  stats : PushStats
  records : List Record

/-- `INSERT INTO push_deliveries … ON CONFLICT DO NOTHING`: refused without the task or the subscription, `none` where the row is there. -/
def Tables.claim (tables : Tables) (taskId subscriptionId : Uuid) (now : Instant) : PushResult (Option Tables) :=
  if (tables.pushDeliveries.lookup (taskId, subscriptionId)).isSome then .ok none
  else if (tables.db.entities.tasks.lookup taskId).isNone ∨
      (tables.pushSubscriptions.lookup subscriptionId).isNone then .error .database
  else .ok (some { tables with pushDeliveries := tables.pushDeliveries.insert (taskId, subscriptionId) now })

def Tables.release (tables : Tables) (taskId subscriptionId : Uuid) : Tables :=
  { tables with pushDeliveries := tables.pushDeliveries.erase (taskId, subscriptionId) }

def PushStats.count (stats : PushStats) : Except PushSendError Unit → PushStats
  | .ok _ => { stats with sent := stats.sent + 1 }
  | .error _ => { stats with failed := stats.failed + 1 }

def PushStats.skip (stats : PushStats) : PushStats := { stats with skipped := stats.skipped + 1 }

/-- The statement that an answer to a reminder asks for. -/
def Tables.settle (tables : Tables) (task : ReminderTask) (target : PushTarget) (now : Instant) :
    Except PushSendError Unit → Tables
  | .ok _ => tables.markSubscriptionSuccess target.subscriptionId now
  | .error .gone => tables.markSubscriptionFailed target.subscriptionId now
  | .error .transient => tables.release task.id target.subscriptionId

/-- The statement that an answer to a test notification asks for. -/
def Tables.settleTest (tables : Tables) (target : PushTarget) (now : Instant) :
    Except PushSendError Unit → Tables
  | .ok _ => tables.markSubscriptionSuccess target.subscriptionId now
  | .error .gone => tables.markSubscriptionFailed target.subscriptionId now
  | .error .transient => tables

/-- The next step of a job. The answer is the push service's, for a job that waits for one. -/
def advance (env : Env) (tables : Tables) (number : Nat) (stats : PushStats) (now : Instant)
    (answer : Except PushSendError Unit) : Job → Progress
  | .loading [] => ⟨tables, .finished, stats, [.finished number stats]⟩
  | .loading (task :: tasks) =>
      match tables.loadTargets task.userId with
      | [] => ⟨tables, .loading tasks, stats.skip, [.loaded number task []]⟩
      | target :: targets =>
          ⟨tables, .claiming task (target :: targets) tasks, stats, [.loaded number task (target :: targets)]⟩
  | .claiming _ [] tasks => ⟨tables, .loading tasks, stats, []⟩
  | .claiming task (target :: targets) tasks =>
      match tables.claim task.id target.subscriptionId now with
      | .error _ => ⟨tables, .stopped, stats, []⟩
      | .ok none => ⟨tables, .claiming task targets tasks, stats.skip, [.skipped number task target]⟩
      | .ok (some claimed) =>
          ⟨claimed, .sending task target targets tasks, stats,
            [.began number task target (reminderPayload env task.id task.title task.note)]⟩
  | .sending task target targets tasks =>
      ⟨tables, .settling task target answer targets tasks, stats.count answer,
        [.answered number task target answer]⟩
  | .settling task target answer targets tasks =>
      ⟨tables.settle task target now answer, .claiming task targets tasks, stats,
        if answer = .error .transient then [.released number task target] else []⟩
  | .testLoading userId => ⟨tables, .testSending (tables.loadTargets userId), stats, []⟩
  | .testSending [] => ⟨tables, .finished, stats, []⟩
  | .testSending (target :: targets) =>
      ⟨tables, .testSettling target answer targets, stats.count answer, [.tested number target testPayload]⟩
  | .testSettling target answer targets =>
      ⟨tables.settleTest target now answer, .testSending targets, stats, []⟩
  | .finished => ⟨tables, .finished, stats, []⟩
  | .stopped => ⟨tables, .stopped, stats, []⟩

/-! ### Runs -/

structure State where
  tables : Tables
  /-- Every tick and every test notification so far, under its number. -/
  jobs : List (Job × PushStats)

def State.empty : State := ⟨.empty, []⟩

inductive Event where
  /-- Something else happens to the server's tables. -/
  | server (event : ServerEvent)
  /-- The identifier is `Uuid::new_v4`'s, which gives none twice. -/
  | subscribe (auth : AuthUser) (newId : Uuid) (request : SubscribeRequest) (now : Instant)
  | unsubscribe (auth : AuthUser) (endpoint : String)
  | test (auth : AuthUser) (now : Instant)
  /-- A worker begins a tick. -/
  | tick (now : Instant)
  | next (number : Nat) (now : Instant) (answer : Except PushSendError Unit)
  | stop (number : Nat)

namespace State

variable (env : Env) (site : Site) (state : State)

/-- What the next step of the job of the number leaves, when there is one. -/
def progress (number : Nat) (now : Instant) (answer : Except PushSendError Unit) : Option Progress :=
  state.jobs[number]?.map fun job => advance env state.tables number job.2 now answer job.1

/-- `send_test` up to its first wait. -/
def beginTest (auth : AuthUser) (now : Instant) : State :=
  match requirePush site *> state.tables.consumeTestQuota auth.userId now with
  | .error _ => state
  | .ok tables => ⟨tables, state.jobs ++ [(.testLoading auth.userId, .zero)]⟩

def step : Event → State
  | .server event => { state with tables := { state.tables with db := serverStep env state.tables.db event } }
  | .subscribe auth newId request now =>
      if newId ∈ state.tables.drawn then state
      else { state with tables := (state.tables.subscribe site auth newId request now).2 }
  | .unsubscribe auth endpoint => { state with tables := (state.tables.unsubscribe site auth endpoint).2 }
  | .test auth now => state.beginTest site auth now
  | .tick now =>
      { state with jobs := state.jobs ++ [(.loading (dueReminders state.tables.db.entities now), .zero)] }
  | .next number now answer =>
      match state.progress env number now answer with
      | none => state
      | some progress => ⟨progress.tables, state.jobs.set number (progress.job, progress.stats)⟩
  | .stop number => { state with jobs := state.jobs.modify number fun job => (.stopped, job.2) }

def emit : Event → List Record
  | .tick now => [.selected state.jobs.length now (dueReminders state.tables.db.entities now)]
  | .next number now answer => ((state.progress env number now answer).map Progress.records).getD []
  | _ => []

end State

/-- The server with its push workers. -/
def worker (env : Env) (site : Site) : Machine State Event Record where
  step state event := state.step env site event
  emit := State.emit env

/-! ### One household -/

/-- A site whose crate reads every secure address. -/
def plainSite : Site where
  development := false
  configured := true
  parseUri text :=
    if text.toList.take 8 = "https://".toList then some ⟨some "https", some "push.example.com"⟩ else none

def gardener : AuthUser := ⟨⟨1⟩, ⟨2⟩⟩

def neighbour : AuthUser := ⟨⟨11⟩, ⟨12⟩⟩

def browser : SubscribeRequest := ⟨"https://push.example.com/a", "AAAA", "AAAA", none⟩

/-- Creates a task whose reminder comes up ten minutes after the epoch. -/
def wateringRequest : SyncRequest where
  deviceId := gardener.deviceId
  cursor := "0"
  ops := [⟨⟨3⟩, 1, .task, ⟨5⟩, .create,
    .obj [("title", .str "Water the plants"), ("remind_at", .str "1970-01-01T00:10:00Z")]⟩]
  limit := none

def watering : ReminderTask := ⟨⟨5⟩, ⟨1⟩, "Water the plants", ""⟩

def wateringTarget : PushTarget := ⟨⟨30⟩, browser.endpoint, browser.p256dh, browser.auth⟩

/-- The reminder came up, and the tick has loaded the browser it goes to. -/
def wateringDue : List Event :=
  [.server (.signUp gardener.userId), .server (.signIn gardener),
    .server (.request ⟨⟨1000⟩, ⟨2000⟩⟩ gardener wateringRequest), .subscribe gardener ⟨30⟩ browser ⟨3000⟩,
    .tick ⟨600000000001⟩, .next 0 ⟨600000000002⟩ (.ok ())]

end ShishiTodo.Push
