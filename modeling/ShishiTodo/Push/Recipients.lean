import ShishiTodo.Push.Leased
import ShishiTodo.Server.Tombstones
import Mathlib.Data.List.Induction

/-!
# Who is reminded, and of what

A tick keeps its tasks and its targets while other requests change the rows it took them from. What stays is whose rows they are: no account's task is ever announced to another account's subscription, and every reminder is of a task that was due when its tick began, sent to a subscription that had not failed when its targets were loaded.
-/

namespace ShishiTodo.Push

open Lib

/-! ### Rows keep their accounts -/

/-- The account of a task's row. -/
def taskOwner (entities : Entities) (id : Uuid) : Option Uuid := (entities.tasks.lookup id).map EntityRow.userId

theorem taskOwner_eq_status (entities : Entities) (id : Uuid) :
    taskOwner entities id = (entities.status (.task, id)).map RowStatus.userId := by
  rw [taskOwner, Entities.status, Option.map_map]
  rfl

theorem taskOwner_written {entities next : Entities} {userId owner id : Uuid} {mutation : Mutation}
    (h : StatusWritten entities next userId mutation) (howner : taskOwner entities id = some owner) :
    taskOwner next id = some owner := by
  rw [taskOwner_eq_status] at howner ⊢
  by_cases hkey : (EntityType.task, id) = (mutation.entity, mutation.entityId)
  · obtain ⟨old, hold, rfl⟩ := Option.map_eq_some_iff.mp howner
    obtain ⟨status, hstatus, hmine⟩ := h.written
    rw [hkey] at hold ⊢
    rw [hstatus, Option.map_some, hmine, h.owner old hold]
  · rw [h.others _ hkey, howner]

theorem taskOwner_serveSync {env : Env} {clock : Clock} {auth : AuthUser} {body : SyncRequest} {db : Db}
    {id owner : Uuid} (howner : taskOwner db.entities id = some owner) :
    taskOwner (serveSync env clock auth body db).2.entities id = some owner := by
  unfold serveSync
  cases hsync : sync env clock auth body db with
  | error error => exact howner
  | ok answer =>
      obtain ⟨response, next⟩ := answer
      obtain ⟨committed, rfl, -⟩ := sync_eq_ok hsync
      show taskOwner committed.result.entities id = some owner
      rw [committed.result_entities]
      refine processOps_invariant (fun state _ => taskOwner state.db.entities id = some owner) ?_
        body.ops committed.start committed.final [] committed.loop_eq_ok howner
      intro state _ mutation next hbefore houtcome
      cases houtcome with
      | known receipt => exact hbefore
      | old => exact hbefore
      | applied patch entities hfresh happly => exact taskOwner_written (applyMutation_written happly) hbefore
      | rejected errorCode hfresh => exact hbefore

/-- Whatever happens to the server, a task stays with its account. -/
theorem taskOwner_serverStep {env : Env} {db : Db} {event : ServerEvent} {id owner : Uuid}
    (howner : taskOwner db.entities id = some owner) :
    taskOwner (serverStep env db event).entities id = some owner := by
  have hsame : ∀ next : Db, next.entities = db.entities → taskOwner next.entities id = some owner := by
    intro next hentities
    rwa [hentities]
  cases event with
  | signUp userId =>
      refine hsame (db.signUp userId) ?_
      unfold Db.signUp
      split <;> rfl
  | signIn auth =>
      refine hsame (db.signIn auth) ?_
      unfold Db.signIn
      split
      · rfl
      · dsimp only
        split
        · rfl
        · split
          · rfl
          · split <;> rfl
  | revokeDevice auth now =>
      refine hsame (db.revokeDevice auth now) ?_
      unfold Db.revokeDevice
      split
      · rfl
      · dsimp only
        split <;> rfl
  | request clock auth body => exact taskOwner_serveSync howner
  | cleanupReceipts cutoff chosen => exact howner
  | pruneChangeLog cutoff batchSize =>
      refine hsame (db.pruneChangeLog cutoff batchSize) ?_
      have hraise : ∀ (users : List Uuid) (before : Db),
          (users.foldl Db.raiseMinAvailable before).entities = before.entities := by
        intro users
        induction users with
        | nil => exact fun before => rfl
        | cons user rest ih => exact fun before => ih (before.raiseMinAvailable user)
      exact hraise _ _

def Tables.addressOf (tables : Tables) (id : Uuid) : Option (Uuid × String) :=
  (tables.pushSubscriptions.lookup id).map Subscription.address

/-- A subscription with an old identifier was there before, with the same address. -/
theorem Tables.Resubscribed.addressOf {tables next : Tables} (h : tables.Resubscribed next) {id : Uuid}
    {address : Uuid × String} (hissued : tables.Issued id) (haddress : next.addressOf id = some address) :
    tables.addressOf id = some address := by
  unfold Tables.addressOf at haddress ⊢
  cases h with
  | same hsame => rwa [hsame] at haddress
  | written other row change hrow hnext hkept =>
      rw [hnext, Table.lookup_insert_eq_ite] at haddress
      split at haddress
      · rename_i hsame
        rw [hsame, hrow]
        rwa [Option.map_some, hkept] at haddress
      · exact haddress
  | added newId row hnew _ hfree hnext =>
      have hother : id ≠ newId := by
        rintro rfl
        exact hnew hissued
      rwa [hnext, Table.lookup_insert_eq_ite, if_neg hother] at haddress

section

variable {env : Env} {state next : State} {event : Event} {records : List Record} {id : Uuid}

theorem Turn.taskOwner {owner : Uuid} (h : Turn env state event next records)
    (howner : Push.taskOwner state.tables.db.entities id = some owner) :
    Push.taskOwner next.tables.db.entities id = some owner := by
  cases h with
  | server event => exact taskOwner_serverStep howner
  | quiet hquiet => rwa [hquiet.db]
  | testing userId hquiet => rwa [hquiet.db]
  | advanced hjob hstep => rwa [hstep.resubscribed.1]
  | _ => exact howner

theorem Turn.drawn (h : Turn env state event next records) : state.tables.drawn ⊆ next.tables.drawn := by
  cases h with
  | quiet hquiet => exact hquiet.drawn
  | testing userId hquiet => exact hquiet.drawn
  | advanced hjob hstep => exact hstep.resubscribed.2.1
  | _ => exact List.Subset.refl _

theorem Turn.addressOf {address : Uuid × String} (h : Turn env state event next records)
    (hissued : state.tables.Issued id) (haddress : next.tables.addressOf id = some address) :
    state.tables.addressOf id = some address := by
  cases h with
  | quiet hquiet => exact hquiet.rows.addressOf hissued haddress
  | testing userId hquiet => exact hquiet.rows.addressOf hissued haddress
  | advanced hjob hstep => exact hstep.resubscribed.2.2.addressOf hissued haddress
  | unsubscribed auth text endpoint =>
      obtain ⟨row, hrow, hsame⟩ := Option.map_eq_some_iff.mp haddress
      exact Option.map_eq_some_iff.mpr ⟨row, Table.lookup_of_lookup_select hrow, hsame⟩
  | _ => exact haddress

end

/-! ### Along a run -/

section

variable (env : Env) (site : Site)

theorem taskOwner_run (rest : List Event) (state : State) {id owner : Uuid}
    (howner : taskOwner state.tables.db.entities id = some owner) :
    taskOwner ((worker env site).run state rest).tables.db.entities id = some owner := by
  induction rest generalizing state with
  | nil => exact howner
  | cons event rest ih => exact ih _ ((worker_turn env site state event).taskOwner howner)

theorem addressOf_run (rest : List Event) (state : State) {id : Uuid} {address : Uuid × String}
    (hissued : state.tables.Issued id)
    (haddress : ((worker env site).run state rest).tables.addressOf id = some address) :
    state.tables.addressOf id = some address := by
  induction rest generalizing state with
  | nil => exact haddress
  | cons event rest ih =>
      have hturn := worker_turn env site state event
      exact hturn.addressOf hissued (ih _ (hturn.drawn hissued) haddress)

end

/-! ### Where tasks and targets come from -/

theorem mem_dueReminders {entities : Entities} {now : Instant} {task : ReminderTask}
    (h : task ∈ dueReminders entities now) : ∃ row, entities.tasks.lookup task.id = some row ∧
      due now row = true ∧ task = ⟨task.id, row.userId, row.values.title, row.values.note⟩ := by
  obtain ⟨⟨remindAt, found⟩, hrow, rfl⟩ := List.mem_map.mp h
  have hmem := (List.perm_insertionSort _ _).mem_iff.mp (List.mem_of_mem_take hrow)
  obtain ⟨entry, hentry, hsome⟩ := List.mem_filterMap.mp hmem
  split at hsome
  · rename_i hdue
    obtain ⟨at', -, hpair⟩ := Option.map_eq_some_iff.mp hsome
    obtain ⟨-, rfl⟩ := Prod.mk.inj hpair
    exact ⟨entry.2, Table.mem_entries_iff.mp hentry, hdue, rfl⟩
  · cases hsome

theorem mem_loadTargets {tables : Tables} {userId : Uuid} {target : PushTarget}
    (h : target ∈ tables.loadTargets userId) :
    ∃ row, tables.pushSubscriptions.lookup target.subscriptionId = some row ∧ row.userId = userId ∧
      row.failedAt = none ∧ target = row.target target.subscriptionId := by
  obtain ⟨⟨createdAt, found⟩, hrow, rfl⟩ := List.mem_map.mp h
  have hmem := (List.perm_insertionSort _ _).mem_iff.mp hrow
  obtain ⟨entry, hentry, hsome⟩ := List.mem_filterMap.mp hmem
  split at hsome
  · rename_i hlive
    obtain ⟨-, rfl⟩ := Prod.mk.inj (Option.some.inj hsome)
    exact ⟨entry.2, Table.mem_entries_iff.mp hentry, hlive.1, hlive.2, rfl⟩
  · cases hsome

/-- The tasks that a job has not done with. -/
def Job.tasks : Job → List ReminderTask
  | .loading tasks => tasks
  | .claiming task _ tasks => task :: tasks
  | .sending task _ _ tasks => task :: tasks
  | .settling task _ _ _ tasks => task :: tasks
  | _ => []

/-- The targets that a tick has loaded and not done with, with their task. -/
def Job.aims : Job → List (ReminderTask × PushTarget)
  | .claiming task targets _ => targets.map fun target => (task, target)
  | .sending task target targets _ => (task, target) :: targets.map fun target => (task, target)
  | .settling task target _ targets _ => (task, target) :: targets.map fun target => (task, target)
  | _ => []

section

variable {env : Env} {tables : Tables} {number : Nat} {stats : PushStats} {job : Job} {progress : Progress}
  {task : ReminderTask} {target : PushTarget}

theorem Job.Step.mem_tasks (h : job.Step env tables number stats progress) (htask : task ∈ progress.job.tasks) :
    task ∈ job.tasks := by
  cases h with
  | untargeted hload => exact List.mem_cons_of_mem _ htask
  | tried => exact List.mem_cons_of_mem _ htask
  | failed => cases htask
  | _ => exact htask

theorem Job.Step.mem_aims (h : job.Step env tables number stats progress)
    (haim : (task, target) ∈ progress.job.aims) :
    (task, target) ∈ job.aims ∨ target ∈ tables.loadTargets task.userId := by
  cases h with
  | loaded hload =>
      obtain ⟨found, hfound, hpair⟩ := List.mem_map.mp haim
      cases hpair
      rw [hload]
      exact .inr hfound
  | failed => cases haim
  | tried => cases haim
  | skipped => exact .inl (List.mem_cons_of_mem _ haim)
  | settled hanswer hquiet => exact .inl (List.mem_cons_of_mem _ haim)
  | released => exact .inl (List.mem_cons_of_mem _ haim)
  | _ => exact .inl haim

/-- A reminder goes out for the first of the job's targets, while its subscription is there. -/
theorem Job.Step.of_began (h : job.Step env tables number stats progress) {other : Nat} {payload : PushPayload}
    (hbegan : .began other task target payload ∈ progress.records) :
    task ∈ job.tasks ∧ (task, target) ∈ job.aims ∧ other = number ∧
      payload = reminderPayload env task.id task.title task.note ∧
      (tables.pushSubscriptions.lookup target.subscriptionId).isSome := by
  cases h with
  | began hrow hsubscribed =>
      obtain ⟨rfl, rfl, rfl, rfl⟩ := Record.began.inj (List.mem_singleton.mp hbegan)
      exact ⟨List.mem_cons_self, List.mem_cons_self, rfl, rfl, hsubscribed⟩
  | _ => simp at hbegan

end

/-! ### Every reminder has its grounds -/

section

variable (env : Env) (site : Site)

abbrev after (events : List Event) : State := (worker env site).run .empty events

/-- The tick of the number selected the task, whose row was due then. -/
def Selected (events : List Event) (number : Nat) (task : ReminderTask) : Prop :=
  ∃ first now rest, events = first ++ .tick now :: rest ∧ (after env site first).jobs.length = number ∧
    ∃ row, (after env site first).tables.db.entities.tasks.lookup task.id = some row ∧ due now row = true ∧
      task = ⟨task.id, row.userId, row.values.title, row.values.note⟩

/-- The tick of the number loaded the target for the task, from a subscription of the task's account that had not failed. -/
def Loaded (events : List Event) (number : Nat) (task : ReminderTask) (target : PushTarget) : Prop :=
  ∃ first now answer rest, events = first ++ .next number now answer :: rest ∧
    ∃ row, (after env site first).tables.pushSubscriptions.lookup target.subscriptionId = some row ∧
      row.userId = task.userId ∧ row.failedAt = none ∧ target = row.target target.subscriptionId

variable {env site}

theorem Selected.concat {events : List Event} {number : Nat} {task : ReminderTask}
    (h : Selected env site events number task) (event : Event) :
    Selected env site (events ++ [event]) number task := by
  obtain ⟨first, now, rest, rfl, hrow⟩ := h
  exact ⟨first, now, rest ++ [event], by simp, hrow⟩

theorem Loaded.concat {events : List Event} {number : Nat} {task : ReminderTask} {target : PushTarget}
    (h : Loaded env site events number task target) (event : Event) :
    Loaded env site (events ++ [event]) number task target := by
  obtain ⟨first, now, answer, rest, rfl, hrow⟩ := h
  exact ⟨first, now, answer, rest ++ [event], by simp, hrow⟩

/-- A job works on nothing but what its own tick selected and loaded. -/
theorem job_sourced (events : List Event) : ∀ (number : Nat) (job : Job) (stats : PushStats),
    (after env site events).jobs[number]? = some (job, stats) →
    (∀ task ∈ job.tasks, Selected env site events number task) ∧
      ∀ aim ∈ job.aims, Loaded env site events number aim.1 aim.2 := by
  induction events using List.reverseRecOn with
  | nil => exact fun number job stats h => by cases h
  | append_singleton events event ih =>
      intro number job stats h
      rw [after, Machine.run_append] at h
      have hsource := (worker_turn env site (after env site events) event).source h
      generalize (worker env site).emit _ event = records at hsource
      cases hsource with
      | kept hold hothers =>
          obtain ⟨htasks, haims⟩ := ih number job stats hold
          exact ⟨fun task htask => (htasks task htask).concat event, fun aim haim => (haims aim haim).concat event⟩
      | test userId hsame =>
          cases hsame
          exact ⟨nofun, nofun⟩
      | tick now hnumber hsame =>
          cases hsame
          refine ⟨fun task htask => ?_, nofun⟩
          obtain ⟨row, hrow, hdue, hsame⟩ := mem_dueReminders htask
          exact ⟨events, now, [], rfl, hnumber.symm, row, hrow, hdue, hsame⟩
      | step hold hstep hsame =>
          rename_i now answer old oldStats progress
          cases hsame
          obtain ⟨htasks, haims⟩ := ih number old oldStats hold
          refine ⟨fun task htask => (htasks task (hstep.mem_tasks htask)).concat _, fun aim haim => ?_⟩
          obtain hkept | hloaded := hstep.mem_aims haim
          · exact (haims aim hkept).concat _
          · obtain ⟨row, hrow, howner, hlive, hsame⟩ := mem_loadTargets hloaded
            exact ⟨events, now, answer, [], rfl, row, hrow, howner, hlive, hsame⟩
      | stop hsame =>
          obtain rfl : job = .stopped := hsame
          exact ⟨nofun, nofun⟩

/-- What stands behind a reminder when it goes out. -/
structure Grounded (env : Env) (site : Site) (before : List Event) (number : Nat) (task : ReminderTask)
    (target : PushTarget) (payload : PushPayload) : Prop where
  payload : payload = reminderPayload env task.id task.title task.note
  selected : Selected env site before number task
  loaded : Loaded env site before number task target
  /-- The task and the subscription belong to one account, still. -/
  taskRow : ∃ row, (after env site before).tables.db.entities.tasks.lookup task.id = some row ∧
    row.userId = task.userId
  subscriptionRow : ∃ row, (after env site before).tables.pushSubscriptions.lookup target.subscriptionId = some row ∧
    row.userId = task.userId ∧ row.endpoint = target.endpoint

/-- Every reminder of every run has its grounds. -/
theorem reminders_grounded (env : Env) (site : Site) (before : List Event) (event : Event) (number : Nat)
    (task : ReminderTask) (target : PushTarget) (payload : PushPayload)
    (h : .began number task target payload ∈ (worker env site).emit (after env site before) event) :
    Grounded env site before number task target payload := by
  cases event with
  | next other now answer =>
      change _ ∈ (((after env site before).progress env other now answer).map Progress.records).getD [] at h
      cases hjob : (after env site before).jobs[other]? with
      | none =>
          rw [State.progress, hjob] at h
          cases h
      | some job =>
          rw [State.progress, hjob] at h
          obtain ⟨htask, haim, rfl, hpayload, hsubscribed⟩ := (advance_step now answer).of_began h
          obtain ⟨htasks, haims⟩ := job_sourced before number job.1 job.2 hjob
          have hselected := htasks task htask
          have hloaded : Loaded env site before number task target := haims _ haim
          refine ⟨hpayload, hselected, hloaded, ?_, ?_⟩
          · obtain ⟨first, tickedAt, rest, rfl, -, row, hrow, -, hsame⟩ := hselected
            have howner : taskOwner (after env site first).tables.db.entities task.id = some task.userId := by
              rw [taskOwner, hrow, hsame]
              rfl
            have hstill := taskOwner_run env site (.tick tickedAt :: rest) _ howner
            rw [after, Machine.run_append]
            exact Option.map_eq_some_iff.mp hstill
          · obtain ⟨first, loadedAt, given, rest, rfl, row, hrow, howner, -, hsame⟩ := hloaded
            have hissued := (leased_run env site first).subscribed target.subscriptionId (by
              rw [hrow]
              rfl)
            obtain ⟨found, hfound⟩ := Option.isSome_iff_exists.mp hsubscribed
            rw [after, Machine.run_append] at hfound ⊢
            have hfoundAddress := congrArg (Option.map Subscription.address) hfound
            have hold := addressOf_run env site (.next number loadedAt given :: rest) _ hissued hfoundAddress
            rw [Tables.addressOf, hrow] at hold
            obtain ⟨huser, hendpoint⟩ := Prod.mk.inj (Option.some.inj hold)
            refine ⟨found, hfound, huser.symm.trans howner, ?_⟩
            rw [← hendpoint, hsame]
            rfl
  | tick now => cases List.mem_singleton.mp h
  | _ => cases h

end

theorem reminders_grounded_watering :
    Grounded Env.utc plainSite wateringDue 0 watering wateringTarget
      (reminderPayload Env.utc ⟨5⟩ "Water the plants" "") :=
  reminders_grounded Env.utc plainSite wateringDue (.next 0 ⟨600000000003⟩ (.ok ())) 0 watering wateringTarget _
    (by decide)

end ShishiTodo.Push
