import ShishiTodo.Push.Worker

/-!
# What a step can do

A step of the server with its workers has one of a few forms, and a step of one job one of a few more. What is true in every run is proved by these cases.
-/

namespace ShishiTodo.Push

open Lib

/-! ### The subscriptions -/

/-- What never changes of a subscription: its account, and its endpoint. -/
def Subscription.address (row : Subscription) : Uuid × String := (row.userId, row.endpoint)

namespace Tables

variable {tables next : Tables}

/-- The identifier is one of those given so far. -/
def Issued (tables : Tables) (id : Uuid) : Prop := id ∈ tables.drawn

theorem byEndpoint_eq_some {endpoint : String} {id : Uuid} {row : Subscription}
    (h : tables.byEndpoint endpoint = some (id, row)) :
    tables.pushSubscriptions.lookup id = some row ∧ row.endpoint = endpoint := by
  obtain ⟨⟨key, kept⟩, hentry, hpair⟩ := Option.map_eq_some_iff.mp h
  obtain ⟨rfl, rfl⟩ := Prod.mk.inj hpair
  have htest := List.find?_some hentry
  exact ⟨Table.mem_entries_iff.mp (List.mem_of_find?_eq_some hentry), by simpa using htest⟩

theorem byEndpoint_eq_none {endpoint : String} (h : tables.byEndpoint endpoint = none)
    {id : Uuid} {row : Subscription} (hrow : tables.pushSubscriptions.lookup id = some row) :
    row.endpoint ≠ endpoint := by
  have hnone := List.find?_eq_none.mp (Option.map_eq_none_iff.mp h) ⟨id, row⟩ (Table.mem_entries_iff.mpr hrow)
  simpa using hnone

/-- The subscriptions after a step that deletes none. -/
inductive Resubscribed (tables next : Tables) : Prop
  | same (h : next.pushSubscriptions = tables.pushSubscriptions)
  /-- One row is written, under its account and its endpoint. -/
  | written (id : Uuid) (row change : Subscription) (hrow : tables.pushSubscriptions.lookup id = some row)
      (h : next.pushSubscriptions = tables.pushSubscriptions.insert id change)
      (haddress : change.address = row.address)
  /-- One is added, for an endpoint that had none. -/
  | added (newId : Uuid) (row : Subscription) (hnew : ¬ tables.Issued newId) (hissued : next.Issued newId)
      (hfree : tables.byEndpoint row.endpoint = none)
      (h : next.pushSubscriptions = tables.pushSubscriptions.insert newId row)

/-- A step that makes no claim, gives none back, and deletes nothing. -/
structure Quiet (tables next : Tables) : Prop where
  db : next.db = tables.db
  deliveries : next.pushDeliveries = tables.pushDeliveries
  drawn : tables.drawn ⊆ next.drawn
  rows : tables.Resubscribed next

theorem Quiet.refl (tables : Tables) : tables.Quiet tables := ⟨rfl, rfl, List.Subset.refl _, .same rfl⟩

/-- A subscription was there before, or its identifier is new. -/
theorem Quiet.subscribed (h : tables.Quiet next) {id : Uuid} (hid : (next.pushSubscriptions.lookup id).isSome) :
    (tables.pushSubscriptions.lookup id).isSome ∨ ¬ tables.Issued id ∧ next.Issued id := by
  cases h.rows with
  | same hsame => exact .inl (hsame ▸ hid)
  | written other row change hrow hnext haddress =>
      rw [hnext, Table.lookup_insert_eq_ite] at hid
      split at hid
      · rename_i hsame
        rw [hsame, hrow]
        exact .inl rfl
      · exact .inl hid
  | added newId row hnew hissued hfree hnext =>
      rw [hnext, Table.lookup_insert_eq_ite] at hid
      split at hid
      · rename_i hsame
        rw [hsame]
        exact .inr ⟨hnew, hissued⟩
      · exact .inl hid

theorem quiet_updateSubscription (tables : Tables) (id : Uuid) {change : Subscription → Subscription}
    (hchange : ∀ row, (change row).address = row.address) : tables.Quiet (tables.updateSubscription id change) := by
  unfold updateSubscription
  cases hrow : tables.pushSubscriptions.lookup id with
  | none => exact .refl tables
  | some row => exact ⟨rfl, rfl, List.Subset.refl _, .written id row _ hrow rfl (hchange row)⟩

theorem quiet_settleTest (tables : Tables) (target : PushTarget) (now : Instant)
    (answer : Except PushSendError Unit) : tables.Quiet (tables.settleTest target now answer) := by
  match answer with
  | .ok _ => exact tables.quiet_updateSubscription _ fun _ => rfl
  | .error .gone => exact tables.quiet_updateSubscription _ fun _ => rfl
  | .error .transient => exact .refl tables

theorem quiet_settle {task : ReminderTask} {target : PushTarget} {now : Instant}
    {answer : Except PushSendError Unit} (h : answer ≠ .error .transient) :
    tables.Quiet (tables.settle task target now answer) := by
  match answer with
  | .ok _ => exact tables.quiet_updateSubscription _ fun _ => rfl
  | .error .gone => exact tables.quiet_updateSubscription _ fun _ => rfl
  | .error .transient => exact absurd rfl h

theorem quiet_subscribe {site : Site} {auth : AuthUser} {newId : Uuid} (hnew : ¬ tables.Issued newId)
    (request : SubscribeRequest) (now : Instant) :
    tables.Quiet (tables.subscribe site auth newId request now).2 := by
  unfold subscribe
  split
  · exact .refl tables
  · rename_i valid hvalid
    have hnext : tables.Quiet (tables.upsertSubscription newId auth.userId valid now).2 := by
      unfold upsertSubscription
      cases hfound : tables.byEndpoint valid.endpoint with
      | none => exact ⟨rfl, rfl, List.subset_cons_self newId _, .added newId _ hnew List.mem_cons_self hfound rfl⟩
      | some found =>
          obtain ⟨id, row⟩ := found
          dsimp only
          split
          · have hrow := (byEndpoint_eq_some hfound).1
            exact ⟨rfl, rfl, List.subset_cons_self newId _, .written id row _ hrow rfl rfl⟩
          · exact ⟨rfl, rfl, List.subset_cons_self newId _, .same rfl⟩
    split
    · exact .refl tables
    · split <;> rename_i hsame <;> rwa [hsame] at hnext

end Tables

/-! ### A job -/

/-- The job that left the record. -/
def Record.job : Record → Nat
  | .selected job _ _ => job
  | .loaded job _ _ => job
  | .began job _ _ _ => job
  | .skipped job _ _ => job
  | .answered job _ _ _ => job
  | .released job _ _ => job
  | .finished job _ => job
  | .tested job _ _ => job

/-- One step of a job. -/
inductive Job.Step (env : Env) (tables : Tables) (number : Nat) (stats : PushStats) : Job → Progress → Prop
  | ended : Step env tables number stats (.loading []) ⟨tables, .finished, stats, [.finished number stats]⟩
  | untargeted {task tasks} (h : tables.loadTargets task.userId = []) :
      Step env tables number stats (.loading (task :: tasks))
        ⟨tables, .loading tasks, stats.skip, [.loaded number task []]⟩
  | loaded {task tasks target targets} (h : tables.loadTargets task.userId = target :: targets) :
      Step env tables number stats (.loading (task :: tasks))
        ⟨tables, .claiming task (target :: targets) tasks, stats, [.loaded number task (target :: targets)]⟩
  | tried {task tasks} : Step env tables number stats (.claiming task [] tasks) ⟨tables, .loading tasks, stats, []⟩
  | failed {task target targets tasks} :
      Step env tables number stats (.claiming task (target :: targets) tasks) ⟨tables, .stopped, stats, []⟩
  | skipped {task target targets tasks} :
      Step env tables number stats (.claiming task (target :: targets) tasks)
        ⟨tables, .claiming task targets tasks, stats.skip, [.skipped number task target]⟩
  | began {task target targets tasks now}
      (hrow : tables.pushDeliveries.lookup (task.id, target.subscriptionId) = none)
      (hsubscribed : (tables.pushSubscriptions.lookup target.subscriptionId).isSome) :
      Step env tables number stats (.claiming task (target :: targets) tasks)
        ⟨{ tables with pushDeliveries := tables.pushDeliveries.insert (task.id, target.subscriptionId) now },
          .sending task target targets tasks, stats,
          [.began number task target (reminderPayload env task.id task.title task.note)]⟩
  | answered {task target targets tasks answer} :
      Step env tables number stats (.sending task target targets tasks)
        ⟨tables, .settling task target answer targets tasks, stats.count answer,
          [.answered number task target answer]⟩
  | settled {task target answer targets tasks next} (hanswer : answer ≠ .error .transient)
      (hquiet : tables.Quiet next) :
      Step env tables number stats (.settling task target answer targets tasks)
        ⟨next, .claiming task targets tasks, stats, []⟩
  | released {task target targets tasks} :
      Step env tables number stats (.settling task target (.error .transient) targets tasks)
        ⟨tables.release task.id target.subscriptionId, .claiming task targets tasks, stats,
          [.released number task target]⟩
  | testLoaded {userId targets} :
      Step env tables number stats (.testLoading userId) ⟨tables, .testSending targets, stats, []⟩
  | testEnded : Step env tables number stats (.testSending []) ⟨tables, .finished, stats, []⟩
  | tested {target answer targets} :
      Step env tables number stats (.testSending (target :: targets))
        ⟨tables, .testSettling target answer targets, stats.count answer, [.tested number target testPayload]⟩
  | testSettled {target answer targets next} (hquiet : tables.Quiet next) :
      Step env tables number stats (.testSettling target answer targets) ⟨next, .testSending targets, stats, []⟩
  | finished : Step env tables number stats .finished ⟨tables, .finished, stats, []⟩
  | stopped : Step env tables number stats .stopped ⟨tables, .stopped, stats, []⟩

section

variable {env : Env} {tables : Tables} {number : Nat} {stats : PushStats} {job : Job} {progress : Progress}

theorem advance_step (now : Instant) (answer : Except PushSendError Unit) :
    job.Step env tables number stats (advance env tables number stats now answer job) := by
  match job with
  | .loading [] => exact .ended
  | .loading (task :: tasks) =>
      unfold advance
      dsimp only
      split
      · rename_i hload
        exact .untargeted hload
      · rename_i hload
        exact .loaded hload
  | .claiming task [] tasks => exact .tried
  | .claiming task (target :: targets) tasks =>
      unfold advance Tables.claim
      dsimp only
      by_cases hrow : (tables.pushDeliveries.lookup (task.id, target.subscriptionId)).isSome = true
      · rw [if_pos hrow]
        exact .skipped
      · rw [if_neg hrow]
        by_cases hparents : (tables.db.entities.tasks.lookup task.id).isNone = true ∨
            (tables.pushSubscriptions.lookup target.subscriptionId).isNone = true
        · rw [if_pos hparents]
          exact .failed
        · rw [if_neg hparents]
          refine .began ?_ ?_
          · simpa using hrow
          · simp only [not_or, Option.isNone_iff_eq_none, ← Option.isSome_iff_ne_none] at hparents
            exact hparents.2
  | .sending task target targets tasks => exact .answered
  | .settling task target (.ok _) targets tasks => exact .settled nofun (Tables.quiet_settle nofun)
  | .settling task target (.error .gone) targets tasks => exact .settled nofun (Tables.quiet_settle nofun)
  | .settling task target (.error .transient) targets tasks => exact .released
  | .testLoading userId => exact .testLoaded
  | .testSending [] => exact .testEnded
  | .testSending (target :: targets) => exact .tested
  | .testSettling target given targets => exact .testSettled (tables.quiet_settleTest target now given)
  | .finished => exact .finished
  | .stopped => exact .stopped

theorem Job.Step.own (h : job.Step env tables number stats progress) :
    ∀ record ∈ progress.records, record.job = number := by
  cases h <;> simp [Record.job]

theorem Job.Step.resubscribed (h : job.Step env tables number stats progress) :
    progress.tables.db = tables.db ∧ tables.drawn ⊆ progress.tables.drawn ∧ tables.Resubscribed progress.tables := by
  cases h with
  | settled hanswer hquiet => exact ⟨hquiet.db, hquiet.drawn, hquiet.rows⟩
  | testSettled hquiet => exact ⟨hquiet.db, hquiet.drawn, hquiet.rows⟩
  | _ => exact ⟨rfl, List.Subset.refl _, .same rfl⟩

end

/-! ### The server and its workers -/

/-- One step of the whole, and the records that it leaves. -/
inductive Turn (env : Env) (state : State) : Event → State → List Record → Prop
  | server (event : ServerEvent) :
      Turn env state (.server event)
        { state with tables := { state.tables with db := serverStep env state.tables.db event } } []
  | quiet {event tables} (hquiet : state.tables.Quiet tables) : Turn env state event ⟨tables, state.jobs⟩ []
  | unsubscribed (auth : AuthUser) (text endpoint : String) :
      Turn env state (.unsubscribe auth text) ⟨state.tables.deleteSubscription auth.userId endpoint, state.jobs⟩ []
  | testing {event tables} (userId : Uuid) (hquiet : state.tables.Quiet tables) :
      Turn env state event ⟨tables, state.jobs ++ [(.testLoading userId, .zero)]⟩ []
  | ticked (now : Instant) :
      Turn env state (.tick now)
        ⟨state.tables, state.jobs ++ [(.loading (dueReminders state.tables.db.entities now), .zero)]⟩
        [.selected state.jobs.length now (dueReminders state.tables.db.entities now)]
  | advanced {number job stats now answer progress} (hjob : state.jobs[number]? = some (job, stats))
      (hstep : job.Step env state.tables number stats progress) :
      Turn env state (.next number now answer)
        ⟨progress.tables, state.jobs.set number (progress.job, progress.stats)⟩ progress.records
  | stopped (number : Nat) :
      Turn env state (.stop number)
        ⟨state.tables, state.jobs.modify number fun job => (.stopped, job.2)⟩ []

theorem worker_turn (env : Env) (site : Site) (state : State) (event : Event) :
    Turn env state event ((worker env site).step state event) ((worker env site).emit state event) := by
  cases event with
  | server event => exact .server event
  | subscribe auth newId request now =>
      show Turn env state _ (state.step env site (.subscribe auth newId request now)) []
      rw [State.step]
      split
      · exact .quiet (.refl _)
      · rename_i hnew
        exact .quiet (Tables.quiet_subscribe hnew request now)
  | unsubscribe auth text =>
      show Turn env state _ ⟨(state.tables.unsubscribe site auth text).2, state.jobs⟩ []
      unfold Tables.unsubscribe
      split
      · exact .quiet (.refl _)
      · exact .unsubscribed auth text _
  | test auth now =>
      show Turn env state _ (state.beginTest site auth now) []
      unfold State.beginTest requirePush Tables.consumeTestQuota
      by_cases hpush : (!site.configured) = true
      · rw [refuseIf, if_pos hpush]
        exact .quiet (.refl _)
      · rw [refuseIf, if_neg hpush]
        have husage : ∀ usage, state.tables.Quiet { state.tables with pushTestUsage := usage } :=
          fun usage => ⟨rfl, rfl, List.Subset.refl _, .same rfl⟩
        cases state.tables.pushTestUsage.lookup (auth.userId, now.dateNaive) with
        | none => exact .testing auth.userId (husage _)
        | some used =>
            by_cases hused : used < Tables.maxPushTestPerDay
            · simp only [if_pos hused]
              exact .testing auth.userId (husage _)
            · simp only [if_neg hused]
              exact .quiet (.refl _)
  | tick now => exact .ticked now
  | next number now answer =>
      show Turn env state _ (state.step env site (.next number now answer))
        (((state.progress env number now answer).map Progress.records).getD [])
      rw [State.step]
      cases hjob : state.jobs[number]? with
      | none =>
          rw [State.progress, hjob]
          exact .quiet (.refl _)
      | some job =>
          rw [State.progress, hjob]
          exact .advanced hjob (advance_step now answer)
  | stop number => exact .stopped number

section

variable {α : Type} {entries : List α} {entry found : α} {number other : Nat}

theorem getElem?_concat_cases (h : (entries ++ [entry])[number]? = some found) :
    entries[number]? = some found ∨ number = entries.length ∧ found = entry := by
  rw [List.getElem?_append] at h
  split at h
  · exact .inl h
  · rw [List.getElem?_singleton] at h
    split at h
    · exact .inr ⟨by omega, (Option.some.inj h).symm⟩
    · cases h

theorem getElem?_set_cases (h : (entries.set number entry)[other]? = some found) :
    other = number ∧ found = entry ∨ other ≠ number ∧ entries[other]? = some found := by
  rw [List.getElem?_set] at h
  split at h
  · rename_i hsame
    split at h
    · exact .inl ⟨hsame.symm, (Option.some.inj h).symm⟩
    · cases h
  · rename_i hother
    exact .inr ⟨fun hsame => hother hsame.symm, h⟩

end

/-- Where a job comes from. -/
inductive Turn.Source (env : Env) (state : State) (number : Nat) (job : Job × PushStats) :
    Event → List Record → Prop
  | kept {event records} (hjob : state.jobs[number]? = some job) (hothers : ∀ record ∈ records, record.job ≠ number) :
      Source env state number job event records
  | test {event records} (userId : Uuid) (h : job = (.testLoading userId, .zero)) :
      Source env state number job event records
  | tick (now : Instant) (hnumber : number = state.jobs.length)
      (h : job = (.loading (dueReminders state.tables.db.entities now), .zero)) :
      Source env state number job (.tick now)
        [.selected state.jobs.length now (dueReminders state.tables.db.entities now)]
  | step {now answer old oldStats progress} (hjob : state.jobs[number]? = some (old, oldStats))
      (hstep : old.Step env state.tables number oldStats progress) (h : job = (progress.job, progress.stats)) :
      Source env state number job (.next number now answer) progress.records
  | stop {event records} (h : job.1 = .stopped) : Source env state number job event records

theorem Turn.source {env : Env} {state next : State} {event : Event} {records : List Record} {number : Nat}
    {job : Job × PushStats} (h : Turn env state event next records) (hjob : next.jobs[number]? = some job) :
    Source env state number job event records := by
  have hold : ∀ {found : Job × PushStats}, state.jobs[number]? = some found → state.jobs.length ≠ number :=
    fun hfound => (List.getElem?_eq_some_iff.mp hfound).1.ne'
  cases h with
  | server event => exact .kept hjob nofun
  | quiet hquiet => exact .kept hjob nofun
  | unsubscribed auth text endpoint => exact .kept hjob nofun
  | testing userId hquiet =>
      obtain hkept | ⟨-, hsame⟩ := getElem?_concat_cases hjob
      · exact .kept hkept nofun
      · exact .test userId hsame
  | ticked now =>
      obtain hkept | ⟨hnumber, hsame⟩ := getElem?_concat_cases hjob
      · exact .kept hkept (List.forall_mem_singleton.mpr (hold hkept))
      · exact .tick now hnumber hsame
  | advanced hfound hstep =>
      obtain ⟨rfl, hsame⟩ | ⟨hother, hkept⟩ := getElem?_set_cases hjob
      · exact .step hfound hstep hsame
      · exact .kept hkept fun record hrecord => by rw [hstep.own record hrecord]; exact hother.symm
  | stopped other =>
      dsimp only at hjob
      rw [List.getElem?_modify] at hjob
      split at hjob
      · obtain ⟨old, hfound, hsame⟩ := Option.map_eq_some_iff.mp hjob
        exact .stop (congrArg Prod.fst hsame).symm
      · exact .kept (by simpa using hjob) nofun

end ShishiTodo.Push
