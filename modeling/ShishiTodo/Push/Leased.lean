import ShishiTodo.Push.Steps
import ShishiTodo.Lib.Leases

/-!
# At most one reminder in flight

A row of `push_deliveries` is a lease on a task and a subscription. The job that inserted it holds the lease until the push service answers: a transient answer gives it back, any other answer seals it. As the insert finds no row only where the lease is free, the records of every run are in order, however the workers and the requests take turns.
-/

namespace ShishiTodo.Push

open Lib

/-- What a reminder is for: a task, and a subscription. -/
abbrev Pair := Uuid × Uuid

def pairOf (task : ReminderTask) (target : PushTarget) : Pair := (task.id, target.subscriptionId)

/-- What a record does to the lease of its pair. -/
def Record.mark : Record → Option (LeaseMark Pair Nat)
  | .began job task target _ => some (.taken (pairOf task target) job)
  | .released job task target => some (.released (pairOf task target) job)
  | .answered job task target answer =>
      if answer = .error .transient then none else some (.sealed (pairOf task target) job)
  | _ => none

abbrev leaseOf (log : List Record) (pair : Pair) : Lease Nat := LeaseMark.lease Record.mark log pair

section

variable {past : List Record} {record : Record} {pair : Pair} {number : Nat}

theorem leaseOf_taken (h : record.mark = some (.taken pair number)) (other : Pair) :
    leaseOf (past ++ [record]) other = if pair = other then .held number else leaseOf past other :=
  LeaseMark.lease_taken h other

theorem leaseOf_released (h : record.mark = some (.released pair number)) (other : Pair) :
    leaseOf (past ++ [record]) other = if pair = other then .free else leaseOf past other :=
  LeaseMark.lease_released h other

theorem leaseOf_sealed (h : record.mark = some (.sealed pair number)) (other : Pair) :
    leaseOf (past ++ [record]) other = if pair = other then .sealed number else leaseOf past other :=
  LeaseMark.lease_sealed h other

theorem leaseOf_unmarked {records : List Record} (h : ∀ record ∈ records, record.mark = none) (other : Pair) :
    leaseOf (past ++ records) other = leaseOf past other :=
  LeaseMark.lease_append_of_unmarked h

end

/-- The pair whose lease the job may still give back. -/
def Job.pair : Job → Option Pair
  | .sending task target _ _ => some (pairOf task target)
  | .settling task target (.error .transient) _ _ => some (pairOf task target)
  | _ => none

/-- What is true at every moment of the leases that the records tell of. -/
structure Leased (state : State) (past : List Record) : Prop where
  orderly : LeaseMark.Orderly Record.mark past
  /-- Where no row stands, the lease is free, as long as the subscription is there. -/
  free : ∀ taskId subscriptionId, state.tables.pushDeliveries.lookup (taskId, subscriptionId) = none →
    (state.tables.pushSubscriptions.lookup subscriptionId).isSome → leaseOf past (taskId, subscriptionId) = .free
  held : ∀ (number : Nat) (job : Job) (stats : PushStats), state.jobs[number]? = some (job, stats) →
    ∀ pair, job.pair = some pair → leaseOf past pair = .held number
  issued : ∀ pair, leaseOf past pair ≠ .free → state.tables.Issued pair.2
  subscribed : ∀ id, (state.tables.pushSubscriptions.lookup id).isSome → state.tables.Issued id

theorem leased_empty : Leased .empty [] where
  orderly := LeaseMark.orderly_nil Record.mark
  free _ _ _ _ := rfl
  held number job stats h := by cases h
  issued _ h := absurd rfl h
  subscribed id h := by cases h

section

variable {env : Env} {state next : State} {past records : List Record} {number : Nat} {job : Job}
  {stats nextStats : PushStats} {task : ReminderTask} {target : PushTarget} {targets : List PushTarget}
  {tasks : List ReminderTask}

/-! ### Steps that touch no lease -/

/-- The jobs hold no more than before. -/
def NoneTaken (state next : State) : Prop :=
  ∀ (number : Nat) (job : Job) (stats : PushStats) (pair : Pair), next.jobs[number]? = some (job, stats) →
    job.pair = some pair → ∃ old oldStats, state.jobs[number]? = some (old, oldStats) ∧ old.pair = some pair

theorem noneTaken_of (h : ∀ (number : Nat) (job : Job) (stats : PushStats), next.jobs[number]? = some (job, stats) →
    state.jobs[number]? = some (job, stats) ∨ job.pair = none) : NoneTaken state next := by
  intro number job stats pair hjob hpair
  obtain hold | hnone := h number job stats hjob
  · exact ⟨job, stats, hold, hpair⟩
  · rw [hnone] at hpair
    cases hpair

/-- A row goes only with its subscription, and a new subscription has a new identifier. -/
theorem Leased.unmarked (h : Leased state past) (hjobs : NoneTaken state next)
    (hunmarked : ∀ record ∈ records, record.mark = none)
    (hrows : ∀ taskId id, next.tables.pushDeliveries.lookup (taskId, id) = none →
      (next.tables.pushSubscriptions.lookup id).isSome →
      state.tables.pushDeliveries.lookup (taskId, id) = none ∧ (state.tables.pushSubscriptions.lookup id).isSome ∨
        ¬ state.tables.Issued id)
    (hdrawn : state.tables.drawn ⊆ next.tables.drawn)
    (hsubscribed : ∀ id, (next.tables.pushSubscriptions.lookup id).isSome →
      (state.tables.pushSubscriptions.lookup id).isSome ∨ next.tables.Issued id) :
    Leased next (past ++ records) where
  orderly := h.orderly.append_unmarked hunmarked
  free taskId id hrow hsubscription := by
    rw [leaseOf_unmarked hunmarked]
    obtain ⟨hold, hlive⟩ | hnew := hrows taskId id hrow hsubscription
    · exact h.free taskId id hold hlive
    · by_contra hne
      exact hnew (h.issued _ hne)
  held number job stats hjob pair hpair := by
    rw [leaseOf_unmarked hunmarked]
    obtain ⟨old, oldStats, hold, hsame⟩ := hjobs number job stats pair hjob hpair
    exact h.held number old oldStats hold pair hsame
  issued pair hne := by
    rw [leaseOf_unmarked hunmarked] at hne
    exact hdrawn (h.issued pair hne)
  subscribed id hid := by
    obtain hold | hissued := hsubscribed id hid
    · exact hdrawn (h.subscribed id hold)
    · exact hissued

theorem Leased.quiet (h : Leased state past) (hquiet : state.tables.Quiet next.tables)
    (hjobs : NoneTaken state next) (hunmarked : ∀ record ∈ records, record.mark = none) :
    Leased next (past ++ records) := by
  refine h.unmarked hjobs hunmarked (fun taskId id hrow hid => ?_) hquiet.drawn fun id hid => ?_
  · rw [hquiet.deliveries] at hrow
    obtain hold | ⟨hnew, -⟩ := hquiet.subscribed hid
    · exact .inl ⟨hrow, hold⟩
    · exact .inr hnew
  · obtain hold | ⟨-, hissued⟩ := hquiet.subscribed hid
    · exact .inl hold
    · exact .inr hissued

theorem Leased.deleted (h : Leased state past) (userId : Uuid) (endpoint : String) :
    Leased ⟨state.tables.deleteSubscription userId endpoint, state.jobs⟩ (past ++ []) := by
  refine h.unmarked (noneTaken_of fun _ _ _ hjob => .inl hjob) nofun (fun taskId id hrow hid => ?_) (List.Subset.refl _) fun id hid => ?_
  · simp only [Tables.deleteSubscription, Table.lookup_select] at hrow hid
    cases hold : state.tables.pushSubscriptions.lookup id with
    | none => simp [hold] at hid
    | some row =>
        -- The subscription stays, so its rows do.
        rw [hold] at hrow hid
        have hstays : (row.userId == userId && row.endpoint == endpoint) = false := by
          rw [Bool.and_eq_false_iff]
          simpa [Option.filter] using hid
        refine .inl ⟨?_, rfl⟩
        cases hfound : state.tables.pushDeliveries.lookup (taskId, id) with
        | none => rfl
        | some deliveredAt => simp [hfound, Option.filter, hstays] at hrow
  · simp only [Tables.deleteSubscription, Table.lookup_select] at hid
    cases hold : state.tables.pushSubscriptions.lookup id with
    | none => simp [hold] at hid
    | some row => exact .inl rfl

/-! ### The steps of a job -/

/-- A step after which the job holds no more than before. -/
theorem Leased.idle {tables : Tables} {after : Job} (h : Leased state past)
    (hjob : state.jobs[number]? = some (job, stats)) (hquiet : state.tables.Quiet tables)
    (hpair : ∀ pair, after.pair = some pair → job.pair = some pair)
    (hunmarked : ∀ record ∈ records, record.mark = none) :
    Leased ⟨tables, state.jobs.set number (after, nextStats)⟩ (past ++ records) := by
  refine h.quiet hquiet (fun other found foundStats pair hfound hheld => ?_) hunmarked
  obtain ⟨rfl, hsame⟩ | ⟨-, hold⟩ := getElem?_set_cases hfound
  · cases hsame
    exact ⟨job, stats, hjob, hpair pair hheld⟩
  · exact ⟨found, foundStats, hold, hheld⟩

theorem Leased.began {now : Instant} {payload : PushPayload} (h : Leased state past)
    (hrow : state.tables.pushDeliveries.lookup (task.id, target.subscriptionId) = none)
    (hsubscribed : (state.tables.pushSubscriptions.lookup target.subscriptionId).isSome) :
    Leased ⟨{ state.tables with
          pushDeliveries := state.tables.pushDeliveries.insert (task.id, target.subscriptionId) now },
        state.jobs.set number (.sending task target targets tasks, nextStats)⟩
      (past ++ [.began number task target payload]) := by
  have hmark : Record.mark (.began number task target payload) =
      some (.taken (pairOf task target) number) := rfl
  have hfree : leaseOf past (pairOf task target) = .free := h.free _ _ hrow hsubscribed
  refine ⟨h.orderly.concat ((LeaseMark.inOrder_taken hmark).mpr hfree), ?_, ?_, ?_, h.subscribed⟩
  · intro taskId subscriptionId hnone hsubscription
    rw [leaseOf_taken hmark]
    dsimp only at hnone
    rw [Table.lookup_insert_eq_ite] at hnone
    split at hnone
    · cases hnone
    · rename_i hother
      rw [if_neg fun hsame => hother hsame.symm]
      exact h.free taskId subscriptionId hnone hsubscription
  · intro other found foundStats hfound pair hpair
    rw [leaseOf_taken hmark]
    obtain ⟨rfl, hsame⟩ | ⟨-, hold⟩ := getElem?_set_cases hfound
    · cases hsame
      rw [if_pos (Option.some.inj hpair)]
    · have hheld := h.held other found foundStats hold pair hpair
      rw [if_neg, hheld]
      intro hsame
      rw [← hsame, hfree] at hheld
      cases hheld
  · intro pair hne
    rw [leaseOf_taken hmark] at hne
    split at hne
    · rename_i hsame
      rw [← hsame]
      exact h.subscribed _ hsubscribed
    · exact h.issued pair hne

/-- The lease of another pair, or of another job, when the job of the number lets go of its own. -/
theorem Leased.held_others (h : Leased state past) {found after : Job} {foundStats : PushStats} {other : Nat}
    {pair mine : Pair} (hmine : leaseOf past mine = .held number) (hafter : after.pair = none)
    (hfound : (state.jobs.set number (after, nextStats))[other]? = some (found, foundStats))
    (hpair : found.pair = some pair) : mine ≠ pair ∧ leaseOf past pair = .held other := by
  obtain ⟨-, hsame⟩ | ⟨hother, hold⟩ := getElem?_set_cases hfound
  · cases hsame
    rw [hafter] at hpair
    cases hpair
  · have hheld := h.held other found foundStats hold pair hpair
    refine ⟨fun hsame => ?_, hheld⟩
    rw [hsame, hheld] at hmine
    exact hother (Lease.held.inj hmine)

theorem Leased.answered {answer : Except PushSendError Unit} (h : Leased state past)
    (hjob : state.jobs[number]? = some (.sending task target targets tasks, stats)) :
    Leased ⟨state.tables, state.jobs.set number (.settling task target answer targets tasks, nextStats)⟩
      (past ++ [.answered number task target answer]) := by
  by_cases htransient : answer = .error .transient
  · subst htransient
    exact h.idle hjob (.refl _) (fun pair hpair => hpair) (by simp [Record.mark])
  · have hmark : Record.mark (.answered number task target answer) =
        some (.sealed (pairOf task target) number) := if_neg htransient
    have hheld : leaseOf past (pairOf task target) = .held number := h.held _ _ _ hjob _ rfl
    have hlets : (Job.settling task target answer targets tasks).pair = none := by
      match answer with
      | .ok _ => rfl
      | .error .gone => rfl
      | .error .transient => exact absurd rfl htransient
    refine ⟨h.orderly.concat ((LeaseMark.inOrder_sealed hmark).mpr hheld), ?_, ?_, ?_, h.subscribed⟩
    · intro taskId subscriptionId hnone hsubscription
      have hfree := h.free taskId subscriptionId hnone hsubscription
      rw [leaseOf_sealed hmark, if_neg, hfree]
      intro hsame
      rw [hsame, hfree] at hheld
      cases hheld
    · intro other found foundStats hfound pair hpair
      obtain ⟨hother, hothers⟩ := h.held_others hheld hlets hfound hpair
      rw [leaseOf_sealed hmark, if_neg hother, hothers]
    · intro pair hne
      rw [leaseOf_sealed hmark] at hne
      split at hne
      · rename_i hsame
        refine h.issued pair ?_
        rw [← hsame, hheld]
        nofun
      · exact h.issued pair hne

theorem Leased.released (h : Leased state past)
    (hjob : state.jobs[number]? = some (.settling task target (.error .transient) targets tasks, stats)) :
    Leased ⟨state.tables.release task.id target.subscriptionId,
        state.jobs.set number (.claiming task targets tasks, nextStats)⟩
      (past ++ [.released number task target]) := by
  have hmark : Record.mark (.released number task target) = some (.released (pairOf task target) number) := rfl
  have hheld : leaseOf past (pairOf task target) = .held number := h.held _ _ _ hjob _ rfl
  refine ⟨h.orderly.concat ((LeaseMark.inOrder_released hmark).mpr hheld), ?_, ?_, ?_, h.subscribed⟩
  · intro taskId subscriptionId hnone hsubscription
    rw [leaseOf_released hmark]
    split
    · rfl
    · rename_i hother
      change (state.tables.pushDeliveries.erase _).lookup _ = none at hnone
      rw [Table.lookup_erase_eq_ite, if_neg fun hsame => hother hsame.symm] at hnone
      exact h.free taskId subscriptionId hnone hsubscription
  · intro other found foundStats hfound pair hpair
    obtain ⟨hother, hothers⟩ := h.held_others hheld rfl hfound hpair
    rw [leaseOf_released hmark, if_neg hother, hothers]
  · intro pair hne
    rw [leaseOf_released hmark] at hne
    split at hne
    · exact absurd rfl hne
    · exact h.issued pair hne

theorem Leased.advanced {progress : Progress} (h : Leased state past)
    (hjob : state.jobs[number]? = some (job, stats)) (hstep : job.Step env state.tables number stats progress) :
    Leased ⟨progress.tables, state.jobs.set number (progress.job, progress.stats)⟩ (past ++ progress.records) := by
  cases hstep with
  | began hrow hsubscribed => exact h.began hrow hsubscribed
  | answered => exact h.answered hjob
  | released => exact h.released hjob
  | settled hanswer hquiet => exact h.idle hjob hquiet nofun nofun
  | testSettled hquiet => exact h.idle hjob hquiet nofun nofun
  | _ => exact h.idle hjob (.refl _) nofun (by simp [Record.mark])

/-! ### Every run -/

theorem Leased.turn {event : Event} (h : Leased state past) (hturn : Turn env state event next records) :
    Leased next (past ++ records) := by
  -- A job that is added or stopped holds nothing.
  have hadded : ∀ added : Job × PushStats, added.1.pair = none →
      NoneTaken state ⟨next.tables, state.jobs ++ [added]⟩ := by
    intro added hnone
    refine noneTaken_of fun number job stats hjob => ?_
    obtain hold | ⟨-, hsame⟩ := getElem?_concat_cases hjob
    · exact .inl hold
    · exact .inr (by rw [← hsame] at hnone; exact hnone)
  cases hturn with
  | server event =>
      refine h.unmarked (noneTaken_of fun _ _ _ hjob => .inl hjob) nofun ?_ (List.Subset.refl _) fun id hid => .inl hid
      exact fun taskId id hrow hid => .inl ⟨hrow, hid⟩
  | quiet hquiet => exact h.quiet hquiet (noneTaken_of fun _ _ _ hjob => .inl hjob) nofun
  | unsubscribed auth text endpoint => exact h.deleted auth.userId endpoint
  | testing userId hquiet => exact h.quiet hquiet (hadded _ rfl) nofun
  | ticked now => exact h.quiet (.refl _) (hadded _ rfl) (by simp [Record.mark])
  | advanced hjob hstep => exact h.advanced hjob hstep
  | stopped number =>
      refine h.quiet (.refl _) (noneTaken_of fun other job stats hjob => ?_) nofun
      dsimp only at hjob
      rw [List.getElem?_modify] at hjob
      split at hjob
      · obtain ⟨old, hold, hsame⟩ := Option.map_eq_some_iff.mp hjob
        exact .inr (by rw [← (Prod.mk.inj hsame).1]; rfl)
      · exact .inl (by simpa using hjob)

end

theorem leased_run (env : Env) (site : Site) (events : List Event) :
    Leased ((worker env site).run .empty events) ((worker env site).trace .empty events) :=
  (worker env site).invariant Leased
    (fun state _ event h => h.turn (worker_turn env site state event)) leased_empty events

/-! ### What a run sends -/

/-- A release comes from a job whose last answer was transient. -/
structure Answered (state : State) (past : List Record) : Prop where
  settling : ∀ (number : Nat) task target answer targets tasks stats,
    state.jobs[number]? = some (.settling task target answer targets tasks, stats) →
    .answered number task target answer ∈ past
  released : ∀ earlier later number task target, past = earlier ++ .released number task target :: later →
    .answered number task target (.error .transient) ∈ earlier

theorem Answered.turn {env : Env} {state next : State} {event : Event} {past records : List Record}
    (h : Answered state past) (hturn : Turn env state event next records) : Answered next (past ++ records) where
  settling number task target answer targets tasks stats hjob := by
    cases hturn.source hjob with
    | kept hold hothers => exact List.mem_append_left _ (h.settling _ _ _ _ _ _ _ hold)
    | test userId hsame => cases hsame
    | tick now hnumber hsame => cases hsame
    | step hold hstep hsame =>
        -- Only the answer leads to a job that settles it.
        cases hstep <;> cases hsame
        exact List.mem_append_right _ List.mem_cons_self
    | stop hsame => cases hsame
  released earlier later number task target hlog := by
    obtain ⟨between, -, hpast⟩ | ⟨before, rfl, hrecords⟩ := append_split hlog
    · exact h.released earlier between number task target hpast
    · have hmem : .released number task target ∈ records := by simp [hrecords]
      cases hturn with
      | advanced hjob hstep =>
          cases hstep with
          | released =>
              obtain ⟨rfl, rfl, rfl⟩ := Record.released.inj (List.mem_singleton.mp hmem)
              exact List.mem_append_left _ (h.settling _ _ _ _ _ _ _ hjob)
          | _ => simp at hmem
      | ticked now => cases List.mem_singleton.mp hmem
      | _ => cases hmem

/-- What holds of the reminders that a run sends for one pair. -/
structure SentOnce (log : List Record) : Prop where
  /-- A second reminder goes out only after the claim of the first was given back. -/
  released_between : ∀ earlier between later first second firstTask secondTask firstTarget secondTarget
      firstPayload secondPayload,
    log = earlier ++ .began first firstTask firstTarget firstPayload :: between ++
      .began second secondTask secondTarget secondPayload :: later →
    pairOf firstTask firstTarget = pairOf secondTask secondTarget →
    ∃ task target, .released first task target ∈ between ∧
      pairOf task target = pairOf firstTask firstTarget
  /-- A claim is given back only after a transient answer to its own reminder. -/
  transient : ∀ earlier later number task target, log = earlier ++ .released number task target :: later →
    .answered number task target (.error .transient) ∈ earlier
  /-- After any other answer no reminder goes out again. -/
  final : ∀ earlier later number task target answer,
    log = earlier ++ .answered number task target answer :: later → answer ≠ .error .transient →
    ∀ other otherTask otherTarget payload, .began other otherTask otherTarget payload ∈ later →
      pairOf otherTask otherTarget ≠ pairOf task target

/-- However the workers take turns with each other and with the requests, no reminder goes out twice to one subscription unless the push service failed to take the first. -/
theorem reminders_sent_once (env : Env) (site : Site) (events : List Event) :
    SentOnce ((worker env site).trace .empty events) := by
  have horderly := (leased_run env site events).orderly
  have hempty : Answered .empty [] := ⟨nofun, fun earlier later number task target h => by simp at h⟩
  have hanswered := (worker env site).invariant Answered
    (fun state _ event h => h.turn (worker_turn env site state event)) hempty events
  refine ⟨?_, hanswered.released, ?_⟩
  · intro earlier between later first second firstTask secondTask firstTarget secondTarget firstPayload
      secondPayload hlog hpair
    rw [hlog] at horderly
    have hsecond : Record.mark (.began second secondTask secondTarget secondPayload) =
        some (.taken (pairOf firstTask firstTarget) second) :=
      congrArg (fun pair => some (LeaseMark.taken pair second)) hpair.symm
    obtain ⟨record, hrecord, hmark⟩ := horderly.released_between rfl hsecond
    cases record with
    | released number task target =>
        obtain ⟨hsame, rfl⟩ := LeaseMark.released.inj (Option.some.inj hmark)
        exact ⟨task, target, hrecord, hsame⟩
    | answered number task target answer =>
        change (if _ then _ else _) = _ at hmark
        split at hmark <;> cases hmark
    | _ => cases hmark
  · intro earlier later number task target answer hlog hfinal other otherTask otherTarget payload hbegan hpair
    obtain ⟨between, last, rfl⟩ := List.append_of_mem hbegan
    rw [hlog, ← List.cons_append, ← List.append_assoc] at horderly
    have hsealed : Record.mark (.answered number task target answer) =
        some (.sealed (pairOf task target) number) := if_neg hfinal
    exact horderly.not_taken_after_sealed hsealed
      (congrArg (fun pair => some (LeaseMark.taken pair other)) hpair)

end ShishiTodo.Push
