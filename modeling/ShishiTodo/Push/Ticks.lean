import ShishiTodo.Push.Steps

/-!
# What a tick gets done

A tick that ends by itself has loaded the targets of every task it selected, has tried every one of them once, in order, and has had an answer to every reminder it sent; its numbers are those of its records. Other ticks may find the same tasks at the same time: each then tries every target, and the claims decide whose reminder goes out.
-/

namespace ShishiTodo.Push

open Lib

/-- The records of one job. -/
def recordsOf (number : Nat) (log : List Record) : List Record := log.filter fun record => record.job == number

section

variable (log : List Record)

def selectedIn : List ReminderTask := log.flatMap fun
  | .selected _ _ tasks => tasks
  | _ => []

def loadedIn : List (ReminderTask × List PushTarget) := log.filterMap fun
  | .loaded _ task targets => some (task, targets)
  | _ => none

/-- The targets that were tried, whether the claim was made or found. -/
def triedIn : List (ReminderTask × PushTarget) := log.filterMap fun
  | .began _ task target _ => some (task, target)
  | .skipped _ task target => some (task, target)
  | _ => none

def begunIn : List (ReminderTask × PushTarget) := log.filterMap fun
  | .began _ task target _ => some (task, target)
  | _ => none

def skippedIn : List (ReminderTask × PushTarget) := log.filterMap fun
  | .skipped _ task target => some (task, target)
  | _ => none

def answeredIn : List (ReminderTask × PushTarget × Except PushSendError Unit) := log.filterMap fun
  | .answered _ task target answer => some (task, target, answer)
  | _ => none

/-- The targets that were loaded, each with its task. -/
def aimedIn : List (ReminderTask × PushTarget) :=
  (loadedIn log).flatMap fun loaded => loaded.2.map fun target => (loaded.1, target)

/-- How far a tick has got: what it has still to load and to try, and the reminder that is out. -/
structure TickLog (tasks : List ReminderTask) (aims out : List (ReminderTask × PushTarget))
    (stats : PushStats) : Prop where
  selected : (loadedIn log).map Prod.fst ++ tasks = selectedIn log
  tried : triedIn log ++ aims = aimedIn log
  begun : begunIn log = (answeredIn log).map (fun answered => (answered.1, answered.2.1)) ++ out
  sent : stats.sent = (answeredIn log).countP fun answered => answered.2.2 == .ok ()
  failed : stats.failed = (answeredIn log).countP fun answered => answered.2.2 != .ok ()
  skipped : stats.skipped = (skippedIn log).length + (loadedIn log).countP fun loaded => loaded.2.isEmpty

end

/-- The log of the job, where the job is a tick. -/
def Job.Logged (log : List Record) (stats : PushStats) : Job → Prop
  | .loading tasks => TickLog log tasks [] [] stats
  | .claiming task targets tasks => TickLog log tasks (targets.map fun target => (task, target)) [] stats
  | .sending task target targets tasks =>
      TickLog log tasks (targets.map fun target => (task, target)) [(task, target)] stats
  | .settling task _ _ targets tasks => TickLog log tasks (targets.map fun target => (task, target)) [] stats
  | _ => True

section

variable {log : List Record} {record : Record} {tasks left : List ReminderTask}
  {aims aimsLeft out outLeft : List (ReminderTask × PushTarget)} {stats next : PushStats}

/-- One more record, and what it takes off what is left. -/
theorem TickLog.concat (h : TickLog log tasks aims out stats) (hselected : selectedIn [record] = [])
    (htasks : tasks = (loadedIn [record]).map Prod.fst ++ left)
    (haims : aims ++ aimedIn [record] = triedIn [record] ++ aimsLeft)
    (hout : out ++ begunIn [record] =
      (answeredIn [record]).map (fun answered => (answered.1, answered.2.1)) ++ outLeft)
    (hsent : next.sent = stats.sent + (answeredIn [record]).countP fun answered => answered.2.2 == .ok ())
    (hfailed : next.failed = stats.failed + (answeredIn [record]).countP fun answered => answered.2.2 != .ok ())
    (hskipped : next.skipped = stats.skipped + ((skippedIn [record]).length +
      (loadedIn [record]).countP fun loaded => loaded.2.isEmpty)) :
    TickLog (log ++ [record]) left aimsLeft outLeft next where
  selected := by
    rw [selectedIn, List.flatMap_append, ← selectedIn, ← selectedIn, hselected, List.append_nil, ← h.selected,
      loadedIn, List.filterMap_append, ← loadedIn, ← loadedIn, List.map_append, List.append_assoc, htasks]
  tried := by
    rw [triedIn, List.filterMap_append, ← triedIn, ← triedIn, List.append_assoc, ← haims, ← List.append_assoc,
      h.tried, aimedIn, aimedIn, aimedIn, loadedIn, loadedIn, loadedIn, List.filterMap_append, List.flatMap_append]
  begun := by
    rw [begunIn, List.filterMap_append, ← begunIn, ← begunIn, h.begun, List.append_assoc, hout, answeredIn,
      answeredIn, answeredIn, List.filterMap_append, List.map_append, List.append_assoc]
  sent := by
    rw [hsent, h.sent, answeredIn, answeredIn, answeredIn, List.filterMap_append, List.countP_append]
  failed := by
    rw [hfailed, h.failed, answeredIn, answeredIn, answeredIn, List.filterMap_append, List.countP_append]
  skipped := by
    have hlog : skippedIn (log ++ [record]) = skippedIn log ++ skippedIn [record] := List.filterMap_append
    have hloaded : loadedIn (log ++ [record]) = loadedIn log ++ loadedIn [record] := List.filterMap_append
    rw [hskipped, h.skipped, hlog, hloaded, List.length_append, List.countP_append]
    omega

end

/-- What a job has logged before its step, and after it. -/
theorem Job.Step.logged {env : Env} {tables : Tables} {number : Nat} {stats : PushStats} {job : Job}
    {progress : Progress} {log : List Record} (h : job.Step env tables number stats progress)
    (hlogged : job.Logged log stats) : progress.job.Logged (log ++ progress.records) progress.stats := by
  cases h with
  | untargeted hload => exact TickLog.concat hlogged rfl rfl rfl rfl rfl rfl rfl
  | loaded hload =>
      refine TickLog.concat hlogged rfl rfl ?_ rfl rfl rfl rfl
      simp [aimedIn, loadedIn, triedIn]
  | tried =>
      rw [List.append_nil]
      exact hlogged
  | skipped =>
      refine TickLog.concat hlogged rfl rfl ?_ rfl rfl rfl rfl
      simp [aimedIn, loadedIn, triedIn]
  | began hrow hsubscribed =>
      refine TickLog.concat hlogged rfl rfl ?_ rfl rfl rfl rfl
      simp [aimedIn, loadedIn, triedIn]
  | answered =>
      rename_i task target targets tasks answer
      have haims : (targets.map fun target => (task, target)) ++ aimedIn [.answered number task target answer] =
          triedIn [.answered number task target answer] ++ targets.map fun target => (task, target) := by
        simp [aimedIn, loadedIn, triedIn]
      match answer with
      | .ok () => exact TickLog.concat hlogged rfl rfl haims rfl rfl rfl rfl
      | .error .gone => exact TickLog.concat hlogged rfl rfl haims rfl rfl rfl rfl
      | .error .transient => exact TickLog.concat hlogged rfl rfl haims rfl rfl rfl rfl
  | settled hanswer hquiet =>
      rw [List.append_nil]
      exact hlogged
  | released =>
      refine TickLog.concat hlogged rfl rfl ?_ rfl rfl rfl rfl
      simp [aimedIn, loadedIn, triedIn]
  | _ => trivial

/-! ### Every run -/

/-- What the records of a tick add up to when it ends by itself. -/
structure Report (log : List Record) (stats : PushStats) : Prop where
  /-- The targets of every selected task were loaded, in order. -/
  loaded : (loadedIn log).map Prod.fst = selectedIn log
  /-- Every target was tried once, in order. -/
  tried : triedIn log = aimedIn log
  /-- Every reminder that went out was answered before the next. -/
  answered : begunIn log = (answeredIn log).map fun answered => (answered.1, answered.2.1)
  sent : stats.sent = (answeredIn log).countP fun answered => answered.2.2 == .ok ()
  failed : stats.failed = (answeredIn log).countP fun answered => answered.2.2 != .ok ()
  /-- Skipped are the targets with a claim of another tick, and the tasks without a target. -/
  skipped : stats.skipped = (skippedIn log).length + (loadedIn log).countP fun loaded => loaded.2.isEmpty

theorem TickLog.report {log : List Record} {stats : PushStats} (h : TickLog log [] [] [] stats) :
    Report log stats where
  loaded := by simpa using h.selected
  tried := by simpa using h.tried
  answered := by simpa using h.begun
  sent := h.sent
  failed := h.failed
  skipped := h.skipped

/-- Every tick that has ended by itself has a complete report. -/
def Reported (log : List Record) : Prop :=
  ∀ earlier later number stats, log = earlier ++ .finished number stats :: later →
    Report (recordsOf number earlier) stats

/-- What is true at every moment of the jobs' own records. -/
structure Ticking (state : State) (past : List Record) : Prop where
  numbered : ∀ record ∈ past, record.job < state.jobs.length
  logged : ∀ (number : Nat) (job : Job) (stats : PushStats), state.jobs[number]? = some (job, stats) →
    job.Logged (recordsOf number past) stats
  reports : Reported past

theorem recordsOf_append (number : Nat) (first second : List Record) :
    recordsOf number (first ++ second) = recordsOf number first ++ recordsOf number second :=
  List.filter_append ..

theorem recordsOf_eq_nil {number : Nat} {log : List Record} (h : ∀ record ∈ log, record.job ≠ number) :
    recordsOf number log = [] := by
  rw [recordsOf, List.filter_eq_nil_iff]
  intro record hrecord
  simpa using h record hrecord

theorem recordsOf_eq_self {number : Nat} {log : List Record} (h : ∀ record ∈ log, record.job = number) :
    recordsOf number log = log := by
  rw [recordsOf, List.filter_eq_self]
  intro record hrecord
  simpa using h record hrecord

theorem Ticking.turn {env : Env} {state next : State} {event : Event} {past records : List Record}
    (h : Ticking state past) (hturn : Turn env state event next records) : Ticking next (past ++ records) where
  numbered record hrecord := by
    have hlength : state.jobs.length ≤ next.jobs.length := by
      cases hturn <;> simp
    obtain hold | hnew := List.mem_append.mp hrecord
    · exact (h.numbered record hold).trans_le hlength
    · cases hturn with
      | ticked now =>
          rw [List.mem_singleton.mp hnew, List.length_append]
          exact Nat.lt_succ_self _
      | advanced hjob hstep =>
          rw [hstep.own record hnew]
          exact (List.getElem?_eq_some_iff.mp hjob).1.trans_le hlength
      | _ => cases hnew
  logged number job stats hjob := by
    rw [recordsOf_append]
    cases hturn.source hjob with
    | kept hold hothers =>
        rw [recordsOf_eq_nil hothers, List.append_nil]
        exact h.logged number job stats hold
    | test userId hsame =>
        cases hsame
        trivial
    | tick now hnumber hsame =>
        cases hsame
        have hfresh : recordsOf number past = [] :=
          recordsOf_eq_nil fun record hrecord => hnumber ▸ (h.numbered record hrecord).ne
        have hselected : ∀ tasks, ∀ record ∈ [Record.selected state.jobs.length now tasks], record.job = number :=
          fun tasks => List.forall_mem_singleton.mpr hnumber.symm
        rw [hfresh, recordsOf_eq_self (hselected _)]
        exact ⟨by simp [loadedIn, selectedIn], rfl, rfl, rfl, rfl, rfl⟩
    | step hold hstep hsame =>
        cases hsame
        rw [recordsOf_eq_self hstep.own]
        exact hstep.logged (h.logged _ _ _ hold)
    | stop hsame =>
        obtain rfl : job = .stopped := hsame
        trivial
  reports earlier later number stats hlog := by
    obtain ⟨between, -, hpast⟩ | ⟨before, rfl, hrecords⟩ := append_split hlog
    · exact h.reports earlier between number stats hpast
    · have hmem : .finished number stats ∈ records := by simp [hrecords]
      cases hturn with
      | advanced hjob hstep =>
          cases hstep with
          | ended =>
              obtain ⟨rfl, hlast⟩ | ⟨-, hlast⟩ := List.append_eq_singleton_iff.mp hrecords.symm
              · obtain ⟨rfl, rfl⟩ := Record.finished.inj (List.cons.inj hlast).1
                rw [List.append_nil]
                exact TickLog.report (h.logged _ _ _ hjob)
              · cases hlast
          | _ => simp at hmem
      | ticked now => cases List.mem_singleton.mp hmem
      | _ => cases hmem

/-- One reminder, sent. -/
example : .finished 0 ⟨1, 0, 0⟩ ∈ (worker Env.utc plainSite).trace .empty
    (wateringDue ++ List.replicate 5 (.next 0 ⟨600000000003⟩ (.ok ()))) := by
  decide

end ShishiTodo.Push
