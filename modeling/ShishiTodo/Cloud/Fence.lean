import ShishiTodo.Cloud.Controller

/-!
# The session fence

What a run of the controller may commit, what its clears remove, and which token is stored once the queue of fence writes has run. The queue skips every write of an older generation; so what an invalidation leaves is decided by what is stored when it is called.
-/

namespace ShishiTodo

namespace Cloud

open Lib

variable {δ : Type} {world : World δ}

namespace World

/-- The token that is stored once the write under way has run. -/
def written (world : World δ) : Option Uuid :=
  match world.running with
  | none => world.database.session
  | some fence => fence.execute world.database.session

/-- What a write of the queue leaves, if it passes its check in this generation. -/
def runs (generation : Nat) (stored : Option Uuid) (fence : Fence) : Option Uuid :=
  if fence.generation = generation then fence.execute stored else stored

/-- The token that is stored once the queue has run to its end. -/
def drained (world : World δ) : Option Uuid :=
  world.queue.foldl (runs world.sessionGeneration) world.written

/-- The queue leaves the token of the newest session, or none after an invalidation. Before the first of them there is nothing to leave. -/
def Settled (world : World δ) : Prop :=
  world.sessionGeneration = 0 ∨ world.drained = world.sessionToken

/-- No write in the queue is of a later generation. -/
def Ordered (world : World δ) : Prop :=
  ∀ fence ∈ world.queue, fence.generation ≤ world.sessionGeneration

end World

open World

theorem foldl_runs_of_lt {generation : Nat} {queue : List Fence}
    (h : ∀ fence ∈ queue, fence.generation < generation) (stored : Option Uuid) :
    queue.foldl (runs generation) stored = stored := by
  induction queue with
  | nil => rfl
  | cons fence rest ih =>
      have hfence : fence.generation ≠ generation := Nat.ne_of_lt (h fence List.mem_cons_self)
      rw [List.foldl_cons, runs, if_neg hfence]
      exact ih fun other hother => h other (List.mem_cons_of_mem fence hother)

/-- A write that is queued in a new generation is the only one that passes its check. -/
theorem foldl_runs_last {queue : List Fence} (last : Fence)
    (h : ∀ fence ∈ queue, fence.generation < last.generation) (stored : Option Uuid) :
    (queue ++ [last]).foldl (runs last.generation) stored = last.execute stored := by
  rw [List.foldl_append, foldl_runs_of_lt h, List.foldl_cons, List.foldl_nil, runs, if_pos rfl]

theorem World.Ordered.lt_succ (h : world.Ordered) :
    ∀ fence ∈ world.queue, fence.generation < world.sessionGeneration + 1 :=
  fun fence hfence => Nat.lt_succ_of_le (h fence hfence)

theorem settled_beginSession {token : Uuid} (hordered : world.Ordered) (h : world.Settled) :
    (world.beginSession token).Settled := by
  unfold beginSession
  split
  · exact h
  · right
    exact foldl_runs_last (.write (world.sessionGeneration + 1) token) hordered.lt_succ world.written

theorem clearSessionIf_eq_none_iff {expected stored : Option Uuid} :
    clearSessionIf expected stored = none ↔ stored = none ∨ stored = expected := by
  cases expected with
  | none => exact ⟨.inl, fun h => h.elim id id⟩
  | some expected =>
      unfold clearSessionIf
      dsimp only
      split
      · rename_i hother
        exact ⟨.inl, fun h => h.resolve_right hother⟩
      · rename_i hsame
        exact ⟨fun _ => .inr (not_not.mp hsame), fun _ => rfl⟩

/-- An invalidation leaves no token exactly if none is stored by then but its own. -/
theorem settled_invalidateSession (hordered : world.Ordered) :
    world.invalidateSession.Settled ↔ world.written = none ∨ world.written = world.sessionToken := by
  have hdrained : world.invalidateSession.drained = clearSessionIf world.sessionToken world.written :=
    foldl_runs_last (.clear (world.sessionGeneration + 1) world.sessionToken) hordered.lt_succ world.written
  have htoken : world.invalidateSession.sessionToken = none := rfl
  unfold Settled
  rw [hdrained, htoken, clearSessionIf_eq_none_iff]
  constructor
  · exact fun h => h.resolve_left (Nat.succ_ne_zero _)
  · exact .inr

theorem drained_checkFence : world.checkFence.drained = world.drained := by
  unfold checkFence
  rcases hrunning : world.running with _ | fence
  · rcases hqueue : world.queue with _ | ⟨fence, rest⟩
    · rfl
    · dsimp only
      split
      · rename_i hcurrent
        simp only [drained, written, hrunning, hqueue, List.foldl_cons, runs, if_pos hcurrent]
      · rename_i hstale
        simp only [drained, written, hrunning, hqueue, List.foldl_cons, runs, if_neg hstale]
  · rfl

theorem drained_executeFence : world.executeFence.drained = world.drained := by
  unfold executeFence
  rcases hrunning : world.running with _ | fence
  · rfl
  · simp only [drained, written, hrunning]

/-- The fence is left alone: the counters, the queue and what is stored. -/
structure Apart (before after : World δ) : Prop where
  generation : after.sessionGeneration = before.sessionGeneration
  token : after.sessionToken = before.sessionToken
  queue : after.queue = before.queue
  running : after.running = before.running
  session : after.database.session = before.database.session

/-- The database is left alone too. -/
structure Aloof (before after : World δ) : Prop extends Apart before after where
  data : after.database.data = before.database.data

theorem Apart.refl (world : World δ) : Apart world world := ⟨rfl, rfl, rfl, rfl, rfl⟩

theorem Aloof.refl (world : World δ) : Aloof world world := ⟨.refl world, rfl⟩

theorem Apart.settled {after : World δ} (h : Apart world after) : after.Settled ↔ world.Settled := by
  unfold Settled drained written
  rw [h.generation, h.token, h.queue, h.running, h.session]

theorem Apart.ordered {after : World δ} (h : Apart world after) (hordered : world.Ordered) :
    after.Ordered := by
  intro fence hfence
  rw [h.queue] at hfence
  rw [h.generation]
  exact hordered fence hfence

/-! ### Commits -/

theorem commit_ok {apply : δ → δ} {token : Uuid} {database next : Database δ}
    (h : database.commit apply token = .ok next) :
    database.session = some token ∧ next = { database with data := apply database.data } := by
  unfold Database.commit Database.assertSyncSession at h
  dsimp only at h
  split at h
  · cases h
  · rename_i hsame
    cases h
    exact ⟨not_not.mp hsame, rfl⟩

theorem apart_transact (index : Nat) : Apart world (world.transact index) := by
  unfold transact
  split
  · dsimp only
    split
    · exact ⟨rfl, rfl, rfl, rfl, rfl⟩
    · rename_i database hcommit
      refine ⟨rfl, rfl, rfl, rfl, ?_⟩
      rw [(commit_ok hcommit).2]
  · exact .refl world

theorem aloof_respond (index : Nat) (apply : δ → δ) : Aloof world (world.respond index apply) := by
  unfold respond
  split
  · split
    · exact ⟨⟨rfl, rfl, rfl, rfl, rfl⟩, rfl⟩
    · exact ⟨⟨rfl, rfl, rfl, rfl, rfl⟩, rfl⟩
  · exact .refl world

theorem aloof_resume (index : Nat) : Aloof world (world.resume index) := by
  unfold resume
  split
  · exact .refl world
  · split
    · exact .refl world
    · dsimp only
      split
      · exact ⟨⟨rfl, rfl, rfl, rfl, rfl⟩, rfl⟩
      · exact ⟨⟨rfl, rfl, rfl, rfl, rfl⟩, rfl⟩

theorem aloof_installEngine (session : Session) : Aloof world (world.installEngine session) := by
  unfold installEngine
  split
  · exact ⟨⟨rfl, rfl, rfl, rfl, rfl⟩, rfl⟩
  · exact .refl world

theorem aloof_syncRound (session : Session) : Aloof world (world.syncRound session) := by
  unfold syncRound
  split
  · exact ⟨⟨rfl, rfl, rfl, rfl, rfl⟩, rfl⟩
  · exact .refl world

theorem aloof_forceBootstrap : Aloof world world.forceBootstrap := by
  unfold forceBootstrap
  split
  · exact .refl world
  · split
    · exact .refl world
    · exact ⟨⟨rfl, rfl, rfl, rfl, rfl⟩, rfl⟩

theorem aloof_initializeCloud (session : Session) (apply : δ → δ) :
    Aloof world (world.initializeCloud session apply) := by
  unfold initializeCloud
  split
  · exact ⟨⟨rfl, rfl, rfl, rfl, rfl⟩, rfl⟩
  · exact .refl world

/-! ### Steps -/

/-- The event invalidates the session. -/
def Event.invalidates : Event δ → Bool
  | .invalidateSession => true
  | .dispose => true
  | _ => false

/-- A step is one of the fence or a commit, or it leaves both alone. -/
theorem step_cases (world : World δ) (event : Event δ) :
    (∃ token, event = .beginSession token) ∨ event.invalidates = true ∨ event = .checkFence ∨
      event = .executeFence ∨ (∃ index, event = .transact index) ∨
      Aloof world ((cloudRuns δ).step world event) ∧ (cloudRuns δ).emit world event = [] := by
  cases event with
  | beginSession token => exact .inl ⟨token, rfl⟩
  | invalidateSession => exact .inr (.inl rfl)
  | dispose => exact .inr (.inl rfl)
  | checkFence => exact .inr (.inr (.inl rfl))
  | executeFence => exact .inr (.inr (.inr (.inl rfl)))
  | transact index => exact .inr (.inr (.inr (.inr (.inl ⟨index, rfl⟩))))
  | resume index => exact .inr (.inr (.inr (.inr (.inr ⟨aloof_resume index, rfl⟩))))
  | installEngine session => exact .inr (.inr (.inr (.inr (.inr ⟨aloof_installEngine session, rfl⟩))))
  | syncRound session => exact .inr (.inr (.inr (.inr (.inr ⟨aloof_syncRound session, rfl⟩))))
  | forceBootstrap => exact .inr (.inr (.inr (.inr (.inr ⟨aloof_forceBootstrap, rfl⟩))))
  | initializeCloud session apply =>
      exact .inr (.inr (.inr (.inr (.inr ⟨aloof_initializeCloud session apply, rfl⟩))))
  | respond index apply => exact .inr (.inr (.inr (.inr (.inr ⟨aloof_respond index apply, rfl⟩))))

theorem step_of_invalidates (world : World δ) {event : Event δ} (h : event.invalidates = true) :
    ∃ before : World δ, Aloof world before ∧
      (cloudRuns δ).step world event = before.invalidateSession ∧ (cloudRuns δ).emit world event = [] := by
  cases event with
  | invalidateSession => exact ⟨world, .refl world, rfl, rfl⟩
  | dispose => exact ⟨{ world with disposed := true }, ⟨⟨rfl, rfl, rfl, rfl, rfl⟩, rfl⟩, rfl, rfl⟩
  | beginSession token => cases h
  | resume index => cases h
  | installEngine session => cases h
  | checkFence => cases h
  | executeFence => cases h
  | syncRound session => cases h
  | forceBootstrap => cases h
  | initializeCloud session apply => cases h
  | respond index apply => cases h
  | transact index => cases h

/-- What is asked of a step. -/
structure Fenced (world : World δ) (event : Event δ) : Prop where
  /-- What was obtained under a token is committed only while the token is stored. -/
  committed : ∀ entry ∈ (cloudRuns δ).emit world event, world.database.session = some entry.token
  /-- Nothing else changes the data. -/
  data : (cloudRuns δ).emit world event = [] →
    ((cloudRuns δ).step world event).database.data = world.database.data
  /-- A token is removed by the clear of its own session. -/
  cleared : ∀ token, world.database.session = some token →
    ((cloudRuns δ).step world event).database.session = none →
      event = .executeFence ∧ ∃ generation, world.running = some (.clear generation (some token))
  /-- Once the queue has run, the token of the newest session is stored, or none after an invalidation. -/
  settled : ((cloudRuns δ).step world event).Settled

/-- Whatever else is stored when a session is invalidated stays. -/
def Own (world : World δ) (event : Event δ) : Prop :=
  event.invalidates = true → world.written = none ∨ world.written = world.sessionToken

/-- The token that is stored stays, and so does the data. -/
theorem cleared_of_session {event : Event δ}
    (h : ((cloudRuns δ).step world event).database.session = world.database.session) (token : Uuid)
    (hstored : world.database.session = some token)
    (hnone : ((cloudRuns δ).step world event).database.session = none) :
    event = .executeFence ∧ ∃ generation, world.running = some (.clear generation (some token)) := by
  rw [h, hstored] at hnone
  cases hnone

theorem execute_clears {fence : Fence} {token : Uuid} (h : fence.execute (some token) = none) :
    ∃ generation, fence = .clear generation (some token) := by
  cases fence with
  | write generation other => cases h
  | clear generation expected =>
      rcases clearSessionIf_eq_none_iff.mp h with hnone | hsame
      · cases hnone
      · exact ⟨generation, by rw [hsame]⟩

theorem fenced_transact (index : Nat) (h : world.Settled) : Fenced world (.transact index) where
  committed := by
    intro entry hentry
    simp only [cloudRuns] at hentry
    split at hentry
    · split at hentry
      · cases hentry
      · rename_i database hcommit
        rw [List.mem_singleton.mp hentry]
        exact (commit_ok hcommit).1
    · cases hentry
  data := by
    intro hsilent
    simp only [cloudRuns] at hsilent ⊢
    unfold transact
    split at hsilent
    · split at hsilent
      · rfl
      · cases hsilent
    · rfl
  cleared := cleared_of_session (apart_transact index).session
  settled := (apart_transact index).settled.mpr h

theorem fenced_of_aloof {event : Event δ} (haloof : Aloof world ((cloudRuns δ).step world event))
    (hsilent : (cloudRuns δ).emit world event = []) (h : world.Settled) : Fenced world event where
  committed := by
    rw [hsilent]
    exact nofun
  data := fun _ => haloof.data
  cleared := cleared_of_session haloof.session
  settled := haloof.settled.mpr h

theorem fenced_iff {event : Event δ} (hordered : world.Ordered) (h : world.Settled) :
    Fenced world event ↔ Own world event := by
  obtain ⟨token, rfl⟩ | hinvalidates | rfl | rfl | ⟨index, rfl⟩ | ⟨haloof, hsilent⟩ :=
    step_cases world event
  · refine ⟨fun _ => nofun, fun _ => ⟨nofun, fun _ => ?_, cleared_of_session ?_, ?_⟩⟩
    · simp only [cloudRuns, beginSession]
      split
      · rfl
      · rfl
    · simp only [cloudRuns, beginSession]
      split
      · rfl
      · rfl
    · exact settled_beginSession hordered h
  · obtain ⟨before, haloof, hstep, hsilent⟩ := step_of_invalidates world hinvalidates
    have hsettled : ((cloudRuns δ).step world event).Settled ↔
        world.written = none ∨ world.written = world.sessionToken := by
      rw [hstep, settled_invalidateSession (haloof.ordered hordered)]
      unfold written
      rw [haloof.running, haloof.session, haloof.token]
    constructor
    · exact fun hfenced _ => hsettled.mp hfenced.settled
    · intro hown
      refine ⟨?_, fun _ => ?_, cleared_of_session ?_, hsettled.mpr (hown hinvalidates)⟩
      · rw [hsilent]
        exact nofun
      · rw [hstep]
        exact haloof.data
      · rw [hstep]
        exact haloof.session
  · have hdatabase : world.checkFence.database = world.database := by
      unfold checkFence
      split
      · split
        · rfl
        · rfl
      · rfl
    have htoken : world.checkFence.sessionGeneration = world.sessionGeneration ∧
        world.checkFence.sessionToken = world.sessionToken := by
      unfold checkFence
      split
      · split
        · exact ⟨rfl, rfl⟩
        · exact ⟨rfl, rfl⟩
      · exact ⟨rfl, rfl⟩
    refine ⟨fun _ => nofun, fun _ => ⟨nofun, fun _ => ?_, cleared_of_session ?_, ?_⟩⟩
    · exact congrArg Database.data hdatabase
    · exact congrArg Database.session hdatabase
    · change world.checkFence.Settled
      unfold Settled
      rw [htoken.1, htoken.2, drained_checkFence]
      exact h
  · have htoken : world.executeFence.sessionGeneration = world.sessionGeneration ∧
        world.executeFence.sessionToken = world.sessionToken := by
      unfold executeFence
      split
      · exact ⟨rfl, rfl⟩
      · exact ⟨rfl, rfl⟩
    refine ⟨fun _ => nofun, fun _ => ⟨nofun, fun _ => ?_, ?_, ?_⟩⟩
    · simp only [cloudRuns, executeFence]
      split
      · rfl
      · rfl
    · intro token hstored hnone
      refine ⟨rfl, ?_⟩
      simp only [cloudRuns, executeFence] at hnone
      rcases hrunning : world.running with _ | fence
      · simp only [hrunning, hstored] at hnone
        cases hnone
      · simp only [hrunning, hstored] at hnone
        obtain ⟨generation, rfl⟩ := execute_clears hnone
        exact ⟨generation, rfl⟩
    · change world.executeFence.Settled
      unfold Settled
      rw [htoken.1, htoken.2, drained_executeFence]
      exact h
  · exact ⟨fun _ => nofun, fun _ => fenced_transact index h⟩
  · constructor
    · intro _ hinvalidates
      obtain ⟨before, hbefore, hstep, -⟩ := step_of_invalidates world hinvalidates
      have hgeneration := haloof.generation
      rw [hstep] at hgeneration
      exact absurd (hgeneration.symm.trans (congrArg (· + 1) hbefore.generation)).symm (Nat.succ_ne_self _)
    · exact fun _ => fenced_of_aloof haloof hsilent h

theorem ordered_enqueue {fence : Fence} (hordered : world.Ordered)
    (hfence : fence.generation ≤ world.sessionGeneration) : (world.enqueue fence).Ordered := by
  intro other hother
  rcases List.mem_append.mp hother with hold | hnew
  · exact hordered other hold
  · rw [List.mem_singleton.mp hnew]
    exact hfence

theorem ordered_step (event : Event δ) (hordered : world.Ordered) :
    ((cloudRuns δ).step world event).Ordered := by
  have hgrown : ∀ fence ∈ world.queue, fence.generation ≤ world.sessionGeneration + 1 :=
    fun fence hfence => Nat.le_succ_of_le (hordered fence hfence)
  obtain ⟨token, rfl⟩ | hinvalidates | rfl | rfl | ⟨index, rfl⟩ | ⟨haloof, -⟩ := step_cases world event
  · simp only [cloudRuns, beginSession]
    split
    · exact hordered
    · exact ordered_enqueue hgrown (Nat.le_refl _)
  · obtain ⟨before, haloof, hstep, -⟩ := step_of_invalidates world hinvalidates
    rw [hstep]
    have hbefore := haloof.ordered hordered
    exact ordered_enqueue (fun fence hfence => Nat.le_succ_of_le (hbefore fence hfence)) (Nat.le_refl _)
  · simp only [cloudRuns, checkFence]
    split
    · rename_i fence rest _ hqueue
      have hrest : ∀ other ∈ rest, other.generation ≤ world.sessionGeneration := fun other hother =>
        hordered other (hqueue ▸ List.mem_cons_of_mem fence hother)
      split
      · exact hrest
      · exact hrest
    · exact hordered
  · simp only [cloudRuns, executeFence]
    split
    · exact hordered
    · exact hordered
  · exact (apart_transact index).ordered hordered
  · exact haloof.ordered hordered

/-- Over every run of a controller: the fence holds in each step exactly if in each step that invalidates a session no other token is stored. -/
theorem session_fence_iff (database : Database δ) (events : List (Event δ)) :
    (cloudRuns δ).Along Fenced (start database) events ↔ (cloudRuns δ).Along Own (start database) events := by
  apply (cloudRuns δ).along_congr (fun world => world.Ordered ∧ world.Settled)
  · exact fun world event hworld hown =>
      ⟨ordered_step event hworld.1, ((fenced_iff hworld.1 hworld.2).mpr hown).settled⟩
  · exact fun world event hworld => fenced_iff hworld.1 hworld.2
  · exact ⟨nofun, .inl rfl⟩

/-- A session is stored. It is invalidated twice before the first clear is checked, and both clears pass it by. -/
theorem second_invalidation_keeps_token :
    ((cloudRuns Unit).run (start ⟨none, ()⟩) [.beginSession ⟨7⟩, .checkFence, .executeFence,
      .invalidateSession, .dispose, .checkFence, .checkFence, .executeFence]).database.session = some ⟨7⟩ ∧
    ¬ (cloudRuns Unit).Along Fenced (start ⟨none, ()⟩) [.beginSession ⟨7⟩, .checkFence, .executeFence,
      .invalidateSession, .dispose, .checkFence, .checkFence, .executeFence] := by
  refine ⟨rfl, ?_⟩
  rintro ⟨-, -, -, -, -, -, -, ⟨-, -, -, hsettled⟩, -⟩
  rcases hsettled with hnone | hdrained
  · cases hnone
  · cases hdrained

end Cloud

end ShishiTodo
