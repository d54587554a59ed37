import ShishiTodo.Sync.Passages
import Mathlib.Data.Prod.Lex

/-!
# A run delivers and stops

A round pushes what it can and pulls a page, so the pending operations grow fewer or the cursor goes on; an expired cursor is replaced by one that the quiet server accepts. A run therefore ends once the others are quiet, and when it ends with an answer nothing is pending and the cursor is at the account's last sequence, as long as the prunes left the newest change readable.
-/

namespace ShishiTodo.Sync

open Lib

/-! ### What a round can do -/

section

variable {env : Env} {σ : Type} {engine : SyncEngine env σ} {world : World σ}
  {allowed : ServerEvent → Prop}

/-- Every way a round can go. -/
inductive Outcome (engine : SyncEngine env σ) (allowed : ServerEvent → Prop) (world : World σ) :
    World σ ⊕ Ended σ → Prop
  | failed (last : World σ) (hstatus : last.state.status ≠ .synced) :
      Outcome engine allowed world (.inr { world := last, answer := none })
  | answered {body : SyncBody} (hrequest : engine.request world.store = .ok body)
      {started middle last : World σ} (hstarted : Waits env engine.transport.auth.userId allowed
        world started) {response : SyncResponse} (pushed : Pushed engine allowed
        (engine.transport.turns world.round) body started response middle) {pendingCount : Nat}
      (accepted : Accepted engine response middle last pendingCount) :
      Outcome engine allowed world
        (if 0 < pendingCount ∨ response.hasMore then SyncEngine.again last
          else .inr { world := last, answer := some response })
  | rebased {body : SyncBody} (hrequest : engine.request world.store = .ok body)
      {middle last : World σ} (waits : Waits env engine.transport.auth.userId allowed world middle)
      {cursor : Int} (hcursor : ChangeCursor.parse body.cursor = some cursor)
      (hexpired : cursor <
        (middle.db.syncState engine.transport.auth.userId).minAvailableSeq - 1)
      (rebased : Rebased engine allowed middle last) :
      Outcome engine allowed world (SyncEngine.again last)

/-- Whatever is caught but an expired cursor ends the run. -/
theorem recover_stops {turn : Turn} {thrown : Thrown} (h : thrown.cursorExpired = false) :
    ∃ last : World σ, engine.recover turn thrown world = .inr { world := last, answer := none } ∧
      last.state.status ≠ .synced := by
  unfold SyncEngine.recover
  rw [if_neg (by simp [h])]
  cases thrown with
  | http error =>
      simp only
      split
      · exact ⟨_, rfl, by simp [World.setState]⟩
      · exact ⟨_, rfl, by simp [World.fail, World.setState]⟩
  | other failure =>
      simp only
      split
      · exact ⟨_, rfl, by simp [World.fail, World.setState]⟩
      · exact ⟨_, rfl, by simp [World.setState]⟩

theorem round_outcome (hallowed : (engine.transport.turns world.round).Only allowed) :
    Outcome engine allowed world (engine.round world) := by
  have hstarted : Waits env engine.transport.auth.userId allowed world world.begin :=
    (Waits.refl world).setState _
  have hfailed : ∀ {turn : Turn} {thrown : Thrown} {last : World σ},
      thrown.cursorExpired = false → Outcome engine allowed world (engine.recover turn thrown last) := by
    intro turn thrown last hthrown
    obtain ⟨ended, hended, hstatus⟩ : ∃ ended : World σ,
        engine.recover turn thrown last = .inr { world := ended, answer := none } ∧
          ended.state.status ≠ .synced := recover_stops hthrown
    rw [hended]
    exact .failed ended hstatus
  unfold SyncEngine.round
  simp only
  split
  · exact hfailed rfl
  · rename_i body hbody
    have hrequest : engine.request world.store = .ok body := hbody
    split
    · rename_i thrown middle hsync
      cases hexpired : thrown.cursorExpired with
      | false => exact hfailed hexpired
      | true =>
          obtain ⟨hwaits, cursor, hcursor, hbehind⟩ := sync_expired hallowed hsync hexpired
          unfold SyncEngine.recover
          rw [if_pos hexpired]
          split
          · rename_i last hrebase
            obtain ⟨rebased⟩ := rebase_ok hallowed.pages hrebase
            exact .rebased hrequest (hstarted.trans hwaits) hcursor hbehind rebased
          · exact .failed _ (by simp [World.fail, World.setState])
    · rename_i response middle hsync
      obtain ⟨pushed⟩ := sync_ok hallowed hsync
      split
      · exact hfailed rfl
      · rename_i pendingCount last haccept
        exact .answered hrequest hstarted pushed (accept_ok haccept)

/-! ### What a round asks for -/

theorem request_eq_ok {store : σ} {body : SyncBody} (h : engine.request store = .ok body) :
    body.cursor = engine.store.cursor store ∧ body.limit = engine.batchSize ∧
      body.ops ⊆ engine.store.pending store ∧
      (0 < engine.batchSize → engine.store.pending store ≠ [] → body.ops ≠ []) := by
  simp only [SyncEngine.request, bind_eq_ok_iff] at h
  obtain ⟨deviceId, -, ops, hops, cursor, hcursor, hbody⟩ := h
  rw [← Except.ok.inj hbody]
  exact ⟨engine.store.reads_cursor hcursor, rfl, engine.store.lists hops,
    engine.store.lists_some hops⟩

theorem read_ops {ops : List SyncOp} {mutations : List Mutation}
    (h : ops.mapM (SyncOp.read env) = some mutations) :
    (ops = [] → mutations = []) ∧ ∀ op ∈ ops, ∃ mutation ∈ mutations,
      env.uuid.parse op.opId = some mutation.opId := by
  induction ops generalizing mutations with
  | nil =>
      cases h
      exact ⟨fun _ => rfl, by simp⟩
  | cons op rest ih =>
      rw [List.mapM_cons] at h
      obtain ⟨first, hfirst, htail⟩ := Option.bind_eq_some_iff.mp h
      obtain ⟨others, hothers, hdone⟩ := Option.bind_eq_some_iff.mp htail
      obtain ⟨opId, hopId, hrest⟩ := Option.bind_eq_some_iff.mp hfirst
      obtain ⟨entityId, -, hmutation⟩ := Option.bind_eq_some_iff.mp hrest
      cases hdone
      refine ⟨by simp, fun sent hsent => ?_⟩
      rcases List.mem_cons.mp hsent with rfl | hlater
      · refine ⟨first, List.mem_cons_self, ?_⟩
        rw [← Option.some.inj hmutation]
        exact hopId
      · obtain ⟨mutation, hmem, hparse⟩ := (ih hothers).2 sent hlater
        exact ⟨mutation, List.mem_cons_of_mem _ hmem, hparse⟩

theorem read_body {body : SyncBody} {request : SyncRequest} (h : body.read env = some request) :
    request.cursor = body.cursor ∧ request.limit = some body.limit ∧
      body.ops.mapM (SyncOp.read env) = some request.ops := by
  simp only [SyncBody.read, Option.bind_eq_bind, Option.bind_eq_some_iff] at h
  obtain ⟨deviceId, -, ops, hops, hrequest⟩ := h
  rw [← Option.some.inj hrequest]
  exact ⟨rfl, rfl, hops⟩

/-- Every operation of an answered push is acknowledged. -/
theorem Pushed.acknowledged {turn : Turn} {body : SyncBody} {response : SyncResponse}
    {next : World σ} (pushed : Pushed engine allowed turn body world response next) {store : σ}
    (hops : body.ops ⊆ engine.store.pending store)
    (hrecorded : ∃ past, History pushed.middle.db past) :
    ∀ op ∈ body.ops, acknowledged env response.ack op = true := by
  intro op hop
  obtain ⟨mutation, hmutation, hparse⟩ := (read_ops (read_body pushed.read).2.2).2 op hop
  have hacks := pushed.committed.acks hrecorded
  have hmem : mutation.opId ∈ pushed.committed.response.ack.map Ack.opId := by
    rw [hacks]
    exact List.mem_map_of_mem hmutation
  obtain ⟨ack, hack, hid⟩ := List.mem_map.mp hmem
  refine List.any_eq_true.mpr ⟨ack, pushed.response_eq ▸ hack, ?_⟩
  rw [hid, engine.store.canonical op (hops hop) hparse]
  exact beq_self_eq_true _

end

/-! ### The log around a round -/

section

variable {env : Env} {σ : Type} {userId : Uuid} {world next : World σ}

theorem Waits.standing {allowed : ServerEvent → Prop} (waits : Waits env userId allowed world next)
    (h : LogStanding world.db userId) : LogStanding next.db userId := by
  obtain ⟨more, -, hpasses⟩ := waits.passes
  refine hpasses.keeps (fun db => LogStanding db userId) (fun _ event hdb _ _ => hdb.step event) ?_ h
  intro db hdb
  obtain ⟨past, hpast⟩ := hdb.recorded
  exact hdb.ensureSyncState userId ⟨past, hpast.ensureSyncState userId⟩

/-- Quiet events leave the account's counters alone. -/
theorem Waits.syncState (waits : Waits env userId ServerEvent.Quiet world next) :
    next.db.syncState userId = world.db.syncState userId := by
  obtain ⟨more, -, hpasses⟩ := waits.passes
  refine hpasses.keeps (fun db => db.syncState userId = world.db.syncState userId) ?_ ?_ rfl
  · intro db event hdb hquiet _
    exact (quiet_frame env db hquiet userId).1.trans hdb
  · intro db hdb
    exact (syncState_ensureSyncState db userId userId).trans hdb

/-- Every prune that was met so far kept the account's newest change. -/
def TipsKept (userId : Uuid) (world : World σ) : Prop :=
  ∀ step ∈ world.met, KeepsTip userId step.1 step.2

theorem Waits.tipsKept {allowed : ServerEvent → Prop} (waits : Waits env userId allowed world next)
    (h : TipsKept userId next) : TipsKept userId world := by
  obtain ⟨more, hmore, -⟩ := waits.passes
  intro step hstep
  exact h step (hmore ▸ List.mem_append_left _ hstep)

theorem Waits.tip {allowed : ServerEvent → Prop} (waits : Waits env userId allowed world next)
    (hkept : TipsKept userId next) (h : Tip world.db userId) : Tip next.db userId := by
  obtain ⟨more, hmore, hpasses⟩ := waits.passes
  refine hpasses.keeps (fun db => Tip db userId) ?_ ?_ h
  · intro db event hdb _ hmem
    exact hdb.step (hkept (db, event) (hmore ▸ List.mem_append_right _ hmem))
  · intro db hdb
    exact hdb.frame (syncState_ensureSyncState db userId userId) rfl

end

/-! ### A quiet round makes progress -/

section

variable {env : Env} {σ : Type} (engine : SyncEngine env σ)

/-- One while the server would call the cursor expired. -/
def stale (world : World σ) : Nat :=
  match ChangeCursor.parse (engine.store.cursor world.store) with
  | some cursor =>
      if cursor < (world.db.syncState engine.transport.auth.userId).minAvailableSeq - 1 then 1 else 0
  | none => 0

/-- The sequences after the cursor. -/
def unread (world : World σ) : Nat :=
  match ChangeCursor.parse (engine.store.cursor world.store) with
  | some cursor => (world.db.lastSeq engine.transport.auth.userId - cursor).toNat
  | none => 0

/-- What a round brings down, the first in the order first: the rounds until the others are quiet, the expired cursor, the pending operations, and the unread changes. -/
def remaining (quietFrom : Nat) (world : World σ) : ℕ ×ₗ ℕ ×ₗ ℕ ×ₗ ℕ :=
  toLex (quietFrom - world.round, toLex (stale engine world,
    toLex ((engine.store.pending world.store).length, unread engine world)))

variable {engine}

theorem stale_of_render {world : World σ} {reached : Int}
    (hcursor : engine.store.cursor world.store = ChangeCursor.render reached)
    (h : (world.db.syncState engine.transport.auth.userId).minAvailableSeq - 1 ≤ reached) :
    stale engine world = 0 := by
  unfold stale
  rw [hcursor]
  split
  · rename_i cursor hparse
    rw [ChangeCursor.parse_render hparse, if_neg (by omega)]
  · rfl

theorem unread_le_of_render {world : World σ} {reached : Int}
    (hcursor : engine.store.cursor world.store = ChangeCursor.render reached) :
    unread engine world ≤ (world.db.lastSeq engine.transport.auth.userId - reached).toNat := by
  unfold unread
  rw [hcursor]
  split
  · rename_i cursor hparse
    rw [ChangeCursor.parse_render hparse]
  · exact Nat.zero_le _

/-- Where an answered round leaves the server and the cursor. -/
structure Arrives (engine : SyncEngine env σ) {allowed : ServerEvent → Prop} {turn : Turn}
    {body : SyncBody} {started middle : World σ} {response : SyncResponse}
    (pushed : Pushed engine allowed turn body started response middle) (world last : World σ)
    (reached : Int) : Prop where
  db : last.db = pushed.committed.result
  store : middle.store = world.store
  before : LogStanding pushed.middle.db engine.transport.auth.userId
  after : LogStanding pushed.committed.result engine.transport.auth.userId
  parse : ChangeCursor.parse (engine.store.cursor world.store) = some pushed.committed.cursor
  reaches : PageReaches pushed.committed.result engine.transport.auth.userId
    pushed.committed.cursor response reached
  cursor : engine.store.cursor last.store = ChangeCursor.render reached

theorem exists_arrives {allowed : ServerEvent → Prop} {world started middle last : World σ}
    {body : SyncBody} {response : SyncResponse} {turn : Turn} {pendingCount : Nat}
    (hstanding : LogStanding world.db engine.transport.auth.userId)
    (hrequest : engine.request world.store = .ok body)
    (hstarted : Waits env engine.transport.auth.userId allowed world started)
    (pushed : Pushed engine allowed turn body started response middle)
    (accepted : Accepted engine response middle last pendingCount) :
    ∃ reached, Arrives engine pushed world last reached := by
  have hwaits := hstarted.trans pushed.waits
  have hbefore := hwaits.standing hstanding
  have hafter : LogStanding pushed.committed.result engine.transport.auth.userId :=
    hbefore.request pushed.committed (hbefore.recorded.elim fun _ hpast =>
      ⟨_, hpast.request pushed.committed⟩)
  obtain ⟨reached, hreached⟩ := pushed.committed.reaches hafter
  rw [← pushed.response_eq] at hreached
  exact ⟨reached, {
    db := accepted.db.trans (congrArg World.db pushed.next_eq)
    store := (congrArg World.store pushed.next_eq).trans hwaits.store
    before := hbefore
    after := hafter
    parse := by
      rw [← (request_eq_ok hrequest).1, ← (read_body pushed.read).1]
      exact readCursor_eq_ok pushed.committed.hcursor
    reaches := hreached
    cursor := accepted.cursor.trans hreached.nextCursor }⟩

/-- An answered request asked for a page of at least one change. -/
theorem Pushed.batchSize_pos {allowed : ServerEvent → Prop} {turn : Turn} {body : SyncBody}
    {started middle : World σ} {response : SyncResponse}
    (pushed : Pushed engine allowed turn body started response middle)
    (hlimit : body.limit = engine.batchSize) : 0 < engine.batchSize := by
  have hread := pushed.committed.hlimit
  unfold readLimit at hread
  rw [(read_body pushed.read).2.1, hlimit] at hread
  by_contra hzero
  have hzero : engine.batchSize = 0 := by omega
  simp [hzero, parsePageLimit] at hread

/-- An answered round of a quiet server that is not the last one pushed an operation or read a change. -/
theorem answered_progress {world started middle last : World σ} {body : SyncBody}
    {response : SyncResponse} {turn : Turn} {pendingCount : Nat}
    (hstanding : LogStanding world.db engine.transport.auth.userId)
    (hrequest : engine.request world.store = .ok body)
    (hstarted : Waits env engine.transport.auth.userId ServerEvent.Quiet world started)
    (pushed : Pushed engine ServerEvent.Quiet turn body started response middle)
    (accepted : Accepted engine response middle last pendingCount)
    (hagain : 0 < pendingCount ∨ response.hasMore = true) :
    stale engine last = 0 ∧
      ((engine.store.pending last.store).length < (engine.store.pending world.store).length ∨
        ((engine.store.pending last.store).length = (engine.store.pending world.store).length ∧
          unread engine last < unread engine world)) := by
  obtain ⟨-, hlimit, hops, hsome⟩ := request_eq_ok hrequest
  obtain ⟨reached, arrives⟩ := exists_arrives hstanding hrequest hstarted pushed accepted
  have hreached := arrives.reaches
  refine ⟨stale_of_render arrives.cursor ?_, ?_⟩
  · rw [arrives.db, pushed.committed.minAvailableSeq_eq]
    exact pushed.committed.accepted.2.trans hreached.le
  rw [accepted.pending, arrives.store]
  by_cases hidle : engine.store.pending world.store = []
  · -- Nothing was pushed, so the answer has more changes and the cursor went on.
    have hnone : body.ops = [] := List.subset_nil.mp (hidle ▸ hops)
    have hcount : pendingCount = 0 := by
      rw [accepted.pendingCount, accepted.pending, arrives.store, hidle]
      rfl
    have hgone := hreached.more (hagain.resolve_left (by omega))
    have hsynced : pushed.middle.db.syncState engine.transport.auth.userId =
        world.db.syncState engine.transport.auth.userId := (hstarted.trans pushed.waits).syncState
    have hlast : last.db.lastSeq engine.transport.auth.userId =
        world.db.lastSeq engine.transport.auth.userId := by
      rw [arrives.db, pushed.committed.lastSeq_idle ((read_ops (read_body pushed.read).2.2).1 hnone),
        Db.lastSeq, hsynced, Db.lastSeq]
    have hend : reached ≤ world.db.lastSeq engine.transport.auth.userId := by
      rw [← hlast, arrives.db]
      exact hreached.le_lastSeq
    refine .inr ⟨by rw [hidle]; rfl, (unread_le_of_render arrives.cursor).trans_lt ?_⟩
    rw [hlast, unread, arrives.parse]
    simp only
    omega
  · left
    obtain ⟨op, hop⟩ := List.exists_mem_of_ne_nil body.ops
      (hsome (pushed.batchSize_pos hlimit) hidle)
    have hacked := pushed.acknowledged hops arrives.before.recorded op hop
    refine List.length_filter_lt_length_iff_exists.mpr ⟨op, hops hop, ?_⟩
    simp [hacked]

/-- After a bootstrap of a quiet server the cursor is none that the server calls expired. -/
theorem rebased_fresh {middle last : World σ}
    (hstanding : LogStanding middle.db engine.transport.auth.userId)
    (rebased : Rebased engine ServerEvent.Quiet middle last) : stale engine last = 0 := by
  have hopened := rebased.waits.syncState
  have hmin := (rebased.waits.standing hstanding).min_le_next
  refine stale_of_render rebased.cursor ?_
  rw [rebased.db, rebased.rest.syncState]
  unfold Db.lastSeq
  omega

/-- A round of a quiet server that goes on brings the rest of the order down. -/
theorem quiet_progress {world next : World σ}
    (hquiet : (engine.transport.turns world.round).Only ServerEvent.Quiet)
    (hstanding : LogStanding world.db engine.transport.auth.userId)
    (hround : engine.round world = .inl next) :
    stale engine next < stale engine world ∨ (stale engine next = stale engine world ∧
      ((engine.store.pending next.store).length < (engine.store.pending world.store).length ∨
        ((engine.store.pending next.store).length = (engine.store.pending world.store).length ∧
          unread engine next < unread engine world))) := by
  have houtcome := round_outcome hquiet
  rw [hround] at houtcome
  generalize hresult : (Sum.inl next : World σ ⊕ Ended σ) = result at houtcome
  cases houtcome with
  | failed last hstatus => cases hresult
  | answered hrequest hstarted pushed accepted =>
      split at hresult
      · rename_i hagain
        obtain ⟨hfresh, hless⟩ := answered_progress hstanding hrequest hstarted pushed accepted hagain
        cases Sum.inl.inj hresult
        change stale engine _ = 0 at hfresh
        rcases Nat.eq_zero_or_pos (stale engine world) with hzero | hpos
        · exact .inr ⟨hfresh.trans hzero.symm, hless⟩
        · exact .inl (hfresh.trans_lt hpos)
      · cases hresult
  | rebased hrequest waits hcursor hexpired rebased =>
      have hfresh := rebased_fresh (waits.standing hstanding) rebased
      rw [(request_eq_ok hrequest).1] at hcursor
      rw [waits.syncState] at hexpired
      have hstale : stale engine world = 1 := by
        unfold stale
        rw [hcursor]
        exact if_pos hexpired
      cases Sum.inl.inj hresult
      left
      change stale engine _ = 0 at hfresh
      exact hfresh.trans_lt (hstale ▸ Nat.one_pos)

/-- Others commit no request and no prune from some round on. -/
def QuietFrom (transport : SyncTransport) (quietFrom : Nat) : Prop :=
  ∀ round, quietFrom ≤ round → (transport.turns round).Only ServerEvent.Quiet

theorem Turn.only_true (turn : Turn) : turn.Only fun _ => True where
  before _ _ := trivial
  pages _ := ⟨fun _ _ => trivial, fun _ _ => trivial⟩

/-- What a run keeps: the bounds of the log, and the newest change as long as the prunes kept it before the run and keep it now. -/
structure InOrder (engine : SyncEngine env σ) (before : Prop) (world : World σ) : Prop where
  standing : LogStanding world.db engine.transport.auth.userId
  tip : before → TipsKept engine.transport.auth.userId world →
    Tip world.db engine.transport.auth.userId

variable {before : Prop}

theorem InOrder.waits {allowed : ServerEvent → Prop} {world next : World σ} (h : InOrder engine before world)
    (waits : Waits env engine.transport.auth.userId allowed world next) : InOrder engine before next where
  standing := waits.standing h.standing
  tip hbefore hkept := waits.tip hkept (h.tip hbefore (waits.tipsKept hkept))

/-- The answered push of a round. -/
theorem InOrder.pushed {allowed : ServerEvent → Prop} {turn : Turn} {body : SyncBody}
    {response : SyncResponse} {pendingCount : Nat} {started middle last : World σ}
    (h : InOrder engine before started) (pushed : Pushed engine allowed turn body started response middle)
    (accepted : Accepted engine response middle last pendingCount) : InOrder engine before last := by
  have hmiddle := h.waits pushed.waits
  have hdb : last.db = pushed.committed.result :=
    accepted.db.trans (congrArg World.db pushed.next_eq)
  have hnext := congrArg World.met pushed.next_eq
  have hmet : last.met = pushed.middle.met := accepted.met.trans hnext
  refine ⟨?_, fun hbefore hkept => ?_⟩
  · rw [hdb]
    exact hmiddle.standing.request pushed.committed (hmiddle.standing.recorded.elim fun _ hpast =>
      ⟨_, hpast.request pushed.committed⟩)
  · rw [hdb]
    refine (hmiddle.tip hbefore ?_).request pushed.committed
    unfold TipsKept at hkept ⊢
    rwa [hmet] at hkept

theorem InOrder.rebased {allowed : ServerEvent → Prop} {middle last : World σ}
    (h : InOrder engine before middle) (rebased : Rebased engine allowed middle last) :
    InOrder engine before last := by
  have hmarked : InOrder engine before { middle with store := rebased.opened.store } := ⟨h.standing, h.tip⟩
  have hlast := (hmarked.waits rebased.waits).waits rebased.rest
  refine ⟨?_, fun hbefore hkept => ?_⟩
  · rw [rebased.db]
    exact hlast.standing
  · rw [rebased.db]
    refine hlast.tip hbefore ?_
    unfold TipsKept at hkept ⊢
    rwa [rebased.met] at hkept

/-- One round. -/
theorem InOrder.round {world next : World σ} (h : InOrder engine before world)
    (hround : engine.round world = .inl next) :
    InOrder engine before next ∧ next.round = world.round + 1 := by
  have houtcome := round_outcome (engine.transport.turns world.round).only_true
  rw [hround] at houtcome
  generalize hresult : (Sum.inl next : World σ ⊕ Ended σ) = result at houtcome
  cases houtcome with
  | failed last hstatus => cases hresult
  | @answered body hrequest started middle last hstarted response pushed pendingCount accepted =>
      split at hresult
      · cases Sum.inl.inj hresult
        have hlast := (h.waits hstarted).pushed pushed accepted
        refine ⟨⟨hlast.standing, hlast.tip⟩, ?_⟩
        change last.round + 1 = _
        rw [accepted.round, congrArg World.round pushed.next_eq]
        change pushed.middle.round + 1 = _
        rw [pushed.waits.round, hstarted.round]
      · cases hresult
  | @rebased body hrequest middle last waits cursor hcursor hexpired rebased =>
      cases Sum.inl.inj hresult
      have hlast := (h.waits waits).rebased rebased
      refine ⟨⟨hlast.standing, hlast.tip⟩, ?_⟩
      change last.round + 1 = _
      rw [rebased.round, waits.round]

/-- A run ends once the others are quiet. -/
theorem run_ends {quietFrom : Nat} (hquiet : QuietFrom engine.transport quietFrom) (world : World σ)
    (h : InOrder engine before world) : engine.run.Ends world := by
  refine engine.run.ends_of_wellFounded (InOrder engine before)
    (InvImage.wf (remaining engine quietFrom) wellFounded_lt) ?_ world h
  intro state next hstate hround
  obtain ⟨hnext, hrounds⟩ := hstate.round hround
  refine ⟨hnext, ?_⟩
  change remaining engine quietFrom next < remaining engine quietFrom state
  simp only [remaining, Prod.Lex.toLex_lt_toLex]
  by_cases hsoon : state.round < quietFrom
  · left
    omega
  · right
    exact ⟨by omega, quiet_progress (hquiet state.round (by omega)) hstate.standing hround⟩

/-! ### What a run delivers -/

/-- The run ended synced, or with an error that is the server's rejections. -/
def Ended.Settled (ended : Ended σ) : Prop :=
  ended.world.state.status = .synced ∨ (ended.world.state.status = .error ∧
    ∃ response, ended.answer = some response ∧ ∃ ack ∈ response.ack, ack.status = .rejected)

/-- Nothing is pending, and the cursor is at the account's last sequence. -/
structure Ended.Delivered (engine : SyncEngine env σ) (ended : Ended σ) : Prop where
  pending : engine.store.pending ended.world.store = []
  cursor : engine.store.cursor ended.world.store =
    ChangeCursor.render (ended.world.db.lastSeq engine.transport.auth.userId)

/-- The last round of a run. -/
theorem InOrder.delivered {world : World σ} {ended : Ended σ} (h : InOrder engine before world)
    (hround : engine.round world = .inr ended)
    (hbefore : before) (hkept : TipsKept engine.transport.auth.userId ended.world)
    (hsettled : ended.Settled) : ended.Delivered engine := by
  have houtcome := round_outcome (engine.transport.turns world.round).only_true
  rw [hround] at houtcome
  generalize hresult : (Sum.inr ended : World σ ⊕ Ended σ) = result at houtcome
  cases houtcome with
  | failed last hstatus =>
      cases Sum.inr.inj hresult
      rcases hsettled with hsynced | ⟨-, response, hanswer, -⟩
      · exact absurd hsynced hstatus
      · cases hanswer
  | @answered body hrequest started middle last hstarted response pushed pendingCount accepted =>
      split at hresult
      · cases hresult
      · rename_i hover
        cases Sum.inr.inj hresult
        obtain ⟨hnone, hdone⟩ := not_or.mp hover
        obtain ⟨reached, arrives⟩ :=
          exists_arrives h.standing hrequest hstarted pushed accepted
        have hlast := (h.waits hstarted).pushed pushed accepted
        have htip := hlast.tip hbefore hkept
        rw [arrives.db] at htip
        have hempty : (engine.store.pending last.store).length = 0 := by
          rw [← accepted.pendingCount]
          omega
        refine ⟨List.length_eq_zero_iff.mp hempty, ?_⟩
        rw [arrives.cursor, arrives.db, arrives.reaches.eq_lastSeq htip
          (ChangeCursor.parse_nonneg arrives.parse) ?_ (by simpa using hdone)]
        rw [pushed.committed.minAvailableSeq_eq]
        exact pushed.committed.accepted.2
  | rebased hrequest waits hcursor hexpired rebased => cases hresult

/-- The server answers the round's push with `CURSOR_EXPIRED`. -/
def CursorExpired (engine : SyncEngine env σ) (world : World σ) : Prop :=
  ∃ body thrown middle, engine.request world.store = .ok body ∧
    engine.sync (engine.transport.turns world.round) body world.begin = (.error thrown, middle) ∧
    thrown.cursorExpired = true

/-- However the bootstrap goes that it brings about, an expired cursor loses no operation. -/
theorem CursorExpired.pending {world : World σ} (h : CursorExpired engine world) :
    engine.store.pending (left (engine.round world)).store = engine.store.pending world.store := by
  obtain ⟨body, thrown, middle, hrequest, hsync, hexpired⟩ := h
  have hbegun : engine.request world.begin.store = .ok body := hrequest
  obtain ⟨hwaits, -⟩ := sync_expired (engine.transport.turns world.round).only_true hsync hexpired
  have hstore : middle.store = world.store := hwaits.store
  have hpending := rebase_pending engine (engine.transport.turns world.round).pages middle
  rw [hstore] at hpending
  unfold SyncEngine.round
  simp only [hbegun, hsync]
  unfold SyncEngine.recover
  rw [if_pos hexpired]
  split
  · rename_i last hrebase
    rw [hrebase] at hpending
    exact hpending
  · rename_i failed last hrebase
    rw [hrebase] at hpending
    exact hpending

end

/-- A run ends once the others are quiet. When it ends with an answer, and the prunes before and during the run kept the account's newest change, nothing is pending and the cursor is at the last sequence. An expired cursor never loses a pending operation. -/
theorem engine_delivers (env : Env) {σ : Type} (engine : SyncEngine env σ) {quietFrom : Nat}
    (hquiet : QuietFrom engine.transport quietFrom) (events : List ServerEvent) (store : σ)
    (state : SyncState) :
    let world := World.start ((server env).run Db.empty events) store state
    engine.run.Ends world ∧
    (∀ rounds ended, engine.run.runFor rounds world = some ended →
      (server env).Along (KeepsTip engine.transport.auth.userId) Db.empty events →
      TipsKept engine.transport.auth.userId ended.world →
      ended.Settled → ended.Delivered engine) ∧
    ∀ reached : World σ, CursorExpired engine reached →
      engine.store.pending (left (engine.round reached)).store =
        engine.store.pending reached.store := by
  intro world
  have hstart : InOrder engine
      ((server env).Along (KeepsTip engine.transport.auth.userId) Db.empty events) world :=
    ⟨logStanding_run env events engine.transport.auth.userId,
      fun hbefore _ => tip_run env events hbefore⟩
  refine ⟨run_ends hquiet world hstart, fun rounds ended hrun hbefore hkept hsettled => ?_,
    fun _ hreached => hreached.pending⟩
  exact engine.run.result_of_invariant (InOrder engine _)
    (fun ended => TipsKept engine.transport.auth.userId ended.world → ended.Settled →
      ended.Delivered engine)
    (fun _ _ hworld hround => (hworld.round hround).1)
    (fun _ _ hworld hround hkept hsettled => hworld.delivered hround hbefore hkept hsettled)
    rounds world ended hstart hrun hkept hsettled

/-! ### A store in memory -/

/-- A client that keeps its operations and its cursor in memory. -/
structure MemoryStore where
  deviceId : String
  cursor : String
  pending : List SyncOp
  deriving DecidableEq, Repr

/-- Only operations whose ids are spelled as the server spells them are pushed. -/
def MemoryStore.spelled (env : Env) (state : MemoryStore) : List SyncOp :=
  state.pending.filter fun op => (env.uuid.parse op.opId).all fun id => env.uuid.render id == op.opId

def memoryStore (env : Env) : SyncStore env MemoryStore where
  getDeviceId state := .ok state.deviceId
  getCursor state := .ok state.cursor
  getPendingMutations limit state := .ok ((state.spelled env).take limit)
  getPendingCount state := .ok (state.spelled env).length
  applyServerResult acks _ nextCursor state := .ok { state with
    cursor := nextCursor
    pending := state.pending.filter fun op => !acknowledged env acks op }
  replaceFromBootstrap page state := .ok { state with cursor := page.snapshotCursor }
  markBootstrapRequired state := .ok state
  pending := MemoryStore.spelled env
  cursor state := state.cursor
  canonical op hop id hid := by
    have hspelled := (List.mem_filter.mp hop).2
    rw [hid] at hspelled
    exact beq_iff_eq.mp hspelled
  reads_cursor h := (Except.ok.inj h).symm
  lists h := Except.ok.inj h ▸ List.take_subset _ _
  lists_some h hlimit hsome := by
    rw [← Except.ok.inj h, ne_eq, List.take_eq_nil_iff, not_or]
    exact ⟨by omega, hsome⟩
  counts h := (Except.ok.inj h).symm
  applies h := by
    rw [← Except.ok.inj h]
    exact ⟨rfl, List.filter_comm ..⟩
  replaces h := by
    rw [← Except.ok.inj h]
    exact ⟨rfl, rfl⟩
  marks h := by
    rw [← Except.ok.inj h]
    exact ⟨rfl, rfl⟩

/-- Every request is answered, and nobody else is there. -/
def alone : Turn where
  before := []
  clock := ⟨⟨4000⟩, ⟨4000⟩⟩
  statusText := ""
  delivery := .answered
  pages _ := {
    before := []
    clock := ⟨4000⟩
    between := []
    now := 0
    expiresAt := 900
    statusText := ""
    delivery := .answered }

theorem quietFrom_alone (auth : AuthUser) :
    QuietFrom { auth := auth, turns := fun _ => alone } 0 := by
  intro round _
  exact ⟨by simp [alone], fun _ => ⟨by simp [alone], by simp [alone]⟩⟩

/-- The first of two devices, which has read nothing yet. -/
def firstDevice : SyncEngine Env.utc MemoryStore where
  transport := { auth := ⟨⟨1⟩, ⟨3⟩⟩, turns := fun _ => alone }
  store := memoryStore Env.utc
  batchSize := 100

/-- The world in which it syncs, once both devices have pushed and a prune has followed. -/
def afterPrune (cutoff : Instant) : World MemoryStore :=
  .start ((server Env.utc).run Db.empty (twoDevices cutoff))
    { deviceId := "00000000-0000-0000-0000-000000000003", cursor := "0", pending := [] } .initial

/-- With both changes still in the log the device reads up to the second. -/
theorem engine_delivers_both : ∃ ended,
    firstDevice.run.runFor 1 (afterPrune ⟨1000⟩) = some ended ∧ ended.Delivered firstDevice := by
  have hends : ((firstDevice.run.runFor 1 (afterPrune ⟨1000⟩)).map fun ended =>
      (ended.world.state.status, ended.world.met.length)) = some (.synced, 0) := by
    decide
  obtain ⟨ended, hrun, hfacts⟩ := Option.map_eq_some_iff.mp hends
  obtain ⟨hsynced, hmet⟩ := Prod.mk.inj hfacts
  have hkept : TipsKept ⟨1⟩ ended.world := by
    intro step hstep
    rw [List.length_eq_zero_iff.mp hmet] at hstep
    cases hstep
  have hbefore : (server Env.utc).Along (KeepsTip ⟨1⟩) Db.empty (twoDevices ⟨1000⟩) := by
    decide
  exact ⟨ended, hrun, (engine_delivers Env.utc firstDevice (quietFrom_alone _) (twoDevices ⟨1000⟩)
    _ _).2.1 1 ended hrun hbefore hkept (.inl hsynced)⟩

/-- A prune that deleted the second change and kept the first leaves the device synced before the last sequence. -/
theorem synced_before_last_sequence :
    ¬ ∀ (env : Env) (σ : Type) (engine : SyncEngine env σ) (quietFrom : Nat),
      QuietFrom engine.transport quietFrom →
      ∀ (events : List ServerEvent) (store : σ) (state : SyncState),
        let world := World.start ((server env).run Db.empty events) store state
        engine.run.Ends world ∧
        (∀ rounds ended, engine.run.runFor rounds world = some ended →
          ended.Settled → ended.Delivered engine) ∧
        ∀ reached : World σ, CursorExpired engine reached →
          engine.store.pending (left (engine.round reached)).store =
            engine.store.pending reached.store := by
  intro hall
  have hends : ((firstDevice.run.runFor 1 (afterPrune ⟨2000⟩)).map fun ended =>
      (ended.world.state.status, ended.world.store.cursor, ended.world.db.lastSeq ⟨1⟩)) =
        some (.synced, "1", 2) := by
    decide
  obtain ⟨ended, hrun, hfacts⟩ := Option.map_eq_some_iff.mp hends
  obtain ⟨hsynced, hplace⟩ := Prod.mk.inj hfacts
  obtain ⟨hcursor, hlast⟩ := Prod.mk.inj hplace
  have hdelivered := (hall Env.utc MemoryStore firstDevice 0 (quietFrom_alone _) (twoDevices ⟨2000⟩)
    _ _).2.1 1 ended hrun (.inl hsynced)
  have hsame : ended.world.store.cursor =
      ChangeCursor.render (ended.world.db.lastSeq ⟨1⟩) := hdelivered.cursor
  rw [hcursor, hlast] at hsame
  revert hsame
  decide

end ShishiTodo.Sync
