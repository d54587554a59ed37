import ShishiTodo.Web.Sequences
import ShishiTodo.Server.ExactlyOnce

/-!
# No edit is swallowed

The server knows an operation by its device and its number, and answers an old number without looking at the operation. `Numbers` is what the repository keeps of its own numbers, `Decisions` what the server has made of them; together they say that no edit is answered for another one.
-/

namespace ShishiTodo.Web

open Lib Native Sync

namespace World

variable (world : World)

theorem round_of_request {env : Env} {world : World} {index : Nat} {body : SyncBody}
    {request : SyncRequest} (h : world.request env index = some (body, request)) :
    ∃ answer, world.rounds[index]? = some (.sent body answer) := by
  rw [World.request] at h
  split at h
  · rename_i found answer hindex
    obtain ⟨read, -, heq⟩ := Option.map_eq_some_iff.mp h
    cases heq
    exact ⟨answer, hindex⟩
  · cases h

/-- The server device of one of the repository's ids. -/
def Owns (env : Env) (deviceId : Uuid) : Prop := ∃ id ∈ world.own, env.uuid.parse id = some deviceId

end World

/-- No two operations were sent with one number, and no operation was answered as processed that the server had not decided before. -/
structure NoneSwallowed (env : Env) (world : World) (past : List OpStep) : Prop where
  sent : Unambiguous SyncOp.clientSeq world.sent
  decided : ∀ before step after, past = before ++ step :: after →
    world.Owns env step.batch.auth.deviceId →
    ∀ ack, step.ack = some ack → ack.status = .alreadyProcessed →
      ∃ earlier ∈ before, earlier.processed = true ∧
        earlier.batch.auth.deviceId = step.batch.auth.deviceId ∧ earlier.mutation = step.mutation

/-! ### The repository's numbers -/

/-- A round uses ids of the repository, and what it sent is in the record. -/
def RoundOk (own : List String) (sent : List (String × SyncOp)) : Round → Prop
  | .started deviceId => deviceId ∈ own
  | .holding deviceId _ _ => deviceId ∈ own
  | .sent body _ => body.deviceId ∈ own ∧ ∀ op ∈ body.ops, (body.deviceId, op) ∈ sent
  | _ => True

theorem RoundOk.mono {own moreOwn : List String} {sent moreSent : List (String × SyncOp)}
    {round : Round} (h : RoundOk own sent round) (hown : own ⊆ moreOwn) (hsent : sent ⊆ moreSent) :
    RoundOk moreOwn moreSent round := by
  cases round with
  | started deviceId => exact hown h
  | holding deviceId ops limit => exact hown h
  | sent body answer => exact ⟨hown h.1, fun op hop => hsent (h.2 op hop)⟩
  | answered response acknowledged => trivial
  | finished => trivial

structure Numbers (world : World) : Prop where
  unambiguous : Unambiguous SyncOp.clientSeq world.known
  device : world.client.kv.deviceId ∈ world.own
  claims : ∀ claim ∈ world.claimed, claim.1 ∈ world.own
  rounds : ∀ round ∈ world.rounds, RoundOk world.own world.sent round

theorem numbers_init (deviceId : String) (rows : Tables) : Numbers (.init deviceId rows) where
  unambiguous := by
    intro owner left right hleft
    cases hleft
  device := List.mem_singleton.mpr rfl
  claims := by
    intro claim hclaim
    cases hclaim
  rounds := by
    intro round hround
    cases hround

namespace Numbers

variable {world : World}

/-- A transaction that puts nothing new into the outbox. -/
theorem transact (h : Numbers world) {next : Db} (hdevice : next.kv.deviceId = world.client.kv.deviceId)
    (hops : outboxOps next.mutations ⊆ outboxOps world.client.mutations) :
    Numbers { world with client := next } where
  unambiguous := by
    apply h.unambiguous.mono
    exact List.append_subset.mpr ⟨List.subset_append_left _ _,
      List.subset_append_of_subset_right _ (queued_subset hdevice hops)⟩
  device := hdevice ▸ h.device
  claims := h.claims
  rounds := h.rounds

theorem rollBack (h : Numbers world) {result : StoreResult Db}
    (hok : ∀ next, result = .ok next → Numbers { world with client := next }) :
    Numbers { world with client := orRollBack world.client result } := by
  cases result with
  | error error => exact h
  | ok next => exact hok next rfl

theorem mem_setRound_claimed {index : Nat} {round : Round} {claim : String × SyncOp}
    (h : claim ∈ (world.setRound index round).claimed) :
    claim ∈ world.claimed ∨ claim ∈ round.held := by
  rcases List.mem_append.mp h with hsent | hheld
  · exact .inl (List.mem_append_left _ hsent)
  · obtain ⟨other, hother, hclaim⟩ := List.mem_flatMap.mp hheld
    rcases List.mem_or_eq_of_mem_set hother with hold | rfl
    · exact .inl (List.mem_append_right _ (List.mem_flatMap.mpr ⟨other, hold, hclaim⟩))
    · exact .inr hclaim

theorem setRound (h : Numbers world) (index : Nat) {round : Round}
    (hround : RoundOk world.own world.sent round) (howner : ∀ claim ∈ round.held, claim.1 ∈ world.own)
    (hknown : Unambiguous SyncOp.clientSeq (world.known ++ round.held)) :
    Numbers (world.setRound index round) where
  unambiguous := by
    apply hknown.mono
    intro claim hclaim
    rcases List.mem_append.mp hclaim with hclaimed | hqueued
    · rcases mem_setRound_claimed hclaimed with hold | hnew
      · exact List.mem_append_left _ (List.mem_append_left _ hold)
      · exact List.mem_append_right _ hnew
    · exact List.mem_append_left _ (List.mem_append_right _ hqueued)
  device := h.device
  claims := by
    intro claim hclaim
    rcases mem_setRound_claimed hclaim with hold | hnew
    · exact h.claims claim hold
    · exact howner claim hnew
  rounds := by
    intro other hother
    rcases List.mem_or_eq_of_mem_set hother with hold | rfl
    · exact h.rounds other hold
    · exact hround

/-- A round that holds nothing. -/
theorem setRound_empty (h : Numbers world) (index : Nat) {round : Round}
    (hround : RoundOk world.own world.sent round) (hheld : round.held = []) :
    Numbers (world.setRound index round) := by
  apply h.setRound index hround
  · rw [hheld]
    exact fun claim hclaim => nomatch hclaim
  · rw [hheld, List.append_nil]
    exact h.unambiguous

theorem begin (h : Numbers world) : Numbers { world with
    rounds := world.rounds ++ [.started world.client.kv.deviceId] } := by
  have hclaimed : World.claimed { world with
      rounds := world.rounds ++ [.started world.client.kv.deviceId] } = world.claimed := by
    rw [World.claimed, List.flatMap_append]
    simp [World.claimed, Round.held]
  refine ⟨?_, h.device, ?_, ?_⟩
  · rw [World.known, hclaimed]
    exact h.unambiguous
  · rw [hclaimed]
    exact h.claims
  · intro round hround
    rcases List.mem_append.mp hround with hold | hnew
    · exact h.rounds round hold
    · cases List.mem_singleton.mp hnew
      exact h.device

/-- The pending operations are known under the current device id already. Under another one their numbers must be free. -/
theorem getPending (h : Numbers world) {index limit : Nat} {deviceId : String}
    (hindex : world.rounds[index]? = some (.started deviceId))
    (hfree : deviceId = world.client.kv.deviceId ∨ ∀ op ∈ syncGetPending world.client limit,
      ¬ Taken SyncOp.clientSeq world.known deviceId op.clientSeq) :
    Numbers (world.setRound index
      (.holding deviceId (syncGetPending world.client limit) limit)) := by
  have hown : deviceId ∈ world.own := h.rounds _ (List.mem_of_getElem? hindex)
  apply h.setRound index
  · exact hown
  · intro claim hclaim
    obtain ⟨op, -, rfl⟩ := List.mem_map.mp hclaim
    exact hown
  · have hpending : (syncGetPending world.client limit).map
        (fun op => (world.client.kv.deviceId, op)) ⊆ world.known := by
      intro claim hclaim
      obtain ⟨op, hop, rfl⟩ := List.mem_map.mp hclaim
      exact List.mem_append_right _ (List.mem_map_of_mem (mem_syncGetPending hop))
    rcases hfree with rfl | hfree
    · exact h.unambiguous.mono (List.append_subset.mpr ⟨List.Subset.refl _, hpending⟩)
    · refine h.unambiguous.append ((h.unambiguous.mono hpending).handOver deviceId) ?_
      intro claim hclaim
      obtain ⟨op, hop, rfl⟩ := List.mem_map.mp hclaim
      exact hfree op hop

/-- What a round holds becomes what it sent. -/
theorem send (h : Numbers world) {index limit : Nat} {deviceId : String} {ops : List SyncOp}
    (hindex : world.rounds[index]? = some (.holding deviceId ops limit)) :
    Numbers (world.send index deviceId ops limit) := by
  have hmem := List.mem_of_getElem? hindex
  have hheld : ops.map (fun op => (deviceId, op)) ⊆ world.claimed := by
    intro claim hclaim
    exact List.mem_append_right _ (List.mem_flatMap.mpr ⟨_, hmem, hclaim⟩)
  have hclaimed : (world.send index deviceId ops limit).claimed ⊆ world.claimed := by
    intro claim hclaim
    rcases List.mem_append.mp hclaim with hsent | hrounds
    · rcases List.mem_append.mp hsent with hold | hnew
      · exact List.mem_append_left _ hold
      · exact hheld hnew
    · obtain ⟨round, hround, hclaim⟩ := List.mem_flatMap.mp hrounds
      rcases List.mem_or_eq_of_mem_set hround with hold | rfl
      · exact List.mem_append_right _ (List.mem_flatMap.mpr ⟨round, hold, hclaim⟩)
      · cases hclaim
  refine ⟨h.unambiguous.mono ?_, h.device, fun claim hclaim => h.claims claim (hclaimed hclaim), ?_⟩
  · exact List.append_subset.mpr ⟨List.subset_append_of_subset_left _ hclaimed,
      List.subset_append_right _ _⟩
  · intro round hround
    rcases List.mem_or_eq_of_mem_set hround with hold | rfl
    · exact (h.rounds round hold).mono (List.Subset.refl _) (List.subset_append_left _ _)
    · refine ⟨h.rounds _ hmem, fun op hop => ?_⟩
      exact List.mem_append_right _ (List.mem_map_of_mem hop)

/-- The rows of the outbox go on under an id that nothing was sent with. -/
theorem syncRotateDevice (h : Numbers world) {deviceId : String} (hnew : deviceId ∉ world.own) :
    Numbers { world with
      client := Web.syncRotateDevice world.client deviceId
      own := world.own ++ [deviceId] } := by
  have hops : outboxOps (Web.syncRotateDevice world.client deviceId).mutations =
      outboxOps world.client.mutations := outboxOps_rewriteOutbox _ fun row => rfl
  have hqueued : (Web.syncRotateDevice world.client deviceId).queued =
      (outboxOps world.client.mutations).map fun op => (deviceId, op) := by
    rw [Db.queued, hops]
    rfl
  refine ⟨?_, List.mem_append_right _ List.mem_cons_self, ?_, ?_⟩
  · show Unambiguous SyncOp.clientSeq
      (world.claimed ++ (Web.syncRotateDevice world.client deviceId).queued)
    rw [hqueued]
    refine (h.unambiguous.mono (List.subset_append_left _ _)).append ?_ ?_
    · exact Unambiguous.handOver (h.unambiguous.mono (List.subset_append_right _ _)) deviceId
    · intro claim hclaim
      obtain ⟨op, -, rfl⟩ := List.mem_map.mp hclaim
      rintro ⟨item, hitem, howner, -⟩
      exact hnew ((show item.1 = deviceId from howner) ▸ h.claims item hitem)
  · exact fun claim hclaim => List.mem_append_left _ (h.claims claim hclaim)
  · intro round hround
    exact (h.rounds round hround).mono (List.subset_append_left _ _) (List.Subset.refl _)

theorem localWrite (h : Numbers world) (rows : Tables) (edits : List Edit)
    (hfree : world.NumbersFree (.client (.localWrite rows edits))) :
    Numbers { world with client := Web.localWrite world.client rows edits } := by
  have hdevice : ∀ (edits : List Edit) (db : Db),
      (edits.foldl appendMutation db).kv.deviceId = db.kv.deviceId := by
    intro edits
    induction edits with
    | nil => exact fun db => rfl
    | cons edit rest ih => exact fun db => ih (appendMutation db edit)
  refine ⟨?_, ?_, h.claims, h.rounds⟩
  · exact localWrite_unambiguous edits { world.client with rows := rows } h.unambiguous hfree
  · show (edits.foldl appendMutation { world.client with rows := rows }).kv.deviceId ∈ world.own
    rw [hdevice]
    exact h.device

/-- The outbox is filled anew, with the operations the merge uploads. -/
theorem initialized (h : Numbers world) (rows : Tables) {uploads : List OutboxRow}
    (snapshot : CloudSnapshot) (accountEmail : String)
    (hdistinct : ∀ left ∈ uploads, ∀ right ∈ uploads, left.clientSeq = right.clientSeq → left = right)
    (hfree : ∀ row ∈ uploads,
      ¬ Taken SyncOp.clientSeq world.claimed world.client.kv.deviceId row.clientSeq) :
    Numbers { world with
      client := Web.initialized world.client rows uploads snapshot accountEmail } := by
  refine ⟨?_, h.device, h.claims, h.rounds⟩
  have hqueued := queued_initialized world.client rows uploads snapshot accountEmail
  refine Unambiguous.mono ?_ (List.append_subset.mpr ⟨List.subset_append_left _ _,
    List.subset_append_of_subset_right world.claimed hqueued⟩)
  refine (h.unambiguous.mono (List.subset_append_left _ _)).append ?_ ?_
  · intro owner left right hleft hright hsame
    obtain ⟨op, hop, heq⟩ := List.mem_map.mp hleft
    obtain ⟨first, hfirst, rfl⟩ := List.mem_map.mp hop
    cases heq
    obtain ⟨op, hop, heq⟩ := List.mem_map.mp hright
    obtain ⟨second, hsecond, rfl⟩ := List.mem_map.mp hop
    cases heq
    rw [hdistinct first hfirst second hsecond hsame]
  · intro claim hclaim
    obtain ⟨op, hop, rfl⟩ := List.mem_map.mp hclaim
    obtain ⟨row, hrow, rfl⟩ := List.mem_map.mp hop
    exact hfree row hrow

theorem syncInitializeCloud (h : Numbers world) (now : String) (opIds : Nat → String)
    (snapshot : CloudSnapshot) (mode : CloudMergeMode) (accountEmail : String)
    (sessionId : Option String)
    (hfree : world.NumbersFree
      (.client (.syncInitializeCloud now opIds snapshot mode accountEmail sessionId))) :
    Numbers { world with client := (orRollBack world.client
      ((Web.syncInitializeCloud world.client now opIds snapshot mode accountEmail sessionId).map
        Prod.snd)) } := by
  apply h.rollBack
  intro next hnext
  obtain ⟨result, hresult, rfl⟩ := map_eq_ok_iff.mp hnext
  obtain ⟨_, -, hdone⟩ := bind_eq_ok_iff.mp hresult
  cases mode with
  | cloud =>
      cases Except.ok.inj hdone
      exact h.initialized _ snapshot accountEmail (fun left hleft => nomatch hleft)
        (fun row hrow => nomatch hrow)
  | merge =>
      cases Except.ok.inj hdone
      exact h.initialized _ snapshot accountEmail (uploads_unambiguous _ _ _ _) hfree

theorem cleared (h : Numbers world) {next : Db} (hdevice : next.kv.deviceId = world.client.kv.deviceId)
    (hempty : next.mutations = ∅) : Numbers { world with client := next } := by
  apply h.transact hdevice
  rw [hempty]
  exact List.nil_subset _

theorem importData (h : Numbers world) (bundle : ExportBundle) (mode : ImportMode) :
    Numbers { world with client := orRollBack world.client (Web.importData world.client bundle mode) } := by
  apply h.rollBack
  intro next hnext
  simp only [Web.importData, bind_eq_ok_iff, refuseIf_eq_ok_iff] at hnext
  obtain ⟨_, -, _, -, _, -, _, -, hdone⟩ := hnext
  cases Except.ok.inj hdone
  exact h.cleared rfl rfl

theorem syncReplaceSnapshot (h : Numbers world) (snapshot : CloudSnapshot) (rows : Tables)
    (sessionId : Option String) : Numbers { world with client := (orRollBack world.client
      (Web.syncReplaceSnapshot world.client snapshot rows sessionId)) } := by
  apply h.rollBack
  intro next hnext
  obtain ⟨_, -, hdone⟩ := bind_eq_ok_iff.mp hnext
  cases Except.ok.inj hdone
  exact h.transact rfl (List.Subset.refl _)

theorem syncApplyResult (h : Numbers world) (env : Env) (response : SyncResponse)
    (acknowledged : List String) (rows : Tables) (shadow : Table RowKey ShadowRow)
    (sessionId : Option String) : Numbers { world with client := (orRollBack world.client
      (Web.syncApplyResult env world.client response acknowledged rows shadow sessionId)) } := by
  apply h.rollBack
  intro next hnext
  obtain ⟨_, -, hdone⟩ := bind_eq_ok_iff.mp hnext
  cases Except.ok.inj hdone
  exact h.transact rfl (outboxOps_applyAcks env acknowledged response.ack _)

theorem syncSetEnabled (h : Numbers world) (enabled : Bool) :
    Numbers { world with client := Web.syncSetEnabled world.client enabled } := by
  have hops : outboxOps (Web.syncSetEnabled world.client enabled).mutations =
      outboxOps world.client.mutations := by
    apply outboxOps_rewriteOutbox
    intro row
    split <;> split <;> rfl
  refine h.transact ?_ (hops ▸ List.Subset.refl _)
  rfl

/-- A call of the repository keeps the numbers, when it draws a new device id and gives numbers that are free. -/
theorem call (h : Numbers world) (env : Env) (call : ClientCall)
    (hdrawn : world.Drawn env (.client call)) (hfree : world.NumbersFree (.client call)) :
    Numbers { world with
      client := call.run world.client
      own := world.own ++ call.drawn } := by
  have hsame : call.drawn = [] → Numbers { world with client := call.run world.client } →
      Numbers { world with
        client := call.run world.client
        own := world.own ++ call.drawn } := by
    intro hnone hnext
    rw [hnone, List.append_nil]
    exact hnext
  cases call with
  | localWrite rows edits => exact hsame rfl (h.localWrite rows edits hfree)
  | importData bundle mode => exact hsame rfl (h.importData bundle mode)
  | clearAll => exact hsame rfl (h.cleared rfl rfl)
  | syncSetSession sessionId => exact hsame rfl (h.transact rfl (List.Subset.refl _))
  | syncClearSession expectedToken =>
      refine hsame rfl ?_
      simp only [ClientCall.run, syncClearSession]
      split
      · exact h.transact rfl (List.Subset.refl _)
      · exact h
  | syncRotateDevice deviceId =>
      apply h.syncRotateDevice
      intro hown
      obtain ⟨drawn, hparse, -, hnone⟩ := hdrawn
      exact hnone deviceId hown (Option.mem_toList.mp hparse)
  | syncSetEnabled enabled => exact hsame rfl (h.syncSetEnabled enabled)
  | syncMarkBootstrapRequired => exact hsame rfl (h.transact rfl (List.Subset.refl _))
  | syncClearAccountBinding => exact hsame rfl (h.cleared rfl rfl)
  | deleteRejected opIds rows => exact hsame rfl (h.transact rfl (outboxOps_select _ _))
  | syncReplaceSnapshot snapshot rows sessionId =>
      exact hsame rfl (h.syncReplaceSnapshot snapshot rows sessionId)
  | syncInitializeCloud now opIds snapshot mode accountEmail sessionId =>
      exact hsame rfl (h.syncInitializeCloud now opIds snapshot mode accountEmail sessionId hfree)

theorem step (h : Numbers world) (env : Env) (event : Event) (hdrawn : world.Drawn env event)
    (hfree : world.NumbersFree event) : Numbers (world.step env event) := by
  cases event with
  | client call => exact h.call env call hdrawn hfree
  | begin => exact h.begin
  | getPending index limit =>
      simp only [World.step]
      split
      · rename_i deviceId hindex
        refine h.getPending hindex ?_
        simpa [World.NumbersFree, hindex] using hfree
      · exact h
  | send index =>
      simp only [World.step]
      split
      · rename_i deviceId ops limit hindex
        exact h.send hindex
      · exact h
  | serve index clock auth =>
      simp only [World.step]
      split
      · rename_i body request hrequest
        obtain ⟨answer, hindex⟩ := World.round_of_request hrequest
        have hround := h.rounds _ (List.mem_of_getElem? hindex)
        have hset : Numbers (world.setRound index (.sent body
            (serveSync env clock auth request world.server).1.toOption)) :=
          h.setRound_empty index hround rfl
        exact ⟨hset.unambiguous, hset.device, hset.claims, hset.rounds⟩
      · exact h
  | receive index =>
      simp only [World.step]
      split
      · apply h.setRound_empty index _ rfl
        trivial
      · exact h
  | applyResult index rows shadow sessionId =>
      simp only [World.step]
      split
      · have hfinished : Numbers (world.setRound index .finished) := h.setRound_empty index trivial rfl
        exact hfinished.syncApplyResult env _ _ rows shadow sessionId
      · exact h
  | giveUp index => exact h.setRound_empty index trivial rfl
  | server event => exact ⟨h.unambiguous, h.device, h.claims, h.rounds⟩

end Numbers

/-! ### The devices -/

/-- The repository's ids name different devices, and none of another client's. -/
structure Devices (env : Env) (world : World) : Prop where
  ids : ∀ left ∈ world.own, ∀ right ∈ world.own, ∀ deviceId, env.uuid.parse left = some deviceId →
    env.uuid.parse right = some deviceId → left = right
  apart : ∀ deviceId ∈ world.others, ¬ world.Owns env deviceId

/-- The ids an event adds to the repository's. -/
def Event.drawn : Event → List String
  | .client call => call.drawn
  | _ => []

/-- The devices an event adds to the others. -/
def Event.otherDevices : Event → List Uuid
  | .server event => World.otherDevice event
  | _ => []

section

variable (env : Env) (world : World) (event : Event)

theorem own_step : (world.step env event).own = world.own ++ event.drawn := by
  cases event with
  | client call => rfl
  | begin => exact (List.append_nil _).symm
  | giveUp index => exact (List.append_nil _).symm
  | server event => exact (List.append_nil _).symm
  | _ =>
      simp only [World.step, Event.drawn, List.append_nil]
      split <;> rfl

theorem others_step : (world.step env event).others = world.others ++ event.otherDevices := by
  cases event with
  | client call => exact (List.append_nil _).symm
  | begin => exact (List.append_nil _).symm
  | giveUp index => exact (List.append_nil _).symm
  | server event => rfl
  | _ =>
      simp only [World.step, Event.otherDevices, List.append_nil]
      split <;> rfl

theorem sent_step : world.sent ⊆ (world.step env event).sent := by
  cases event with
  | send index =>
      simp only [World.step]
      split
      · exact List.subset_append_left _ _
      · exact List.Subset.refl _
  | client call => exact List.Subset.refl _
  | begin => exact List.Subset.refl _
  | giveUp index => exact List.Subset.refl _
  | server event => exact List.Subset.refl _
  | _ =>
      simp only [World.step]
      split <;> exact List.Subset.refl _

/-- A drawn id is a device that nobody has used. -/
theorem drawn_new {env : Env} {world : World} {event : Event} (hdrawn : world.Drawn env event)
    {id : String} (hid : id ∈ event.drawn) : ∃ deviceId, env.uuid.parse id = some deviceId ∧
      deviceId ∉ world.others ∧ ¬ world.Owns env deviceId := by
  cases event with
  | client call =>
      cases call with
      | syncRotateDevice deviceId =>
          cases List.mem_singleton.mp hid
          obtain ⟨drawn, hparse, hothers, hown⟩ := hdrawn
          refine ⟨drawn, Option.mem_toList.mp hparse, hothers, ?_⟩
          rintro ⟨other, hother, hsame⟩
          exact hown other hother hsame
      | _ => cases hid
  | _ => cases hid

/-- A device of the repository after a step is one it had, or a new one. -/
theorem owns_step {deviceId : Uuid} (h : (world.step env event).Owns env deviceId) :
    world.Owns env deviceId ∨ ∃ id ∈ event.drawn, env.uuid.parse id = some deviceId := by
  obtain ⟨id, hid, hparse⟩ := h
  rw [own_step, List.mem_append] at hid
  rcases hid with hold | hnew
  · exact .inl ⟨id, hold, hparse⟩
  · exact .inr ⟨id, hnew, hparse⟩

end

theorem devices_init (env : Env) (deviceId : String) (rows : Tables) :
    Devices env (.init deviceId rows) where
  ids := by
    intro left hleft right hright _ _ _
    rw [List.mem_singleton.mp hleft, List.mem_singleton.mp hright]
  apart := by
    intro deviceId hdevice
    cases hdevice

theorem Devices.step {env : Env} {world : World} (h : Devices env world) (event : Event)
    (hdrawn : world.Drawn env event) : Devices env (world.step env event) where
  ids := by
    have hnew : ∀ old ∈ world.own, ∀ new ∈ event.drawn, ∀ deviceId,
        env.uuid.parse old = some deviceId → env.uuid.parse new ≠ some deviceId := by
      intro old hold new hnew deviceId hparse hsame
      obtain ⟨drawn, hparsed, -, hnone⟩ := drawn_new hdrawn hnew
      cases hparsed.symm.trans hsame
      exact hnone ⟨old, hold, hparse⟩
    have hone : ∀ left ∈ event.drawn, ∀ right ∈ event.drawn, left = right := by
      intro left hleft right hright
      cases event with
      | client call =>
          cases call with
          | syncRotateDevice deviceId =>
              exact (List.mem_singleton.mp hleft).trans (List.mem_singleton.mp hright).symm
          | _ => cases hleft
      | _ => cases hleft
    rw [own_step]
    intro left hleft right hright deviceId hparse hsame
    rcases List.mem_append.mp hleft with hleft | hleft <;>
      rcases List.mem_append.mp hright with hright | hright
    · exact h.ids left hleft right hright deviceId hparse hsame
    · exact absurd hsame (hnew left hleft right hright deviceId hparse)
    · exact absurd hparse (hnew right hright left hleft deviceId hsame)
    · exact hone left hleft right hright
  apart := by
    intro deviceId hdevice howns
    rw [others_step, List.mem_append] at hdevice
    rcases owns_step env world event howns with hold | ⟨id, hid, hparse⟩
    · rcases hdevice with hother | hother
      · exact h.apart deviceId hother hold
      · obtain ⟨id, hid, hparse⟩ := hold
        cases event with
        | server event =>
            cases event with
            | request clock auth body =>
                cases List.mem_singleton.mp hother
                exact hdrawn id hid hparse
            | _ => cases hother
        | _ => cases hother
    · obtain ⟨drawn, hparsed, hnone, -⟩ := drawn_new hdrawn hid
      cases hparsed.symm.trans hparse
      rcases hdevice with hother | hother
      · exact hnone hother
      · cases event with
        | server event => cases hid
        | _ => cases hother

/-! ### The server's decisions -/

/-- An iteration about an operation that the repository sent. -/
def Carried (env : Env) (world : World) (step : OpStep) : Prop :=
  ∃ id ∈ world.own, env.uuid.parse id = some step.batch.auth.deviceId ∧
    ∃ op, (id, op) ∈ world.sent ∧ op.read env = some step.mutation

structure Decisions (env : Env) (world : World) (past : List OpStep) : Prop where
  history : History world.server past
  steps : ∀ step ∈ past, step.batch.auth.deviceId ∈ world.others ∨ Carried env world step
  decided : ∀ before step after, past = before ++ step :: after →
    world.Owns env step.batch.auth.deviceId →
    ∀ ack, step.ack = some ack → ack.status = .alreadyProcessed →
      ∃ earlier ∈ before, earlier.processed = true ∧
        earlier.batch.auth.deviceId = step.batch.auth.deviceId ∧ earlier.mutation = step.mutation

theorem decisions_init (env : Env) (deviceId : String) (rows : Tables) :
    Decisions env (.init deviceId rows) [] where
  history := .empty
  steps := by simp
  decided := by simp

theorem seq_le_of_alreadyProcessed {env : Env} {batch : Batch} {state next : LoopState}
    {mutation : Mutation} (h : OpOutcome env batch state mutation next) {ack : Ack}
    (hack : next.acks.getLast? = some ack) (hstatus : ack.status = .alreadyProcessed) :
    mutation.clientSeq ≤ batch.lastClientSeq := by
  cases h with
  | known receipt hreceipt hsame =>
      simp only [List.getLast?_concat, Option.some.injEq] at hack
      subst hack
      unfold receiptAck at hstatus
      cases hkind : receipt.status <;> simp [hkind] at hstatus
  | old hreceipt hseq => exact hseq
  | applied patch entities hfresh happly =>
      simp only [appliedState, List.getLast?_concat, Option.some.injEq] at hack
      subst hack
      cases hstatus
  | rejected errorCode hfresh =>
      simp only [rejectedState, List.getLast?_concat, Option.some.injEq] at hack
      subst hack
      cases hstatus

theorem seq_pos_of_validateOps {ops : List Mutation} :
    ∀ {seq : Int} {seen : List Uuid}, validateOps ops seq seen = .ok () →
      ∀ op ∈ ops, 0 < op.clientSeq := by
  induction ops with
  | nil => simp
  | cons first rest ih =>
      intro seq seen h op hop
      rw [validateOps, ite_error_eq_ok_iff, ite_error_eq_ok_iff, ite_error_eq_ok_iff] at h
      obtain ⟨hpos, -, -, hrest⟩ := h
      rcases List.mem_cons.mp hop with rfl | hmem
      · omega
      · exact ih hrest op hmem

theorem clientSeq_of_read {env : Env} {op : SyncOp} {mutation : Mutation}
    (h : op.read env = some mutation) : mutation.clientSeq = op.clientSeq := by
  obtain ⟨opId, -, hrest⟩ := Option.bind_eq_some_iff.mp h
  obtain ⟨entityId, -, hdone⟩ := Option.bind_eq_some_iff.mp hrest
  cases hdone
  rfl

theorem batch_of_requestSteps {env : Env} {clock : Clock} {auth : AuthUser} {body : SyncRequest}
    {db : ShishiTodo.Db} : ∀ step ∈ requestSteps env clock auth body db,
      ∃ committed : Committed env clock auth body db, step.batch = committed.batch ∧
        step.mutation ∈ body.ops ∧
        OpOutcome env step.batch step.before step.mutation step.after := by
  intro step hstep
  cases hsync : sync env clock auth body db with
  | error error =>
      rw [requestSteps, hsync] at hstep
      cases hstep
  | ok answer =>
      obtain ⟨committed, hnext, hresponse⟩ := sync_eq_ok hsync
      have hok : sync env clock auth body db = .ok (committed.response, committed.result) := by
        rw [hsync, ← hnext, ← hresponse]
      rw [committed.requestSteps_eq hok] at hstep
      exact ⟨committed, committed.loopHistory.batches step hstep, mutation_mem_of_opSteps step hstep,
        processOp_outcome (opSteps_processOp step hstep)⟩

section

variable {env : Env} {world : World} {past : List OpStep}

theorem Carried.owns {step : OpStep} (h : Carried env world step) :
    world.Owns env step.batch.auth.deviceId := by
  obtain ⟨id, hid, hparse, -⟩ := h
  exact ⟨id, hid, hparse⟩

theorem Carried.step {step : OpStep} (h : Carried env world step) (event : Event) :
    Carried env (world.step env event) step := by
  obtain ⟨id, hid, hparse, op, hop, hread⟩ := h
  refine ⟨id, ?_, hparse, op, sent_step env world event hop, hread⟩
  rw [own_step]
  exact List.mem_append_left _ hid

/-- An iteration of a longer record is one of the old record, or comes after all of it. -/
theorem append_eq_split {new before after : List OpStep} {step : OpStep}
    (h : past ++ new = before ++ step :: after) :
    (∃ rest, past = before ++ step :: rest) ∨ (past ⊆ before ∧ step ∈ new) := by
  rcases List.append_eq_append_iff.mp h with ⟨middle, hbefore, hnew⟩ | ⟨rest, hpast, hafter⟩
  · refine .inr ⟨?_, ?_⟩
    · rw [hbefore]
      exact List.subset_append_left _ _
    · rw [hnew]
      exact List.mem_append_right _ List.mem_cons_self
  · cases rest with
    | nil =>
        refine .inr ⟨?_, ?_⟩
        · rw [hpast, List.append_nil]
          exact List.Subset.refl _
        · rw [← List.nil_append new, ← hafter]
          exact List.mem_cons_self
    | cons first rest =>
        obtain ⟨rfl, -⟩ := List.cons.inj hafter
        exact .inl ⟨rest, hpast⟩

/-- What a step must show of the iterations it adds. -/
theorem Decisions.advance (h : Decisions env world past) {event : Event}
    (hdrawn : world.Drawn env event) {new : List OpStep}
    (hhistory : History (world.step env event).server (past ++ new))
    (hsteps : ∀ step ∈ new, step.batch.auth.deviceId ∈ (world.step env event).others ∨
      Carried env (world.step env event) step)
    (hdecided : ∀ step ∈ new, (world.step env event).Owns env step.batch.auth.deviceId →
      ∀ ack, step.ack = some ack → ack.status = .alreadyProcessed →
        ∃ earlier ∈ past, earlier.processed = true ∧
          earlier.batch.auth.deviceId = step.batch.auth.deviceId ∧
          earlier.mutation = step.mutation) :
    Decisions env (world.step env event) (past ++ new) where
  history := hhistory
  steps := by
    intro step hstep
    rcases List.mem_append.mp hstep with hold | hnew
    · rcases h.steps step hold with hother | hcarried
      · left
        rw [others_step]
        exact List.mem_append_left _ hother
      · exact .inr (hcarried.step event)
    · exact hsteps step hnew
  decided := by
    intro before step after hsplit howns ack hack hstatus
    rcases append_eq_split hsplit with ⟨rest, hpast⟩ | ⟨hbefore, hnew⟩
    · have hstep : step ∈ past := hpast ▸ List.mem_append_right _ List.mem_cons_self
      have hold : world.Owns env step.batch.auth.deviceId := by
        rcases owns_step env world event howns with hold | ⟨id, hid, hparse⟩
        · exact hold
        · obtain ⟨drawn, hparsed, hothers, hnone⟩ := drawn_new hdrawn hid
          cases hparsed.symm.trans hparse
          exact (h.steps step hstep).elim (absurd · hothers) Carried.owns
      exact h.decided before step rest hpast hold ack hack hstatus
    · obtain ⟨earlier, hearlier, hdone⟩ := hdecided step hnew howns ack hack hstatus
      exact ⟨earlier, hbefore hearlier, hdone⟩

/-- A step that leaves the server alone. -/
theorem Decisions.idle (h : Decisions env world past) {event : Event}
    (hdrawn : world.Drawn env event) (hserver : (world.step env event).server = world.server) :
    Decisions env (world.step env event) (past ++ []) := by
  apply h.advance hdrawn
  · rw [hserver, List.append_nil]
    exact h.history
  · exact fun step hstep => nomatch hstep
  · exact fun step hstep => nomatch hstep

/-- An old number was decided, and its operation is the one the repository sends now. -/
theorem Decisions.decided_before (h : Decisions env world past) (hnumbers : Numbers world)
    (hdevices : Devices env world) {device : DeviceRow} {deviceId : Uuid}
    (hdevice : world.server.devices.lookup deviceId = some device) {id : String} {op : SyncOp}
    {mutation : Mutation} (hid : id ∈ world.own) (hparse : env.uuid.parse id = some deviceId)
    (hop : (id, op) ∈ world.sent) (hread : op.read env = some mutation)
    (hpos : 0 < mutation.clientSeq) (hseq : mutation.clientSeq ≤ device.lastClientSeq) :
    ∃ earlier ∈ past, earlier.processed = true ∧ earlier.batch.auth.deviceId = deviceId ∧
      earlier.mutation = mutation := by
  have hrange := (h.history.watermark deviceId device hdevice).2
  have hmem : mutation.clientSeq ∈ (processedBy past deviceId).map (·.mutation.clientSeq) := by
    rw [hrange, Int.mem_range_iff]
    omega
  obtain ⟨earlier, hearlier, hnumber⟩ := List.mem_map.mp hmem
  obtain ⟨hpast, hprocessed⟩ := List.mem_filter.mp hearlier
  simp only [Bool.and_eq_true, beq_iff_eq] at hprocessed
  obtain ⟨hsame, hprocessed⟩ := hprocessed
  refine ⟨earlier, hpast, hprocessed, hsame, ?_⟩
  rcases h.steps earlier hpast with hother | ⟨other, hother, hparsed, first, hfirst, hfirstRead⟩
  · exact absurd ⟨id, hid, hsame ▸ hparse⟩ (hdevices.apart _ hother)
  · have hids : other = id := hdevices.ids other hother id hid deviceId (hsame ▸ hparsed) hparse
    subst hids
    have hone : first = op := by
      apply hnumbers.unambiguous other first op
      · exact List.mem_append_left _ (List.mem_append_left _ hfirst)
      · exact List.mem_append_left _ (List.mem_append_left _ hop)
      · rw [← clientSeq_of_read hfirstRead, ← clientSeq_of_read hread]
        exact hnumber
    subst hone
    exact Option.some.inj (hfirstRead.symm.trans hread)

theorem Decisions.serve (h : Decisions env world past) (hnumbers : Numbers world)
    (hdevices : Devices env world) {index : Nat} {clock : Clock} {auth : AuthUser} :
    Decisions env (world.step env (.serve index clock auth))
      (past ++ world.emit env (.serve index clock auth)) := by
  have hdrawn : world.Drawn env (.serve index clock auth) := trivial
  cases hrequest : world.request env index with
  | none =>
      have hemit : world.emit env (.serve index clock auth) = [] := by
        rw [World.emit, hrequest]
      rw [hemit]
      refine h.idle hdrawn ?_
      rw [World.step, hrequest]
  | some found =>
      obtain ⟨body, request⟩ := found
      have hemit : world.emit env (.serve index clock auth) =
          requestSteps env clock auth request world.server := by
        rw [World.emit, hrequest]
      have hserver : (world.step env (.serve index clock auth)).server =
          (serveSync env clock auth request world.server).2 := by
        rw [World.step, hrequest]
        rfl
      obtain ⟨answer, hindex⟩ := World.round_of_request hrequest
      obtain ⟨hown, hsent⟩ := hnumbers.rounds _ (List.mem_of_getElem? hindex)
      have hread : body.read env = some request := by
        rw [World.request, hindex] at hrequest
        obtain ⟨read, hread, heq⟩ := Option.map_eq_some_iff.mp hrequest
        cases heq
        exact hread
      obtain ⟨deviceId, hparse, hrest⟩ := Option.bind_eq_some_iff.mp hread
      obtain ⟨mutations, hops, hdone⟩ := Option.bind_eq_some_iff.mp hrest
      cases hdone
      -- The request's device is the one its body names.
      have hfacts : ∀ step ∈ requestSteps env clock auth
            ⟨deviceId, body.cursor, mutations, some body.limit⟩ world.server,
          step.batch.auth.deviceId = deviceId ∧ ∃ op, (body.deviceId, op) ∈ world.sent ∧
            op.read env = some step.mutation := by
        intro step hstep
        obtain ⟨committed, hbatch, hmutation, -⟩ := batch_of_requestSteps step hstep
        obtain ⟨op, hop, hread⟩ := exists_of_mem_mapM hops _ hmutation
        refine ⟨?_, op, hsent op hop, hread⟩
        rw [hbatch]
        exact not_not.mp (refuseIf_eq_ok_iff.mp committed.hsame)
      rw [hemit]
      apply h.advance hdrawn
      · rw [hserver]
        exact h.history.step (.request clock auth _)
      · intro step hstep
        obtain ⟨hdevice, op, hop, hread⟩ := hfacts step hstep
        have hcarried : Carried env world step :=
          ⟨body.deviceId, hown, hdevice ▸ hparse, op, hop, hread⟩
        exact .inr (hcarried.step _)
      · intro step hstep _ ack hack hstatus
        obtain ⟨hdevice, op, hop, hread⟩ := hfacts step hstep
        obtain ⟨committed, hbatch, hmutation, houtcome⟩ := batch_of_requestSteps step hstep
        have hvalid : validateOps mutations 0 [] = .ok () := by
          have hcheck := committed.hbatch
          rw [validateBatch, ite_error_eq_ok_iff] at hcheck
          exact hcheck.2
        have hseq := seq_le_of_alreadyProcessed houtcome hack hstatus
        rw [hbatch] at hseq
        have hauth : auth.deviceId = deviceId := by
          rw [← hdevice, hbatch]
          rfl
        rw [hdevice]
        exact h.decided_before hnumbers hdevices (hauth ▸ committed.device_lookup) hown hparse hop
          hread (seq_pos_of_validateOps hvalid _ hmutation) hseq

/-- What others make the server do is about their devices. -/
theorem Decisions.server (h : Decisions env world past) (hdevices : Devices env world)
    (event : ServerEvent) (hdrawn : world.Drawn env (.server event)) :
    Decisions env (world.step env (.server event)) (past ++ world.emit env (.server event)) := by
  have hother : ∀ step ∈ serverEmit env world.server event,
      step.batch.auth.deviceId ∈ World.otherDevice event := by
    intro step hstep
    cases event with
    | request clock auth body =>
        obtain ⟨committed, hbatch, -⟩ := batch_of_requestSteps step hstep
        rw [hbatch]
        exact List.mem_cons_self
    | _ => cases hstep
  have hothers : ∀ step ∈ serverEmit env world.server event,
      step.batch.auth.deviceId ∈ (world.step env (.server event)).others := fun step hstep =>
    List.mem_append_right _ (hother step hstep)
  apply h.advance hdrawn
  · exact h.history.step event
  · exact fun step hstep => .inl (hothers step hstep)
  · intro step hstep howns
    exact absurd howns ((hdevices.step _ hdrawn).apart _ (hothers step hstep))

theorem Decisions.step (h : Decisions env world past) (hnumbers : Numbers world)
    (hdevices : Devices env world) (event : Event) (hdrawn : world.Drawn env event) :
    Decisions env (world.step env event) (past ++ world.emit env event) := by
  cases event with
  | serve index clock auth => exact h.serve hnumbers hdevices
  | server event => exact h.server hdevices event hdrawn
  | client call => exact h.idle hdrawn rfl
  | begin => exact h.idle hdrawn rfl
  | giveUp index => exact h.idle hdrawn rfl
  | _ =>
      refine h.idle hdrawn ?_
      simp only [World.step]
      split <;> rfl

end

/-! ### Runs -/

def firstDevice : AuthUser := ⟨⟨1⟩, ⟨2⟩⟩

def secondDevice : AuthUser := ⟨⟨1⟩, ⟨9⟩⟩

/-- `createList` of one list. -/
def createdList (opId id name : String) : Event := .client (.localWrite .empty [{
  opId := opId
  entity := .list
  entityId := id
  kind := .create
  patch := [("id", .str id), ("name", .str name), ("rank", .str "000001")]
  now := "2026-10-21T05:00:00.000Z" }])

/-- One round without anything in between. -/
def wholeRound (index : Nat) (auth : AuthUser) : List Event := [
  .begin, .getPending index 100, .send index, .serve index ⟨⟨3000⟩, ⟨4000⟩⟩ auth, .receive index,
  .applyResult index .empty ∅ none]

/-- The first list is synced, and a backup with nothing in it is imported. -/
def importedAfterSync : List Event :=
  [.server (.signUp ⟨1⟩), .server (.signIn firstDevice), .client (.syncSetEnabled true),
    createdList "00000000-0000-0000-0000-000000000003" "00000000-0000-0000-0000-00000000000a"
      "Groceries"] ++
    wholeRound 0 firstDevice ++
    [.client (.importData ⟨"todo-export", 1, [], [], [], []⟩ .merge)]

/-- The browser signs in again after the import, with a new device id. -/
def signedInAgain : List Event :=
  importedAfterSync ++
    [.client (.syncRotateDevice "00000000-0000-0000-0000-000000000009"),
      .server (.signIn secondDevice), .client (.syncSetEnabled true),
      createdList "00000000-0000-0000-0000-000000000004" "00000000-0000-0000-0000-00000000000b"
        "Errands"] ++
    wholeRound 1 secondDevice

/-- The browser goes on after the import with the id it has. By then the server has forgotten the receipt of the first list. -/
def wentOn : List Event :=
  importedAfterSync ++
    [.server (.cleanupReceipts ⟨5000⟩ fun _ => true), .client (.syncSetEnabled true),
      createdList "00000000-0000-0000-0000-000000000004" "00000000-0000-0000-0000-00000000000b"
        "Errands"] ++
    wholeRound 1 firstDevice

end ShishiTodo.Web
