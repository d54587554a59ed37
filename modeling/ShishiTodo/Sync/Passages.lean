import ShishiTodo.Server.Snapshot
import ShishiTodo.Sync.Answers

/-!
# What happens around the engine's requests

Between two of its requests the engine waits: others commit, the account's row is made, and the store stays as it is. What one request of the engine does is said once, for a push and for each page of a bootstrap; a whole round is put together from these.
-/

namespace ShishiTodo.Sync

open Lib

/-! ### Others commit -/

/-- Others committed allowed events one after another, each in the database it is listed with. -/
inductive Passes (env : Env) (userId : Uuid) (allowed : ServerEvent → Prop) (db : Db) :
    List (Db × ServerEvent) → Db → Prop
  | start : Passes env userId allowed db [] db
  | commit {met : List (Db × ServerEvent)} {last : Db} (h : Passes env userId allowed db met last)
      {event : ServerEvent} (hallowed : allowed event) :
      Passes env userId allowed db (met ++ [(last, event)]) (serverStep env last event)
  | ensure {met : List (Db × ServerEvent)} {last : Db} (h : Passes env userId allowed db met last) :
      Passes env userId allowed db met (last.ensureSyncState userId)

section

variable {env : Env} {userId : Uuid} {allowed : ServerEvent → Prop} {db middle last : Db}
  {met more : List (Db × ServerEvent)}

theorem Passes.trans (first : Passes env userId allowed db met middle)
    (second : Passes env userId allowed middle more last) :
    Passes env userId allowed db (met ++ more) last := by
  induction second with
  | start => simpa using first
  | commit h hallowed ih =>
      rw [← List.append_assoc]
      exact ih.commit hallowed
  | ensure h ih => exact ih.ensure

/-- What each allowed event keeps, in the database it meets, is kept. -/
theorem Passes.keeps (passes : Passes env userId allowed db met last) (inv : Db → Prop)
    (hcommit : ∀ db event, inv db → allowed event → (db, event) ∈ met →
      inv (serverStep env db event))
    (hensure : ∀ db, inv db → inv (db.ensureSyncState userId)) (hinv : inv db) : inv last := by
  induction passes with
  | start => exact hinv
  | commit h hallowed ih =>
      have hbefore := ih fun db event hdb hevent hmem =>
        hcommit db event hdb hevent (List.mem_append_left _ hmem)
      exact hcommit _ _ hbefore hallowed (List.mem_append_right _ List.mem_cons_self)
  | ensure h ih => exact hensure _ (ih hcommit)

end

/-! ### The engine waits -/

/-- From one world to a later one of the same round: others commit, and the store is left alone. -/
structure Waits (env : Env) (userId : Uuid) (allowed : ServerEvent → Prop) {σ : Type}
    (world next : World σ) : Prop where
  passes : ∃ more, next.met = world.met ++ more ∧ Passes env userId allowed world.db more next.db
  store : next.store = world.store
  round : next.round = world.round

/-- The events of a page's request are allowed. -/
structure PageTurn.Only (allowed : ServerEvent → Prop) (turn : PageTurn) : Prop where
  before : ∀ event ∈ turn.before, allowed event
  between : ∀ event ∈ turn.between, allowed event

/-- The events of a round are allowed. -/
structure Turn.Only (allowed : ServerEvent → Prop) (turn : Turn) : Prop where
  before : ∀ event ∈ turn.before, allowed event
  pages : ∀ index, (turn.pages index).Only allowed

section

variable {env : Env} {userId : Uuid} {allowed : ServerEvent → Prop} {σ : Type}
  {world middle next : World σ}

theorem Waits.refl (world : World σ) : Waits env userId allowed world world where
  passes := ⟨[], (List.append_nil _).symm, .start⟩
  store := rfl
  round := rfl

theorem Waits.trans (first : Waits env userId allowed world middle)
    (second : Waits env userId allowed middle next) : Waits env userId allowed world next := by
  obtain ⟨met, hmet, hpasses⟩ := first.passes
  obtain ⟨more, hmore, hrest⟩ := second.passes
  exact {
    passes := ⟨met ++ more, by rw [hmore, hmet, List.append_assoc], hpasses.trans hrest⟩
    store := second.store.trans first.store
    round := second.round.trans first.round }

theorem Waits.setState (h : Waits env userId allowed world next) (state : SyncState) :
    Waits env userId allowed world (next.setState state) where
  passes := h.passes
  store := h.store
  round := h.round

theorem Waits.meet : ∀ {events : List ServerEvent} {world : World σ},
    (∀ event ∈ events, allowed event) → Waits env userId allowed world (world.meet env events)
  | [], world, _ => .refl world
  | event :: rest, world, hallowed => by
      have hfirst : Waits env userId allowed world (world.meet env [event]) := {
        passes := ⟨[(world.db, event)], rfl,
          Passes.commit .start (hallowed event List.mem_cons_self)⟩
        store := rfl
        round := rfl }
      exact hfirst.trans (Waits.meet fun later hlater =>
        hallowed later (List.mem_cons_of_mem event hlater))

theorem Waits.ensure (h : Waits env userId allowed world next) :
    Waits env userId allowed world { next with db := next.db.ensureSyncState userId } where
  passes := h.passes.imp fun _ ⟨hmet, hpasses⟩ => ⟨hmet, hpasses.ensure⟩
  store := h.store
  round := h.round

end

theorem hear_eq_ok {α : Type} {statusText : String} {answer : ApiResult α} {delivery : Delivery}
    {value : α} (h : delivery.hear statusText answer = .ok value) : answer = .ok value := by
  cases delivery with
  | answered =>
      cases answer with
      | ok found => exact congrArg _ (Except.ok.inj h)
      | error error => cases h
  | lost outage => cases h
  | unheard outage => cases h

theorem readError_code {statusText : String} {error : AppError}
    (h : (readError statusText error).code = "CURSOR_EXPIRED") :
    error.answerCode = "CURSOR_EXPIRED" := by
  unfold readError at h
  simp only at h
  split at h
  · exact h
  · simp at h

theorem hear_cursorExpired {α : Type} {statusText : String} {answer : ApiResult α}
    {delivery : Delivery} {thrown : Thrown} (h : delivery.hear statusText answer = .error thrown)
    (hexpired : thrown.cursorExpired = true) :
    ∃ error, answer = .error error ∧ error.answerCode = "CURSOR_EXPIRED" := by
  cases delivery with
  | answered =>
      cases answer with
      | ok found => cases h
      | error error =>
          rw [← Except.error.inj h] at hexpired
          exact ⟨error, rfl, readError_code (by simpa [Thrown.cursorExpired] using hexpired)⟩
  | lost outage =>
      rw [← Except.error.inj h, outage.2] at hexpired
      cases hexpired
  | unheard outage =>
      rw [← Except.error.inj h, outage.2] at hexpired
      cases hexpired

/-! ### A push -/

section

variable {env : Env} {σ : Type} {engine : SyncEngine env σ} {turn : Turn} {body : SyncBody}
  {world next : World σ} {allowed : ServerEvent → Prop}

/-- An answered push: others committed, and then the server took the request. -/
structure Pushed (engine : SyncEngine env σ) (allowed : ServerEvent → Prop) (turn : Turn)
    (body : SyncBody) (world : World σ) (response : SyncResponse) (next : World σ) where
  middle : World σ
  waits : Waits env engine.transport.auth.userId allowed world middle
  request : SyncRequest
  read : body.read env = some request
  committed : Committed env turn.clock engine.transport.auth request middle.db
  response_eq : response = committed.response
  next_eq : next = { middle with db := committed.result }

theorem sync_ok {response : SyncResponse} (hallowed : turn.Only allowed)
    (h : engine.sync turn body world = (.ok response, next)) :
    Nonempty (Pushed engine allowed turn body world response next) := by
  have hwaits : Waits env engine.transport.auth.userId allowed world
      (world.meet env turn.before) := .meet hallowed.before
  unfold SyncEngine.sync at h
  split at h
  · cases h
  · obtain ⟨hanswer, hnext⟩ := Prod.mk.inj h
    unfold SyncEngine.serve at hanswer hnext
    cases hread : body.read env with
    | none =>
        rw [hread] at hanswer
        cases hear_eq_ok hanswer
    | some request =>
        rw [hread] at hanswer hnext
        have hserved := hear_eq_ok hanswer
        simp only [serveSync] at hserved hnext
        split at hserved
        · rename_i answered db hsync
          obtain ⟨committed, hdb, hresponse⟩ := ShishiTodo.sync_eq_ok hsync
          rw [hsync] at hnext
          exact ⟨{
            middle := world.meet env turn.before
            waits := hwaits
            request := request
            read := hread
            committed := committed
            response_eq := (Except.ok.inj hserved).symm.trans hresponse
            next_eq := by rw [← hnext, ← hdb] }⟩
        · cases hserved

/-- A push whose cursor expired changed nothing. -/
theorem sync_expired {thrown : Thrown} (hallowed : turn.Only allowed)
    (h : engine.sync turn body world = (.error thrown, next))
    (hexpired : thrown.cursorExpired = true) :
    Waits env engine.transport.auth.userId allowed world next ∧
      ∃ cursor, ChangeCursor.parse body.cursor = some cursor ∧
        cursor < (next.db.syncState engine.transport.auth.userId).minAvailableSeq - 1 := by
  have hwaits : Waits env engine.transport.auth.userId allowed world
      (world.meet env turn.before) := .meet hallowed.before
  unfold SyncEngine.sync at h
  split at h
  · rename_i outage _
    rw [← Except.error.inj (Prod.mk.inj h).1, outage.2] at hexpired
    cases hexpired
  · obtain ⟨hanswer, hnext⟩ := Prod.mk.inj h
    obtain ⟨error, herror, hcode⟩ := hear_cursorExpired hanswer hexpired
    unfold SyncEngine.serve at herror hnext
    cases hread : body.read env with
    | none =>
        rw [hread] at herror
        cases herror
        exact absurd hcode (answerCode_validation _)
    | some request =>
        rw [hread] at herror hnext
        have hcursor : request.cursor = body.cursor := by
          simp only [SyncBody.read, Option.bind_eq_bind, Option.bind_eq_some_iff] at hread
          obtain ⟨deviceId, -, ops, -, hrequest⟩ := hread
          rw [← Option.some.inj hrequest]
        simp only [serveSync] at herror hnext
        split at herror
        · cases herror
        · rename_i refused hsync
          rw [hsync] at hnext
          rw [← Except.error.inj herror] at hcode
          rw [← hnext, ← hcursor]
          exact ⟨hwaits, sync_cursorExpired hsync hcode⟩

/-- An answer that was taken in: the store holds its cursor and no acknowledged operation. -/
structure Accepted (engine : SyncEngine env σ) (response : SyncResponse) (world next : World σ)
    (pendingCount : Nat) : Prop where
  db : next.db = world.db
  met : next.met = world.met
  round : next.round = world.round
  cursor : engine.store.cursor next.store = response.nextCursor
  pending : engine.store.pending next.store =
    (engine.store.pending world.store).filter fun op => !acknowledged env response.ack op
  pendingCount : pendingCount = (engine.store.pending next.store).length

theorem noteRejected_frame (rejected : List Ack) (world : World σ) :
    (SyncEngine.noteRejected rejected world).db = world.db ∧
      (SyncEngine.noteRejected rejected world).met = world.met ∧
      (SyncEngine.noteRejected rejected world).round = world.round ∧
      (SyncEngine.noteRejected rejected world).store = world.store := by
  unfold SyncEngine.noteRejected
  split <;> exact ⟨rfl, rfl, rfl, rfl⟩

theorem accept_ok {response : SyncResponse} {pendingCount : Nat}
    (h : engine.accept response world = (.ok pendingCount, next)) :
    Accepted engine response world next pendingCount := by
  obtain ⟨hdb, hmet, hround, hstoreEq⟩ :=
    noteRejected_frame (response.ack.filter SyncEngine.isRejected) world
  unfold SyncEngine.accept at h
  simp only at h
  split at h
  · cases h
  · rename_i store hstore
    split at h
    · cases h
    · rename_i count hcount
      obtain ⟨hdone, rfl⟩ := Prod.mk.inj h
      rw [hstoreEq] at hstore
      obtain ⟨hcursor, hpending⟩ := engine.store.applies hstore
      exact {
        db := hdb
        met := hmet
        round := hround
        cursor := hcursor
        pending := hpending
        pendingCount := (Except.ok.inj hdone).symm.trans (engine.store.counts hcount) }

end

/-! ### A bootstrap -/

section

variable {env : Env} {σ : Type} {engine : SyncEngine env σ} {world next : World σ}
  {allowed : ServerEvent → Prop} {page : BootstrapPage}

/-- A token continues the snapshot of its page. -/
def Continues (page : BootstrapPage) : Prop :=
  ∀ token, page.nextPage = some token →
    ChangeCursor.render token.snapshotCursor = page.snapshotCursor

theorem continues_of_snapshotPage {db : Db} {userId : Uuid} {position : SnapshotPosition}
    {limit : Nat} {expiresAt : Int}
    (h : snapshotPage env db userId position limit expiresAt = .ok page) :
    Continues page ∧ page.snapshotCursor = ChangeCursor.render position.cursor := by
  obtain ⟨-, hcursor, htoken, -⟩ := snapshotPage_eq_ok h
  refine ⟨fun token hnext => ?_, hcursor⟩
  rw [(htoken token hnext).1, hcursor]

theorem firstPage_waits {turn : PageTurn} (hallowed : turn.Only allowed) :
    Waits env engine.transport.auth.userId allowed world (engine.firstPage turn world).2 := by
  have hbefore : Waits env engine.transport.auth.userId allowed world
      (world.meet env turn.before) := .meet hallowed.before
  unfold SyncEngine.firstPage
  simp only
  split
  · exact hbefore
  · exact hbefore.ensure.trans (.meet hallowed.between)

/-- The first page names the last sequence of the moment its snapshot was opened. -/
theorem firstPage_ok {turn : PageTurn} (hallowed : turn.Only allowed)
    (h : engine.firstPage turn world = (.ok page, next)) :
    Continues page ∧ ∃ opened : World σ,
      Waits env engine.transport.auth.userId allowed world opened ∧
      Waits env engine.transport.auth.userId allowed opened next ∧
      page.snapshotCursor =
        ChangeCursor.render (opened.db.lastSeq engine.transport.auth.userId) := by
  have hbefore : Waits env engine.transport.auth.userId allowed world
      (world.meet env turn.before) := .meet hallowed.before
  unfold SyncEngine.firstPage at h
  simp only at h
  split at h
  · cases h
  · obtain ⟨hpage, rfl⟩ := Prod.mk.inj h
    obtain ⟨hcontinues, hcursor⟩ := continues_of_snapshotPage (hear_eq_ok hpage)
    exact ⟨hcontinues, _, hbefore.ensure, .meet hallowed.between, hcursor⟩

theorem nextPage_waits {turn : PageTurn} {token : BootstrapContinuation}
    (hallowed : turn.Only allowed) :
    Waits env engine.transport.auth.userId allowed world
      (engine.nextPage turn token world).2 :=
  .meet hallowed.before

theorem nextPage_ok {turn : PageTurn} {token : BootstrapContinuation}
    (h : engine.nextPage turn token world = (.ok page, next)) :
    Continues page ∧ page.snapshotCursor = ChangeCursor.render token.snapshotCursor := by
  have hpage := hear_eq_ok (Prod.mk.inj h).1
  simp only [bootstrapAfter, bind_eq_ok_iff] at hpage
  obtain ⟨limit, -, hpage⟩ := hpage
  split at hpage
  · cases hpage
  · rename_i continuation hverify
    have hsame : continuation = token := by
      unfold BootstrapContinuation.verify at hverify
      split at hverify
      · cases hverify
      · split at hverify
        · cases hverify
        · exact (Except.ok.inj hverify).symm
    rw [hsame] at hpage
    exact continues_of_snapshotPage hpage

theorem readRest_waits {pages : Nat → PageTurn} (hallowed : ∀ index, (pages index).Only allowed) :
    ∀ (left : Nat) (page : BootstrapPage) (entities : List BootstrapEntity) (world : World σ),
      Waits env engine.transport.auth.userId allowed world
        (engine.readRest pages left page entities world).2
  | 0, _, _, world => .refl world
  | left + 1, page, entities, world => by
      unfold SyncEngine.readRest
      split
      · rename_i token _ _
        have hwaits : Waits env engine.transport.auth.userId allowed world
            (engine.nextPage (pages (10000 - left)) token world).2 :=
          nextPage_waits (hallowed _)
        split
        · rename_i heq
          rwa [heq] at hwaits
        · rename_i later _ heq
          rw [heq] at hwaits
          exact hwaits.trans (readRest_waits hallowed left later _ _)
      · exact .refl world

/-- The pages after the first carry its snapshot's cursor on. -/
theorem readRest_ok {pages : Nat → PageTurn} :
    ∀ (left : Nat) (page : BootstrapPage) (entities : List BootstrapEntity) (world : World σ)
      {last : BootstrapPage} {next : World σ}, Continues page →
      engine.readRest pages left page entities world = (.ok last, next) →
      last.snapshotCursor = page.snapshotCursor
  | 0, page, entities, world, last, next, hcontinues, h => by
      rw [← Except.ok.inj (Prod.mk.inj h).1]
  | left + 1, page, entities, world, last, next, hcontinues, h => by
      unfold SyncEngine.readRest at h
      split at h
      · rename_i token _ htoken
        split at h
        · cases h
        · rename_i later middle hlater
          obtain ⟨hagain, hcursor⟩ := nextPage_ok hlater
          rw [readRest_ok left later _ middle hagain h, hcursor, hcontinues token htoken]
      · rw [← Except.ok.inj (Prod.mk.inj h).1]

theorem readSnapshot_waits {pages : Nat → PageTurn} (hallowed : ∀ index, (pages index).Only allowed) :
    Waits env engine.transport.auth.userId allowed world (engine.readSnapshot pages world).2 := by
  have hfirst : Waits env engine.transport.auth.userId allowed world
      (engine.firstPage (pages 0) world).2 := firstPage_waits (hallowed 0)
  unfold SyncEngine.readSnapshot
  split
  · rename_i heq
    rwa [heq] at hfirst
  · rename_i page middle heq
    rw [heq] at hfirst
    exact hfirst.trans (readRest_waits hallowed 10000 page page.entities middle)

/-- A snapshot that was read: it names the last sequence of a moment during the reading. -/
theorem readSnapshot_ok {pages : Nat → PageTurn} (hallowed : ∀ index, (pages index).Only allowed)
    (h : engine.readSnapshot pages world = (.ok page, next)) :
    ∃ opened : World σ, Waits env engine.transport.auth.userId allowed world opened ∧
      Waits env engine.transport.auth.userId allowed opened next ∧
      page.snapshotCursor =
        ChangeCursor.render (opened.db.lastSeq engine.transport.auth.userId) := by
  unfold SyncEngine.readSnapshot at h
  split at h
  · cases h
  · rename_i first middle hfirst
    obtain ⟨hcontinues, opened, hopened, hmiddle, hcursor⟩ := firstPage_ok (hallowed 0) hfirst
    have hrest : Waits env engine.transport.auth.userId allowed middle
        (engine.readRest pages 10000 first first.entities middle).2 :=
      readRest_waits hallowed 10000 first first.entities middle
    rw [h] at hrest
    refine ⟨opened, hopened, hmiddle.trans hrest, ?_⟩
    rw [readRest_ok 10000 first first.entities middle hcontinues h, hcursor]

/-- A bootstrap that went through: the store holds the snapshot's cursor and every operation it had. -/
structure Rebased (engine : SyncEngine env σ) (allowed : ServerEvent → Prop)
    (world next : World σ) where
  opened : World σ
  last : World σ
  waits : Waits env engine.transport.auth.userId allowed
    { world with store := opened.store } opened
  rest : Waits env engine.transport.auth.userId allowed opened last
  db : next.db = last.db
  met : next.met = last.met
  round : next.round = world.round
  cursor : engine.store.cursor next.store =
    ChangeCursor.render (opened.db.lastSeq engine.transport.auth.userId)
  pending : engine.store.pending next.store = engine.store.pending world.store

theorem replace_ok {done : Unit} (h : engine.replace page world = (.ok done, next)) :
    next.db = world.db ∧ next.met = world.met ∧ next.round = world.round ∧
      engine.store.cursor next.store = page.snapshotCursor ∧
      engine.store.pending next.store = engine.store.pending world.store := by
  unfold SyncEngine.replace at h
  split at h
  · cases h
  · rename_i store hstore
    simp only at h
    split at h
    · cases h
    · obtain ⟨-, rfl⟩ := Prod.mk.inj h
      obtain ⟨hcursor, hpending⟩ := engine.store.replaces hstore
      exact ⟨rfl, rfl, rfl, hcursor, hpending⟩

theorem rebase_ok {pages : Nat → PageTurn} (hallowed : ∀ index, (pages index).Only allowed)
    {done : Unit} (h : engine.rebase pages world = (.ok done, next)) :
    Nonempty (Rebased engine allowed world next) := by
  unfold SyncEngine.rebase at h
  split at h
  · cases h
  · rename_i store hstore
    split at h
    · cases h
    · rename_i page middle hread
      obtain ⟨hdone, rfl⟩ := Prod.mk.inj h
      obtain ⟨opened, hopened, hrest, hcursor⟩ := readSnapshot_ok hallowed hread
      obtain ⟨-, hmarked⟩ := engine.store.marks hstore
      cases hreplace : engine.replace page middle with
      | mk outcome replaced =>
          rw [hreplace] at hdone
          cases outcome with
          | error failure => cases hdone
          | ok done =>
              obtain ⟨hdb, hmet, hround, hnewCursor, hpending⟩ := replace_ok hreplace
              have hstores : opened.store = store := hopened.store
              exact ⟨{
                opened := opened
                last := middle
                waits := by rw [hstores]; exact hopened
                rest := hrest
                db := hdb
                met := hmet
                round := hround.trans (hrest.round.trans hopened.round)
                cursor := hnewCursor.trans hcursor
                pending := by rw [hpending, hrest.store, hstores, hmarked] }⟩

/-- However a bootstrap ends, no pending operation is lost. -/
theorem rebase_pending (engine : SyncEngine env σ) (pages : Nat → PageTurn) (world : World σ) :
    engine.store.pending (engine.rebase pages world).2.store = engine.store.pending world.store := by
  unfold SyncEngine.rebase
  split
  · rfl
  · rename_i store hstore
    obtain ⟨-, hmarked⟩ := engine.store.marks hstore
    have hread : Waits env engine.transport.auth.userId (fun _ => True) { world with store := store }
        (engine.readSnapshot pages { world with store := store }).2 :=
      readSnapshot_waits fun _ => ⟨fun _ _ => trivial, fun _ _ => trivial⟩
    split
    · rename_i heq
      rw [heq] at hread
      rw [hread.store]
      exact hmarked
    · rename_i page middle heq
      rw [heq] at hread
      have hmiddle : middle.store = store := hread.store
      simp only
      unfold SyncEngine.replace
      split
      · rw [hmiddle]
        exact hmarked
      · rename_i replaced hreplaced
        obtain ⟨-, hpending⟩ := engine.store.replaces hreplaced
        rw [hmiddle] at hpending
        simp only
        split <;> exact hpending.trans hmarked

end

end ShishiTodo.Sync
