import ShishiTodo.Lib.Loop
import ShishiTodo.Server.Bootstrap
import ShishiTodo.Sync.Transport

/-!
# The sync engine

`SyncEngine.run`: a round pushes pending operations and pulls a page of changes, and the engine goes on while operations are pending or the server has more; an expired cursor sends it through a bootstrap and back. The engine is run against a store that honours the contract of `SyncStore`, and against the server with whatever its other clients and its retention jobs commit between the requests.
-/

namespace ShishiTodo.Sync

open Lib

/-! ### What the engine may catch -/

/-- A thrown value that is no `SyncHttpError`: its message when it is an `Error`, and whether the client counts itself online. -/
structure Failure where
  message : Option String
  onLine : Bool
  deriving DecidableEq, Repr

inductive Thrown where
  | http (error : SyncHttpError)
  | other (failure : Failure)
  deriving DecidableEq, Repr

namespace Thrown

def cursorExpired : Thrown → Bool
  | .http error => error.code == "CURSOR_EXPIRED"
  | .other _ => false

def message : Thrown → String
  | .http error => error.message
  | .other failure => failure.message.getD "同步失败"

end Thrown

/-- A failure on the way to the server or back; only the server says that a cursor expired. -/
def Outage := { thrown : Thrown // thrown.cursorExpired = false }

/-! ### The store -/

inductive SyncStatus where
  | idle | syncing | offline | error | authRequired | synced
  deriving DecidableEq, Repr

structure SyncState where
  status : SyncStatus
  pendingCount : Nat
  lastSyncedAt : Option Instant
  lastError : Option String
  needsBootstrap : Bool
  deriving DecidableEq, Repr

def SyncState.initial : SyncState where
  status := .idle
  pendingCount := 0
  lastSyncedAt := none
  lastError := none
  needsBootstrap := false

/-- The server acknowledged the operation, whatever it decided. -/
def acknowledged (env : Env) (acks : List Ack) (op : SyncOp) : Bool :=
  acks.any fun ack => env.uuid.render ack.opId == op.opId

/-- `SyncStore` and its contract. A call that fails leaves the store as it was. -/
structure SyncStore (env : Env) (σ : Type) where
  getDeviceId : σ → Except Failure String
  getCursor : σ → Except Failure String
  getPendingMutations : Nat → σ → Except Failure (List SyncOp)
  getPendingCount : σ → Except Failure Nat
  applyServerResult : List Ack → List Change → String → σ → Except Failure σ
  replaceFromBootstrap : BootstrapPage → σ → Except Failure σ
  markBootstrapRequired : σ → Except Failure σ
  /-- The operations the server has not acknowledged yet. -/
  pending : σ → List SyncOp
  /-- The client's place in the change log. -/
  cursor : σ → String
  /-- The id of an operation is spelled as the server spells it. -/
  canonical : ∀ {state}, ∀ op ∈ pending state, ∀ {id}, env.uuid.parse op.opId = some id →
    env.uuid.render id = op.opId
  reads_cursor : ∀ {state text}, getCursor state = .ok text → text = cursor state
  lists : ∀ {limit state ops}, getPendingMutations limit state = .ok ops → ops ⊆ pending state
  lists_some : ∀ {limit state ops}, getPendingMutations limit state = .ok ops → 0 < limit →
    pending state ≠ [] → ops ≠ []
  counts : ∀ {state count}, getPendingCount state = .ok count → count = (pending state).length
  applies : ∀ {acks changes nextCursor state next},
    applyServerResult acks changes nextCursor state = .ok next → cursor next = nextCursor ∧
      pending next = (pending state).filter fun op => !acknowledged env acks op
  replaces : ∀ {page state next}, replaceFromBootstrap page state = .ok next →
    cursor next = page.snapshotCursor ∧ pending next = pending state
  marks : ∀ {state next}, markBootstrapRequired state = .ok next →
    cursor next = cursor state ∧ pending next = pending state

/-! ### The network -/

/-- What becomes of a request: it is answered, it never reaches the server, or its answer never comes back. -/
inductive Delivery where
  | answered
  | lost (outage : Outage)
  | unheard (outage : Outage)

/-- What the client hears of an answer. -/
def Delivery.hear {α : Type} (statusText : String) (answer : ApiResult α) :
    Delivery → Except Thrown α
  | .answered => answer.mapError fun error => .http (readError statusText error)
  | .lost outage => .error outage.1
  | .unheard outage => .error outage.1

/-- One request of a bootstrap: what the server commits before it, and between the two statements of the first page. -/
structure PageTurn where
  before : List ServerEvent
  clock : Instant
  between : List ServerEvent
  now : Int
  expiresAt : Int
  statusText : String
  delivery : Delivery

/-- One round of the engine: what the server commits before its request, and the bootstrap it may need. -/
structure Turn where
  before : List ServerEvent
  clock : Clock
  statusText : String
  delivery : Delivery
  pages : Nat → PageTurn

/-- The account that the engine's requests are made for, and what happens to them round after round. -/
structure SyncTransport where
  auth : AuthUser
  turns : Nat → Turn

structure SyncEngine (env : Env) (σ : Type) where
  transport : SyncTransport
  store : SyncStore env σ
  batchSize : Nat

/-! ### The world of a run -/

/-- The server, the store and the engine's state. -/
structure World (σ : Type) where
  db : Db
  store : σ
  round : Nat
  state : SyncState
  /-- What `onState` was told. -/
  reported : List SyncState
  /-- What others committed, each with the database it met. -/
  met : List (Db × ServerEvent)

namespace World

variable {σ : Type}

/-- Before the first round. -/
def start (db : Db) (store : σ) (state : SyncState) : World σ where
  db := db
  store := store
  round := 0
  state := state
  reported := []
  met := []

def setState (state : SyncState) (world : World σ) : World σ :=
  { world with state := state, reported := world.reported ++ [state] }

/-- Others commit. -/
def meet (env : Env) (events : List ServerEvent) (world : World σ) : World σ :=
  events.foldl (fun world event =>
    { world with
      db := serverStep env world.db event
      met := world.met ++ [(world.db, event)] }) world

/-- A round begins. -/
def begin (world : World σ) : World σ :=
  world.setState { world.state with status := .syncing, lastError := none }

def fail (thrown : Thrown) (world : World σ) : World σ :=
  world.setState { world.state with status := .error, lastError := some thrown.message }

end World

/-- How a run ended, and the answer it ended with when it was no failure. -/
structure Ended (σ : Type) where
  world : World σ
  answer : Option SyncResponse

/-- The world a round leaves, whether it is the last one or not. -/
def left {σ : Type} : World σ ⊕ Ended σ → World σ
  | .inl world => world
  | .inr ended => ended.world

/-! ### A round -/

namespace SyncEngine

variable {env : Env} {σ : Type} (engine : SyncEngine env σ)

/-- The body of a request, from what the store holds. -/
def request (store : σ) : Except Failure SyncBody := do
  let deviceId ← engine.store.getDeviceId store
  let pending ← engine.store.getPendingMutations engine.batchSize store
  let cursor ← engine.store.getCursor store
  return { deviceId := deviceId, cursor := cursor, ops := pending, limit := engine.batchSize }

/-- The server takes a body; one it cannot decode changes nothing. -/
def serve (turn : Turn) (body : SyncBody) (world : World σ) :
    ApiResult SyncResponse × World σ :=
  match body.read env with
  | none =>
      let refusal := AppError.validation
        "Request body must be valid JSON matching the endpoint schema"
      (.error refusal, world)
  | some request =>
      let served := serveSync env turn.clock engine.transport.auth request world.db
      (served.1, { world with db := served.2 })

/-- `transport.sync`. -/
def sync (turn : Turn) (body : SyncBody) (world : World σ) :
    Except Thrown SyncResponse × World σ :=
  let world := world.meet env turn.before
  match turn.delivery with
  | .lost outage => (.error outage.1, world)
  | delivery =>
      let served := engine.serve turn body world
      (delivery.hear turn.statusText served.1, served.2)

def isRejected (ack : Ack) : Bool := decide (ack.status = .rejected)

def rejectionText (rejected : List Ack) : String :=
  s!"有 {rejected.length} 个操作被服务器拒绝：" ++
    ", ".intercalate ((rejected.filterMap Ack.errorCode).filter fun code => !code.isEmpty)

/-- The rejections show in the state before the store hears of them. -/
def noteRejected (rejected : List Ack) (world : World σ) : World σ :=
  if rejected.isEmpty then world
  else world.setState { world.state with lastError := some (rejectionText rejected) }

/-- An answer reaches the store, and then the state; the result is the number of pending operations. -/
def accept (response : SyncResponse) (world : World σ) : Except Failure Nat × World σ :=
  let rejected := response.ack.filter isRejected
  let world := noteRejected rejected world
  match engine.store.applyServerResult response.ack response.changes response.nextCursor
      world.store with
  | .error failure => (.error failure, world)
  | .ok store =>
      let world := { world with store := store }
      match engine.store.getPendingCount store with
      | .error failure => (.error failure, world)
      | .ok pendingCount =>
          let status := if !rejected.isEmpty then .error
            else if 0 < pendingCount ∨ response.hasMore then .syncing else .synced
          let lastError := if rejected.isEmpty then none else world.state.lastError
          (.ok pendingCount, world.setState {
            status := status
            pendingCount := pendingCount
            lastSyncedAt := some response.serverTime
            lastError := lastError
            needsBootstrap := false })

/-! ### The bootstrap -/

/-- `transport.bootstrap()`. -/
def firstPage (turn : PageTurn) (world : World σ) : Except Thrown BootstrapPage × World σ :=
  let world := world.meet env turn.before
  match turn.delivery with
  | .lost outage => (.error outage.1, world)
  | delivery =>
      let userId := engine.transport.auth.userId
      let opened := { world with db := world.db.ensureSyncState userId }
      let position := opened.db.openSnapshot userId turn.clock
      let world := opened.meet env turn.between
      (delivery.hear turn.statusText (snapshotPage env world.db userId position 500 turn.expiresAt),
        world)

/-- `transport.bootstrap(page.next_page)`. -/
def nextPage (turn : PageTurn) (token : BootstrapContinuation) (world : World σ) :
    Except Thrown BootstrapPage × World σ :=
  let world := world.meet env turn.before
  (turn.delivery.hear turn.statusText (bootstrapAfter env world.db engine.transport.auth.userId
    (some 500) token turn.now turn.expiresAt), world)

/-- The pages after the first, until the last one or the guard. -/
def readRest (pages : Nat → PageTurn) : Nat → BootstrapPage → List BootstrapEntity → World σ →
    Except Thrown BootstrapPage × World σ
  | 0, page, entities, world =>
      (.ok { page with entities := entities, nextPage := none, hasMore := false }, world)
  | left + 1, page, entities, world =>
      match page.hasMore, page.nextPage with
      | true, some token =>
          match engine.nextPage (pages (10000 - left)) token world with
          | (.error thrown, world) => (.error thrown, world)
          | (.ok next, world) => readRest pages left next (entities ++ next.entities) world
      | _, _ =>
          (.ok { page with entities := entities, nextPage := none, hasMore := false }, world)

def readSnapshot (pages : Nat → PageTurn) (world : World σ) :
    Except Thrown BootstrapPage × World σ :=
  match engine.firstPage (pages 0) world with
  | (.error thrown, world) => (.error thrown, world)
  | (.ok page, world) => engine.readRest pages 10000 page page.entities world

/-- The store is replaced by the snapshot and the engine is idle again. -/
def replace (page : BootstrapPage) (world : World σ) : Except Failure Unit × World σ :=
  match engine.store.replaceFromBootstrap page world.store with
  | .error failure => (.error failure, world)
  | .ok store =>
      let world := { world with store := store }
      match engine.store.getPendingCount store with
      | .error failure => (.error failure, world)
      | .ok pendingCount =>
          (.ok (), world.setState { world.state with
            status := .idle
            pendingCount := pendingCount
            lastError := none
            needsBootstrap := false })

/-- The answer to an expired cursor. -/
def rebase (pages : Nat → PageTurn) (world : World σ) : Except Thrown Unit × World σ :=
  match engine.store.markBootstrapRequired world.store with
  | .error failure => (.error (.other failure), world)
  | .ok store =>
      match engine.readSnapshot pages { world with store := store } with
      | (.error thrown, world) => (.error thrown, world)
      | (.ok page, world) =>
          let replaced := engine.replace page world
          (replaced.1.mapError .other, replaced.2)

/-! ### The loop -/

def again (world : World σ) : World σ ⊕ Ended σ := .inl { world with round := world.round + 1 }

def stop (world : World σ) : World σ ⊕ Ended σ := .inr { world := world, answer := none }

/-- The `catch` of a round. -/
def recover (turn : Turn) (thrown : Thrown) (world : World σ) : World σ ⊕ Ended σ :=
  if thrown.cursorExpired then
    match engine.rebase turn.pages world with
    | (.ok (), world) => again world
    | (.error thrown, world) => stop (world.fail thrown)
  else
    match thrown with
    | .http error =>
        if error.status = 401 then
          stop (world.setState { world.state with
            status := .authRequired, lastError := some "登录已过期" })
        else stop (world.fail thrown)
    | .other failure =>
        if failure.onLine then stop (world.fail thrown)
        else stop (world.setState { world.state with
          status := .offline, lastError := some "当前离线，修改已保存在本机" })

/-- One call of `run`, up to the call it ends with. -/
def round (world : World σ) : World σ ⊕ Ended σ :=
  let turn := engine.transport.turns world.round
  let world := world.begin
  match engine.request world.store with
  | .error failure => engine.recover turn (.other failure) world
  | .ok body =>
      match engine.sync turn body world with
      | (.error thrown, world) => engine.recover turn thrown world
      | (.ok response, world) =>
          match engine.accept response world with
          | (.error failure, world) => engine.recover turn (.other failure) world
          | (.ok pendingCount, world) =>
              if 0 < pendingCount ∨ response.hasMore then again world
              else .inr { world := world, answer := some response }

def run : Loop (World σ) (Ended σ) where
  turn := engine.round

end SyncEngine

end ShishiTodo.Sync
