import ShishiTodo.Web.Outbox
import ShishiTodo.Server.Runs

/-!
# One browser and the server

A `DexieTaskRepository` next to a server that other clients write to. A round of `SyncEngine.run` reads the device id, the pending operations and the cursor one after another, sends a request, and later applies the answer. Any number of rounds may be under way, and anything may happen between two steps of one. The server may serve a request once, again or never.
-/

namespace ShishiTodo.Web

open Lib Native Sync

/-! ### Rounds -/

inductive Round where
  /-- The device id is read. -/
  | started (deviceId : String)
  /-- The pending operations are read. -/
  | holding (deviceId : String) (ops : List SyncOp) (limit : Nat)
  | sent (body : SyncBody) (answer : Option SyncResponse)
  /-- The rows the acknowledgements name are read. -/
  | answered (response : SyncResponse) (acknowledged : List String)
  | finished
  deriving DecidableEq, Repr

/-- The operations a round is about to send, with its device id. -/
def Round.held : Round → List (String × SyncOp)
  | .holding deviceId ops _ => ops.map fun op => (deviceId, op)
  | _ => []

/-! ### The machine -/

/-- A transaction of the repository outside the rounds. -/
inductive ClientCall where
  | localWrite (rows : Tables) (edits : List Edit)
  | importData (bundle : ExportBundle) (mode : ImportMode)
  | clearAll
  | syncSetSession (sessionId : String)
  | syncClearSession (expectedToken : Option String)
  | syncRotateDevice (deviceId : String)
  | syncSetEnabled (enabled : Bool)
  | syncMarkBootstrapRequired
  | syncClearAccountBinding
  | deleteRejected (opIds : List String) (rows : Tables)
  | syncReplaceSnapshot (snapshot : CloudSnapshot) (rows : Tables) (sessionId : Option String)
  | syncInitializeCloud (now : String) (opIds : Nat → String) (snapshot : CloudSnapshot)
      (mode : CloudMergeMode) (accountEmail : String) (sessionId : Option String)

/-- A transaction that throws is rolled back. -/
def orRollBack (db : Db) (result : StoreResult Db) : Db := result.toOption.getD db

def ClientCall.run (db : Db) : ClientCall → Db
  | .localWrite rows edits => Web.localWrite db rows edits
  | .importData bundle mode => orRollBack db (Web.importData db bundle mode)
  | .clearAll => Web.clearAll db
  | .syncSetSession sessionId => Web.syncSetSession db sessionId
  | .syncClearSession expectedToken => Web.syncClearSession db expectedToken
  | .syncRotateDevice deviceId => Web.syncRotateDevice db deviceId
  | .syncSetEnabled enabled => Web.syncSetEnabled db enabled
  | .syncMarkBootstrapRequired => Web.syncMarkBootstrapRequired db
  | .syncClearAccountBinding => Web.syncClearAccountBinding db
  | .deleteRejected opIds rows => Web.deleteRejected db opIds rows
  | .syncReplaceSnapshot snapshot rows sessionId =>
      orRollBack db (Web.syncReplaceSnapshot db snapshot rows sessionId)
  | .syncInitializeCloud now opIds snapshot mode accountEmail sessionId =>
      orRollBack db ((Web.syncInitializeCloud db now opIds snapshot mode accountEmail sessionId).map
        Prod.snd)

/-- The device id that a call draws. -/
def ClientCall.drawn : ClientCall → List String
  | .syncRotateDevice deviceId => [deviceId]
  | _ => []

structure World where
  client : Db
  rounds : List Round
  server : ShishiTodo.Db
  /-- Every operation a request of the repository carried, with the request's device id. -/
  sent : List (String × SyncOp)
  /-- The device ids the repository has drawn. -/
  own : List String
  /-- The devices other clients have used. -/
  others : List Uuid

/-- The repository after its first `initialize`, with the rows of the seed. -/
def Db.fresh (deviceId : String) (rows : Tables) : Db where
  rows := rows
  mutations := ∅
  shadow := ∅
  kv := {
    deviceId := deviceId
    clientSeq := 0
    syncEnabled := false
    syncCursor := "0"
    boundAccount := ""
    bootstrapRequired := false
    syncSession := none }

def World.init (deviceId : String) (rows : Tables) : World where
  client := .fresh deviceId rows
  rounds := []
  server := .empty
  sent := []
  own := [deviceId]
  others := []

inductive Event where
  | client (call : ClientCall)
  /-- A round starts, and reads the device id. -/
  | begin
  | getPending (index limit : Nat)
  /-- The round reads the cursor and sends its request. -/
  | send (index : Nat)
  /-- The request reaches the server. -/
  | serve (index : Nat) (clock : Clock) (auth : AuthUser)
  /-- The answer arrives, and the rows it acknowledges are read. -/
  | receive (index : Nat)
  | applyResult (index : Nat) (rows : Tables) (shadow : Table RowKey ShadowRow)
      (sessionId : Option String)
  | giveUp (index : Nat)
  /-- What the server does for others, or on its own. -/
  | server (event : ServerEvent)

namespace World

variable (env : Env) (world : World)

def setRound (index : Nat) (round : Round) : World :=
  { world with rounds := world.rounds.set index round }

def send (index : Nat) (deviceId : String) (ops : List SyncOp) (limit : Nat) : World :=
  let body : SyncBody := {
    deviceId := deviceId
    cursor := world.client.kv.syncCursor
    ops := ops
    limit := limit }
  { world.setRound index (.sent body none) with
    sent := world.sent ++ ops.map fun op => (deviceId, op) }

/-- The rows of the outbox that the acknowledgements name. -/
def acknowledged (response : SyncResponse) : List String :=
  (response.ack.map fun ack => env.uuid.render ack.opId).filter fun opId =>
    (world.client.mutations.lookup opId).isSome

/-- The request of a round, when the server can read its body. -/
def request (index : Nat) : Option (SyncBody × SyncRequest) :=
  match world.rounds[index]? with
  | some (.sent body _) => (body.read env).map fun request => (body, request)
  | _ => none

def serve (index : Nat) (clock : Clock) (auth : AuthUser) (body : SyncBody) (request : SyncRequest) :
    World :=
  let (answer, server) := serveSync env clock auth request world.server
  { world.setRound index (.sent body answer.toOption) with server := server }

/-- The device of a request that another client sends. -/
def otherDevice : ServerEvent → List Uuid
  | .request _ auth _ => [auth.deviceId]
  | _ => []

def step : Event → World
  | .client call => { world with
      client := call.run world.client
      own := world.own ++ call.drawn }
  | .begin => { world with rounds := world.rounds ++ [.started world.client.kv.deviceId] }
  | .getPending index limit =>
      match world.rounds[index]? with
      | some (.started deviceId) =>
          world.setRound index (.holding deviceId (syncGetPending world.client limit) limit)
      | _ => world
  | .send index =>
      match world.rounds[index]? with
      | some (.holding deviceId ops limit) => world.send index deviceId ops limit
      | _ => world
  | .serve index clock auth =>
      match world.request env index with
      | some (body, request) => world.serve env index clock auth body request
      | none => world
  | .receive index =>
      match world.rounds[index]? with
      | some (.sent _ (some response)) =>
          world.setRound index (.answered response (world.acknowledged env response))
      | _ => world
  | .applyResult index rows shadow sessionId =>
      match world.rounds[index]? with
      | some (.answered response acknowledged) => { world.setRound index .finished with
          client := orRollBack world.client
            (syncApplyResult env world.client response acknowledged rows shadow sessionId) }
      | _ => world
  | .giveUp index => world.setRound index .finished
  | .server event => { world with
      server := serverStep env world.server event
      others := world.others ++ otherDevice event }

/-- The iterations of the server's batch loops. -/
def emit : Event → List OpStep
  | .serve index clock auth =>
      match world.request env index with
      | some (_, request) => requestSteps env clock auth request world.server
      | none => []
  | .server event => serverEmit env world.server event
  | _ => []

end World

def rounds (env : Env) : Machine World Event OpStep where
  step := World.step env
  emit := World.emit env

end ShishiTodo.Web
