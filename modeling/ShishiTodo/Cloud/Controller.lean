import ShishiTodo.Domain
import ShishiTodo.Lib.Machine

/-!
# The cloud controller and its fence

The part of `createCloudController` that keeps sessions apart: a generation counted in memory, a token that is drawn for every session and stored in the database, and a queue of writes of that token. Whatever waits in the controller carries the session it was begun under; what a response brings is data that the caller chooses, and so is what committing it does.
-/

namespace ShishiTodo

namespace Cloud

open Lib

structure Session where
  generation : Nat
  token : Uuid
  deriving DecidableEq, Repr

/-! ### The database -/

inductive StoreError where
  | staleSyncSession
  deriving DecidableEq, Repr

structure Database (δ : Type) where
  session : Option Uuid
  data : δ
  deriving DecidableEq, Repr

/-- `sync_clear_session_if` on the stored token. -/
def clearSessionIf (expected stored : Option Uuid) : Option Uuid :=
  match expected with
  | none => stored
  | some expected => if stored ≠ some expected then stored else none

namespace Database

variable {δ : Type}

def assertSyncSession (expected : Option Uuid) (database : Database δ) : Except StoreError Unit :=
  match expected with
  | none => .ok ()
  | some expected => if database.session ≠ some expected then .error .staleSyncSession else .ok ()

/-- The transaction of a result, a snapshot or a first initialization that arrived under a token. -/
def commit (apply : δ → δ) (token : Uuid) (database : Database δ) : Except StoreError (Database δ) := do
  database.assertSyncSession (some token)
  return { database with data := apply database.data }

end Database

/-! ### The queue of fence writes -/

/-- A write of the stored token, by the generation it was queued in. -/
inductive Fence where
  | write (generation : Nat) (token : Uuid)
  | clear (generation : Nat) (expected : Option Uuid)
  deriving DecidableEq, Repr

namespace Fence

def generation : Fence → Nat
  | write generation _ => generation
  | clear generation _ => generation

/-- What it leaves of the stored token. -/
def execute : Fence → Option Uuid → Option Uuid
  | write _ token, _ => some token
  | clear _ expected, stored => clearSessionIf expected stored

end Fence

/-! ### The controller -/

/-- A request that is on its way, or its response on the way to the database. -/
structure Call (δ : Type) where
  session : Session
  /-- What committing the response does, once it is there. -/
  response : Option (δ → δ)

structure World (δ : Type) where
  sessionGeneration : Nat
  sessionToken : Option Uuid
  disposed : Bool
  /-- The queue behind `fenceTail`. -/
  queue : List Fence
  /-- The write at its head, once it has passed its check and is with the store. -/
  running : Option Fence
  /-- Calls of `beginSession` that wait for their write. -/
  waiting : List Session
  /-- The sessions `beginSession` has returned. -/
  begun : List Session
  /-- Every engine that was installed, by its session. An older one may be in the middle of a run. -/
  engines : List Session
  calls : List (Call δ)
  database : Database δ

namespace World

variable {δ : Type}

/-- A new controller over a database that an earlier one may have left. -/
def start (database : Database δ) : World δ where
  sessionGeneration := 0
  sessionToken := none
  disposed := false
  queue := []
  running := none
  waiting := []
  begun := []
  engines := []
  calls := []
  database := database

def isCurrentGeneration (generation : Nat) (world : World δ) : Bool :=
  !world.disposed && generation == world.sessionGeneration

def enqueue (fence : Fence) (world : World δ) : World δ := { world with queue := world.queue ++ [fence] }

/-- `beginSession` up to where it waits, with the token that is drawn. -/
def beginSession (token : Uuid) (world : World δ) : World δ :=
  if world.disposed then world
  else
    let generation := world.sessionGeneration + 1
    ({ world with
      sessionGeneration := generation
      sessionToken := some token
      waiting := world.waiting ++ [⟨generation, token⟩] } : World δ).enqueue (.write generation token)

/-- Whether a write of the generation is still to come to its end. -/
def awaits (generation : Nat) (world : World δ) : Bool :=
  (world.running.toList ++ world.queue).any fun fence => fence.generation == generation

/-- `beginSession` after its write: the session, unless it is stale. -/
def resume (index : Nat) (world : World δ) : World δ :=
  match world.waiting[index]? with
  | none => world
  | some session =>
      if world.awaits session.generation then world
      else
        let rest := { world with waiting := world.waiting.eraseIdx index }
        if world.isCurrentGeneration session.generation ∧ world.sessionToken = some session.token then
          { rest with begun := session :: rest.begun }
        else rest

def invalidateSession (world : World δ) : World δ :=
  let generation := world.sessionGeneration + 1
  ({ world with
    sessionGeneration := generation
    sessionToken := none } : World δ).enqueue (.clear generation world.sessionToken)

def dispose (world : World δ) : World δ := { world with disposed := true }.invalidateSession

def installEngine (session : Session) (world : World δ) : World δ :=
  if session ∈ world.begun then { world with engines := session :: world.engines } else world

/-- The check of the write at the head of the queue. -/
def checkFence (world : World δ) : World δ :=
  match world.running, world.queue with
  | none, fence :: rest =>
      if fence.generation = world.sessionGeneration then
        { world with
          queue := rest
          running := some fence }
      else { world with queue := rest }
  | _, _ => world

/-- The transaction of the write that is with the store. -/
def executeFence (world : World δ) : World δ :=
  match world.running with
  | none => world
  | some fence =>
      { world with
        running := none
        database := { world.database with session := fence.execute world.database.session } }

/-- A round of an engine. -/
def syncRound (session : Session) (world : World δ) : World δ :=
  if session ∈ world.engines then { world with calls := world.calls ++ [⟨session, none⟩] } else world

def forceBootstrap (world : World δ) : World δ :=
  match world.sessionToken with
  | none => world
  | some token =>
      if world.disposed then world
      else { world with calls := world.calls ++ [⟨⟨world.sessionGeneration, token⟩, none⟩] }

/-- `syncInitializeCloud` with a session that `beginSession` returned; the snapshot is there already. -/
def initializeCloud (session : Session) (apply : δ → δ) (world : World δ) : World δ :=
  if session ∈ world.begun then { world with calls := world.calls ++ [⟨session, some apply⟩] } else world

/-- A response arrives. It goes on to the database if its session is current. -/
def respond (index : Nat) (apply : δ → δ) (world : World δ) : World δ :=
  match world.calls[index]? with
  | some ⟨session, none⟩ =>
      if world.isCurrentGeneration session.generation then
        { world with calls := world.calls.set index ⟨session, some apply⟩ }
      else { world with calls := world.calls.eraseIdx index }
  | _ => world

/-- The transaction of a response. -/
def transact (index : Nat) (world : World δ) : World δ :=
  match world.calls[index]? with
  | some ⟨session, some apply⟩ =>
      let rest := { world with calls := world.calls.eraseIdx index }
      match world.database.commit apply session.token with
      | .error _ => rest
      | .ok database => { rest with database := database }
  | _ => world

end World

inductive Event (δ : Type) where
  | beginSession (token : Uuid)
  | resume (index : Nat)
  | invalidateSession
  | dispose
  | installEngine (session : Session)
  | checkFence
  | executeFence
  | syncRound (session : Session)
  | forceBootstrap
  | initializeCloud (session : Session) (apply : δ → δ)
  | respond (index : Nat) (apply : δ → δ)
  | transact (index : Nat)

/-- What was obtained under the token is committed. -/
structure Committed where
  token : Uuid
  deriving DecidableEq, Repr

def cloudRuns (δ : Type) : Machine (World δ) (Event δ) Committed where
  step world
    | .beginSession token => world.beginSession token
    | .resume index => world.resume index
    | .invalidateSession => world.invalidateSession
    | .dispose => world.dispose
    | .installEngine session => world.installEngine session
    | .checkFence => world.checkFence
    | .executeFence => world.executeFence
    | .syncRound session => world.syncRound session
    | .forceBootstrap => world.forceBootstrap
    | .initializeCloud session apply => world.initializeCloud session apply
    | .respond index apply => world.respond index apply
    | .transact index => world.transact index
  emit world
    | .transact index =>
        match world.calls[index]? with
        | some ⟨session, some apply⟩ =>
            match world.database.commit apply session.token with
            | .error _ => []
            | .ok _ => [⟨session.token⟩]
        | _ => []
    | _ => []

end Cloud

end ShishiTodo
