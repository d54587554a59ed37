import ShishiTodo.Recurring.Service
import ShishiTodo.Server.Runs

/-!
# The devices of one account

Any number of native devices and the server. A call of the service and a round of the sync engine are taken apart into their steps, so that between any two of them anything else may happen; an answer may also come late or never. A step whose turn it is not leaves everything alone.
-/

namespace ShishiTodo.Recurring

open Lib Native Sync

structure Household where
  db : Db
  stores : Uuid → Store
  /-- The identifiers that `newUuidV7` has returned. -/
  drawn : List Uuid
  /-- The calls that have read, with their device. -/
  calls : List (Uuid × Call)
  requests : List (Uuid × SyncBody)
  answers : List (Uuid × SyncResponse)

inductive Event where
  | signIn (device : Uuid)
  | createTask (device id : Uuid) (input : NewTask) (supply : Supply)
  | patchTask (device : Uuid) (id : String) (patch : Native.TaskPatch) (supply : Supply)
  | deleteTask (device : Uuid) (id : String) (supply : Supply)
  | restoreTask (device : Uuid) (id : String) (supply : Supply)
  | completeTask (device : Uuid) (id : String) (reading : Reading) (newId : Uuid)
  | uncompleteTask (device : Uuid) (id : String)
  | write (index : Nat) (supply : Supply)
  | send (device : Uuid) (limit : Nat)
  | serve (index : Nat) (clock : Clock)
  | receive (index : Nat) (sessionId : Option String) (now : String)
  | clearRejected (device : Uuid) (now : String)

namespace Household

/-- The devices are bound to the account and have nothing yet. -/
def start (env : Env) (userId : Uuid) : Household where
  db := Db.empty.signUp userId
  stores device := syncSetEnabled (.open (env.uuid.render device)) true
  drawn := []
  calls := []
  requests := []
  answers := []

variable (household : Household)

def withStore (device : Uuid) (store : Store) : Household :=
  { household with stores := Function.update household.stores device store }

def draw (id : Uuid) : Household := { household with drawn := id :: household.drawn }

/-- A transaction of a device; an error rolls it back. -/
def commit (device : Uuid) (outcome : StoreResult Store) : Household :=
  match outcome with
  | .ok store => household.withStore device store
  | .error _ => household

/-- A call that has something to write goes on. -/
def goOn (device : Uuid) (outcome : Except ServiceError (Option Call)) : Household :=
  match outcome with
  | .ok (some call) => { household with calls := household.calls ++ [(device, call)] }
  | .ok none | .error _ => household

def serve (env : Env) (userId device : Uuid) (body : SyncBody) (clock : Clock) : Household :=
  match body.read env with
  | none => household
  | some request =>
      match serveSync env clock ⟨userId, device⟩ request household.db with
      | (.ok response, db) =>
          { household with db := db, answers := household.answers ++ [(device, response)] }
      | (.error _, db) => { household with db := db }

end Household

section

variable (env : Env) (texts : Texts) (userId : Uuid)

/-- What a step leaves of the household. -/
def householdStep (household : Household) : Event → Household
  | .signIn device => { household with db := household.db.signIn ⟨userId, device⟩ }
  | .createTask device id input supply =>
      if id ∈ household.drawn then household
      else (household.draw id).commit device
        ((Native.createTask texts { supply with id := env.uuid.render id } (household.stores device)
          input).map fun created => created.2.store)
  | .patchTask device id patch supply =>
      household.commit device
        ((Native.patchTask texts supply (household.stores device) id patch).map fun patched =>
          patched.2.store)
  | .deleteTask device id supply =>
      household.commit device ((Native.deleteTask supply (household.stores device) id).map Tx.store)
  | .restoreTask device id supply =>
      household.commit device ((Native.restoreTask supply (household.stores device) id).map Tx.store)
  | .completeTask device id reading newId =>
      if newId ∈ household.drawn then household
      else (household.draw newId).goOn device
        (completeTask (household.stores device) id reading (env.uuid.render newId))
  | .uncompleteTask device id =>
      household.goOn device (uncompleteTask (household.stores device) id)
  | .write index supply =>
      match household.calls[index]? with
      | none => household
      | some (device, call) =>
          { household with calls := household.calls.eraseIdx index }.commit device
            ((call.write texts supply (household.stores device)).map Tx.store)
  | .send device limit =>
      { household with
        requests := household.requests ++ [(device, syncRequest (household.stores device) limit)] }
  | .serve index clock =>
      match household.requests[index]? with
      | none => household
      | some (device, body) => household.serve env userId device body clock
  | .receive index sessionId now =>
      match household.answers[index]? with
      | none => household
      | some (device, response) =>
          household.commit device (applyServerResult texts now (household.stores device)
            (serverResult env response sessionId))
  | .clearRejected device now =>
      household.commit device (syncClearRejected texts now (household.stores device))

/-- The series and the key of an occurrence. -/
abbrev Occurrence := String × String

/-- The occurrence that a task is, when it belongs to a series. -/
def occurrence (task : Task) : Option Occurrence := do
  let seriesId ← task.seriesId
  let occurrenceKey ← task.occurrenceKey
  return (seriesId, occurrenceKey)

/-- The occurrence that a completion inserts. -/
def householdEmit (household : Household) : Event → List Occurrence
  | .write index supply =>
      match household.calls[index]? with
      | none => []
      | some (device, call) =>
          match call.write texts supply (household.stores device) with
          | .ok _ => (call.next.bind occurrence).toList
          | .error _ => []
  | _ => []

/-- The household takes steps, and emits the occurrences that completions insert. -/
def household : Machine Household Event Occurrence where
  step := householdStep env texts userId
  emit := householdEmit texts

end

/-! ### One task for each occurrence -/

/-- The live tasks of a device are different occurrences. -/
def OneEach (tables : Tables) : Prop :=
  ∀ id other task twin, tables.tasks.lookup id = some task → tables.tasks.lookup other = some twin →
    task.deletedAt = none → twin.deletedAt = none →
    ∀ shared, occurrence task = some shared → occurrence twin = some shared → id = other

/-- The live tasks of the account are different occurrences. -/
def ServerOneEach (entities : Entities) (userId : Uuid) : Prop :=
  ∀ id other row twin, entities.tasks.lookup id = some row → entities.tasks.lookup other = some twin →
    row.userId = userId → twin.userId = userId → row.deletedAt = none → twin.deletedAt = none →
    ∀ seriesId occurrenceKey, row.values.seriesId = some seriesId →
      row.values.occurrenceKey = some occurrenceKey → twin.values.seriesId = some seriesId →
      twin.values.occurrenceKey = some occurrenceKey → id = other

/-- Every device and the server hold at most one live task for each occurrence. -/
structure Household.OneEach (household : Household) (userId : Uuid) : Prop where
  devices : ∀ device, Recurring.OneEach (household.stores device).rows.val
  server : ServerOneEach household.db.entities userId

end ShishiTodo.Recurring
