import ShishiTodo.Shared.Engine
import ShishiTodo.Lib.Machine

/-!
# One member and the server

One `SharedSyncEngine` next to a server that every member writes to. Requests of the engine wait in exchanges: the server may serve one at any time, the answer may arrive at any later time, and either may be lost. Between any two transactions of the engine anything else may happen.
-/

namespace ShishiTodo

open Lib

/-- `opRequest`. A create always has its title. -/
def opRequest (op : SharedOpRecord) (revision : Int) : SharedRequest :=
  match op.kind with
  | .create =>
      .createTask op.listId (some revision) {
        id := some op.taskId
        title := op.patch.title.getD ""
        note := op.patch.note
        important := op.patch.important
        dueOn := op.patch.dueOn.getD none
        revision := none
        opId := some op.opId }
  | .patch =>
      .patchTask op.listId op.taskId (some revision) {
        title := op.patch.title
        note := op.patch.note
        status := op.patch.status.map TaskStatus.asStr
        important := op.patch.important
        dueOn := op.patch.dueOn
        revision := none
        opId := some op.opId }
  | .delete =>
      .deleteTask op.listId op.taskId (some revision) { revision := none, opId := some op.opId }

/-- What the engine asks the server for. -/
inductive EngineCall where
  | push (op : SharedOpRecord) (expected : Int)
  | pull (listId : Uuid)
  | index
  | createList (request : CreateListRequest)
  | accept (invitationId opId : Uuid)
  deriving DecidableEq, Repr

def EngineCall.request : EngineCall → SharedRequest
  | .push op expected => opRequest op expected
  | .pull listId => .getList listId
  | .index => .listLists
  | .createList request => .createList request
  | .accept invitationId opId => .acceptInvitation invitationId (some opId)

structure Exchange where
  call : EngineCall
  /-- Whether the engine still waits for the answer. -/
  waiting : Bool
  answer : Option (ApiResult SharedResponse)

/-- What the engine does with the answer to a request. -/
def SharedSpace.answered (space : SharedSpace) (call : EngineCall)
    (answer : ApiResult SharedResponse) (now : Instant) : SharedSpace :=
  match call, answer with
  | .push op expected, .ok response =>
      space.settle op.listId op expected (knownResult op expected response) now
  | .push op expected, .error error => space.pushFailed op expected error now
  | .pull listId, .ok (.snapshot snapshot) => space.pulled listId snapshot now
  | .pull listId, .error error =>
      match accessLoss error with
      | some access => space.loseAccess listId access error.code
      | none => space
  | .index, .ok (.lists summaries) => space.indexed summaries
  | .createList _, .ok (.list summary) => space.putList (emptyRecord summary)
  | .accept _ _, .ok (.list summary) => space.joined summary
  | _, _ => space

structure MemberState where
  db : SharedDb
  /-- Every state the server has committed. -/
  history : List SharedDb
  space : SharedSpace
  /-- What `nextPending` returned, until it is pushed. -/
  selected : Option SharedOpRecord
  exchanges : List Exchange
  /-- The operations the engine has made, with their list and task. -/
  issued : Table Uuid (Uuid × Uuid)

def MemberState.init : MemberState where
  db := .empty
  history := [.empty]
  space := .empty
  selected := none
  exchanges := []
  issued := ∅

inductive MemberEvent where
  | register (userId : Uuid) (account : AccountRow)
  /-- A request of another member, or of the member's other devices. -/
  | serve (call : SharedCall) (request : SharedRequest)
  | createTask (listId opId taskId : Uuid) (input : NewSharedTask) (now : Instant)
  | updateTask (listId opId taskId : Uuid) (patch : SharedTaskPatch) (now : Instant)
  | deleteTask (listId opId taskId : Uuid) (now : Instant)
  | discardOp (listId opId : Uuid)
  | retryOp (listId opId : Uuid)
  | removeLocalCopy (listId : Uuid)
  | selectOp (listId : Uuid)
  | startPush
  | startPull (listId : Uuid)
  | startIndex
  | startCreateList (request : CreateListRequest)
  | startAccept (invitationId opId : Uuid)
  /-- The request of an exchange reaches the server. -/
  | deliver (index : Nat) (now : Instant) (newId receiptId : Uuid)
  /-- The answer of an exchange reaches the engine. -/
  | receive (index : Nat) (now : Instant)
  /-- The engine gives up on an exchange. -/
  | lose (index : Nat)

namespace MemberState

variable (account : Uuid) (state : MemberState)

/-- No operation, of the engine or on the server, has the identifier. -/
def freshOp (opId : Uuid) : Bool :=
  (state.issued.lookup opId).isNone && !state.db.receipts.any fun key _ => key.2 == opId

/-- A request of the account under an identifier that no operation of the engine has. -/
def elsewhere (call : SharedCall) (request : SharedRequest) : Bool :=
  call.actor != account || (state.issued.lookup (request.opId.getD call.receiptId)).isNone

def committed (db : SharedDb) : MemberState :=
  { state with db := db, history := db :: state.history }

def serve (call : SharedCall) (request : SharedRequest) : MemberState :=
  if state.elsewhere account call request then
    state.committed (serveShared call state.db request).2
  else state

/-- A local edit, under a new operation. -/
def edited (listId opId taskId : Uuid) (space : SharedSpace) : MemberState :=
  if state.freshOp opId then
    { state with space := space, issued := state.issued.insert opId (listId, taskId) }
  else state

def started (call : EngineCall) : MemberState :=
  { state with exchanges := state.exchanges ++ [{ call := call, waiting := true, answer := none }] }

/-- The start of `push`: the list must be active and have a copy, whose revision is expected. -/
def pushSelected : MemberState :=
  match state.selected with
  | none => state
  | some op =>
      let record := (state.space.lists.lookup op.listId).filter fun record =>
        record.access == .active && record.snapshot.isSome
      match record with
      | none => { state with selected := none }
      | some record => { state with selected := none }.started (.push op record.revision)

def setExchange (index : Nat) (exchange : Exchange) : MemberState :=
  { state with exchanges := state.exchanges.set index exchange }

/-- A push has its operation; the other requests of the engine have new identifiers. -/
def admits (call : SharedCall) : EngineCall → Bool
  | .push _ _ => true
  | other => state.elsewhere account call other.request

/-- The server serves the request of an exchange, once. -/
def delivered (index : Nat) (call : SharedCall) : MemberState :=
  match state.exchanges[index]? with
  | none => state
  | some exchange =>
      if exchange.answer.isSome || !state.admits account call exchange.call then state
      else
        let served := serveShared call state.db exchange.call.request
        (state.committed served.2).setExchange index { exchange with answer := some served.1 }

def received (index : Nat) (now : Instant) : MemberState :=
  match state.exchanges[index]? with
  | none => state
  | some exchange =>
      match exchange.waiting, exchange.answer with
      | true, some answer =>
          { state with space := state.space.answered exchange.call answer now }.setExchange index
            { exchange with waiting := false }
      | _, _ => state

def lost (index : Nat) : MemberState :=
  match state.exchanges[index]? with
  | none => state
  | some exchange => state.setExchange index { exchange with waiting := false }

def step : MemberEvent → MemberState
  | .register userId row =>
      if (state.db.users.lookup userId).isSome then state
      else state.committed { state.db with users := state.db.users.insert userId row }
  | .serve call request => state.serve account call request
  | .createTask listId opId taskId input now =>
      state.edited listId opId taskId (state.space.createTask listId opId taskId input now)
  | .updateTask listId opId taskId patch now =>
      state.edited listId opId taskId (state.space.updateTask listId opId taskId patch now)
  | .deleteTask listId opId taskId now =>
      state.edited listId opId taskId (state.space.deleteTask listId opId taskId now)
  | .discardOp listId opId => { state with space := state.space.discardOp listId opId }
  | .retryOp listId opId => { state with space := state.space.retryOp listId opId }
  | .removeLocalCopy listId => { state with space := state.space.removeLocalCopy listId }
  | .selectOp listId => { state with selected := state.space.nextPending listId }
  | .startPush => state.pushSelected
  | .startPull listId => state.started (.pull listId)
  | .startIndex => state.started .index
  | .startCreateList request => state.started (.createList request)
  | .startAccept invitationId opId => state.started (.accept invitationId opId)
  | .deliver index now newId receiptId =>
      state.delivered account index
        { actor := account, now := now, newId := newId, receiptId := receiptId }
  | .receive index now => state.received index now
  | .lose index => state.lost index

end MemberState

/-- The runs of the member's engine with everything that happens around it. -/
def memberRuns (account : Uuid) : Machine MemberState MemberEvent Unit where
  step := MemberState.step account
  emit := fun _ _ => []

end ShishiTodo
