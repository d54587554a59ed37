import ShishiTodo.Lib.Machine
import ShishiTodo.Auth.Routes

/-!
# Runs of the sign-in routes

Requests in progress. Each has read its clocks and what it reads without a lock, and goes on, step by step, when the locks are free: a code request when it has the lock of its address, a verification once for the rows its statement sees and once for each lock it tries, and every other transaction when it has the row of its account.
-/

namespace ShishiTodo

namespace Auth

open Lib

/-- What a caller who is signed in asks for. -/
inductive Action where
  | logout
  | deleteDevice (deviceId : Uuid)
  | deleteAccount
  deriving DecidableEq, Repr

/-- A request in progress, by what it waits for. -/
inductive Call where
  | requestCode (email : String) (readings : Readings)
  /-- The statement that takes a code is still to begin. -/
  | select (request : VerifyCodeRequest) (readings : Readings)
  /-- It saw these rows, and these are left to try. -/
  | lock (request : VerifyCodeRequest) (readings : Readings) (seen : Table Uuid AuthCodeRow)
      (candidates : List Uuid)
  /-- It holds the lock of this code. -/
  | locked (request : VerifyCodeRequest) (readings : Readings) (seen : Table Uuid AuthCodeRow) (codeId : Uuid)
  | refresh (tokenHash : Bytes) (locator : Option RefreshLocatorRow) (readings : Readings)
  | act (auth : AuthUser) (action : Action) (begun : Instant)

/-- The code whose row a call has locked. -/
def Call.holds : Call → Option Uuid
  | .locked _ _ _ codeId => some codeId
  | _ => none

inductive Entry where
  | issued (codeId : Uuid) (row : AuthCodeRow)
  | guessed (codeId : Uuid)
  | opened (codeId sessionId : Uuid) (readings : Readings)
  | renewed (sessionId : Uuid)
  | refused (error : AppError)
  | done
  deriving DecidableEq, Repr

structure World where
  db : AuthDb
  calls : List Call

namespace World

def initial : World := ⟨.empty, []⟩

def add (call : Call) (world : World) : World := { world with calls := world.calls ++ [call] }

/-- The call goes on as another. -/
def goesOn (index : Nat) (call : Call) (world : World) : World :=
  { world with calls := world.calls.set index call }

/-- The call has its answer. -/
def ends (index : Nat) (db : AuthDb) (world : World) : World := ⟨db, world.calls.eraseIdx index⟩

def lockedByOther (codeId : Uuid) (world : World) : Bool :=
  world.calls.any fun call => call.holds == some codeId

end World

inductive Event where
  | requestCode (email : String) (readings : Readings)
  | verifyCode (request : VerifyCodeRequest) (readings : Readings)
  | refresh (request : RefreshRequest) (readings : Readings)
  | act (claims : AccessClaims) (action : Action) (readings : Readings)
  /-- The call gets what it waits for. -/
  | advance (index : Nat) (fresh : Fresh)

section Machine

variable (crypto : Crypto) (config : AuthConfig)

/-- The call a request becomes, or its refusal. -/
def begin (db : AuthDb) : Event → ApiResult Call
  | .requestCode email readings =>
      match normalizeEmail email with
      | none => .error (.validation "email must be a valid email address")
      | some email => .ok (.requestCode email readings)
  | .verifyCode request readings => do
      let request ← checkVerify config request
      return .select request readings
  | .refresh request readings => do
      let token ← presentedToken config request
      let tokenHash := crypto.refreshToken token
      return .refresh tokenHash (db.locate tokenHash) readings
  | .act claims action readings => do
      let auth ← authUser claims readings.now db
      refuseIf (action = .deleteAccount ∧ auth.issuedAt < readings.now.nanos.fdiv 1000000000 - 300)
        reauthRequired
      return .act auth action readings.begun
  | .advance _ _ => .error .database

def act (auth : AuthUser) (begun : Instant) (db : AuthDb) : Action → ApiResult Unit × AuthDb
  | .logout => logout auth begun db
  | .deleteDevice deviceId => deleteDevice auth deviceId begun db
  | .deleteAccount => deleteAccount auth begun db

/-- What a call does when it gets what it waits for. -/
def advance (index : Nat) (fresh : Fresh) (world : World) : Call → World
  | .requestCode email readings =>
      world.ends index (requestCode crypto config email readings fresh world.db).2
  | .select request readings =>
      world.goesOn index (.lock request readings world.db.authCodes
        (openCodes request.email readings.begun world.db.authCodes))
  | .lock _ _ _ [] => world.ends index world.db
  | .lock request readings seen (codeId :: rest) =>
      if world.lockedByOther codeId then world
      else match (world.db.authCodes.lookup codeId).filter (·.openFor request.email readings.begun) with
        | none => world.goesOn index (.lock request readings seen rest)
        | some _ => world.goesOn index (.locked request readings seen codeId)
  | .locked request readings _ codeId =>
      match world.db.authCodes.lookup codeId with
      | none => world.ends index world.db
      | some row => world.ends index (verifyCode crypto config request readings codeId row fresh world.db).2
  | .refresh tokenHash locator readings =>
      world.ends index (refresh crypto config tokenHash locator readings fresh world.db).2
  | .act auth action begun => world.ends index (act auth begun world.db action).2

/-- What there is to say of it. -/
def entriesOf (fresh : Fresh) (db : AuthDb) : Call → List Entry
  | .requestCode email readings =>
      match requestCode crypto config email readings fresh db with
      | (.accepted, issued) => ((issued.authCodes.lookup fresh.id).map (Entry.issued fresh.id)).toList
      | _ => []
  | .select _ _ => []
  | .lock _ _ _ [] => [.refused invalidCode]
  | .lock _ _ _ (_ :: _) => []
  | .locked request readings _ codeId =>
      match db.authCodes.lookup codeId with
      | none => [.refused invalidCode]
      | some row =>
          (if guess crypto config request.code readings.now row = .wrong then [.guessed codeId] else []) ++
            match (verifyCode crypto config request readings codeId row fresh db).1 with
            | .ok sessionId => [.opened codeId sessionId readings]
            | .error error => [.refused error]
  | .refresh tokenHash locator readings =>
      match (refresh crypto config tokenHash locator readings fresh db).1 with
      | .ok sessionId => [.renewed sessionId]
      | .error error => [.refused error]
  | .act auth action begun =>
      match (act auth begun db action).1 with
      | .ok _ => [.done]
      | .error error => [.refused error]

/-- A request becomes a call, or is refused. -/
def World.begins (world : World) : ApiResult Call → World
  | .error _ => world
  | .ok call => world.add call

def refusals : ApiResult Call → List Entry
  | .error error => [.refused error]
  | .ok _ => []

def authRuns : Machine World Event Entry where
  step world
    | .advance index fresh =>
        match world.calls[index]? with
        | none => world
        | some call => advance crypto config index fresh world call
    | event => world.begins (begin crypto config world.db event)
  emit world
    | .advance index fresh =>
        match world.calls[index]? with
        | none => []
        | some call => entriesOf crypto config fresh world.db call
    | event => refusals (begin crypto config world.db event)

end Machine

end Auth

end ShishiTodo
