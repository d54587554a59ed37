import ShishiTodo.Auth.Tables

/-!
# Sign-in routes

The transactions of `auth/routes.rs`, `devices.rs` and `account.rs` that write the sign-in tables. Each is split where it waits for a lock: what it has read before that is its argument.
-/

namespace ShishiTodo

namespace Auth

open Lib

def invalidCode : AppError := .unauthorized "INVALID_CODE" "Invalid or expired sign-in code"

def refreshInvalid : AppError :=
  .unauthorized "INVALID_REFRESH_TOKEN" "The refresh credential is invalid or expired"

def refreshReused : AppError :=
  .unauthorized "REFRESH_TOKEN_REUSED" "The refresh session has been revoked; sign in again"

def accountUnavailable : AppError := .unauthorized "ACCOUNT_UNAVAILABLE" "This account is unavailable"

def deviceConflict : AppError := .conflict "DEVICE_CONFLICT" "That device id is already in use"

def originNotAllowed : AppError := .forbidden "ORIGIN_NOT_ALLOWED" "Origin is not allowed"

def reauthRequired : AppError := .forbidden "REAUTH_REQUIRED" "Sign in again before deleting this account"

def deviceNotFound : AppError := .notFound "DEVICE_NOT_FOUND" "Device not found"

/-- The readings a request takes when it begins: its own clock, and the `now()` of its transaction. -/
structure Readings where
  now : Instant
  begun : Instant
  deriving DecidableEq, Repr

/-- `trim_end_matches('/')`. -/
def trimEndSlashes (text : String) : String :=
  String.ofList ((text.toList.reverse.dropWhile (· == '/')).reverse)

def enforceCookieOrigin (config : AuthConfig) (origin : Option String) : ApiResult Unit :=
  match origin with
  | none => .ok ()
  | some origin => refuseIf (trimEndSlashes origin ∉ config.corsOrigins) originNotAllowed

/-! ### Codes -/

namespace AuthDb

/-- `AuthRateLimiter::record`. -/
def record (key : WindowKey) (db : AuthDb) : Nat × AuthDb :=
  let count := (db.windows.lookup key).getD 0 + 1
  (count, { db with windows := db.windows.insert key count })

/-- A code sent to the address after the cutoff. -/
def recentCode (email : String) (cutoff : Instant) (db : AuthDb) : Bool :=
  db.authCodes.any fun _ row =>
    row.emailNormalized == email && decide (cutoff.nanos < row.createdAt.nanos)

end AuthDb

inductive AuthRequestLimit where
  | allowed | suppressed | globalExceeded
  deriving DecidableEq, Repr

/-- `AuthRateLimiter::check`; the clock is read once more. -/
def checkRateLimit (crypto : Crypto) (config : AuthConfig) (clock : Instant) (email : String) (db : AuthDb) :
    AuthRequestLimit × AuthDb :=
  let windowStart := clock.nanos.fdiv (config.authCodeWindowSeconds * 1000000000)
  let shared := db.record ⟨.global, List.replicate 32 0, windowStart⟩
  if config.authCodeGlobalRequestsPerWindow < shared.1 then (.globalExceeded, shared.2)
  else
    let own := shared.2.record ⟨.email, crypto.fingerprint email, windowStart⟩
    if config.authCodeRequestsPerWindow < own.1 then (.suppressed, own.2) else (.allowed, own.2)

/-- `generate_auth_code`. -/
def generateAuthCode (random : UInt32) : String :=
  let digits := (toString (random.toNat % 1000000)).toList
  String.ofList (List.replicate (6 - digits.length) '0' ++ digits)

/-- What a request draws at random when it gets there. -/
structure Fresh where
  id : Uuid
  secondId : Uuid
  thirdId : Uuid
  random : UInt32
  token : String
  clock : Instant
  deriving DecidableEq, Repr

inductive CodeRequest where
  | rateLimited
  | suppressed
  | accepted
  | failed (error : AppError)
  deriving DecidableEq, Repr

/-- The row of a code that is sent. -/
def newCode (crypto : Crypto) (config : AuthConfig) (email code : String) (readings : Readings) :
    AuthCodeRow where
  emailNormalized := email
  codeHash := crypto.authCode code
  expiresAt := (plusSeconds readings.now config.authCodeTtlSeconds).toColumn
  attempts := 0
  consumedAt := none
  createdAt := readings.begun.toColumn

/-- `request_code`, once it holds the advisory lock of the address. -/
def requestCode (crypto : Crypto) (config : AuthConfig) (email : String) (readings : Readings) (fresh : Fresh)
    (db : AuthDb) : CodeRequest × AuthDb :=
  match checkRateLimit crypto config fresh.clock email db with
  | (.globalExceeded, counted) => (.rateLimited, counted)
  | (.suppressed, counted) => (.suppressed, counted)
  | (.allowed, counted) =>
      if counted.recentCode email (plusSeconds readings.now (-config.authCodeResendSeconds)) then
        (.suppressed, counted)
      else match if config.development then config.authDevCode else some (generateAuthCode fresh.random) with
        | none => (.failed (.internal "development auth code is not configured"), db)
        | some code =>
            if (counted.authCodes.lookup fresh.id).isSome then (.failed .database, db)
            else
              (.accepted, { counted with
                authCodes := counted.authCodes.insert fresh.id (newCode crypto config email code readings) })

structure VerifyCodeRequest where
  email : String
  code : String
  deviceId : Uuid
  platform : Platform
  deviceName : String
  origin : Option String
  deriving DecidableEq, Repr

/-- `char::is_control`. -/
def isControl (c : Char) : Bool := c.toNat < 32 || decide (127 ≤ c.toNat) && decide (c.toNat < 160)

/-- What `verify_code` checks before it begins: the request with its address normalized and its device name trimmed. -/
def checkVerify (config : AuthConfig) (request : VerifyCodeRequest) : ApiResult VerifyCodeRequest := do
  if request.platform = .web then enforceCookieOrigin config request.origin
  match normalizeEmail request.email with
  | none => .error (.validation "email must be a valid email address")
  | some email => do
      refuseIf (request.code.length < 6 ∨ 8 < request.code.length ∨ ¬ request.code.toList.all Char.isDigit)
        (.validation "code must contain 6 to 8 digits")
      let deviceName := trim request.deviceName
      refuseIf (deviceName = "" ∨ 100 < deviceName.length ∨ deviceName.toList.any isControl)
        (.validation "device_name must contain between 1 and 100 printable characters")
      return { request with
        email := email
        deviceName := deviceName }

/-- The `WHERE` of the code a verification takes. -/
def AuthCodeRow.openFor (email : String) (begun : Instant) (row : AuthCodeRow) : Bool :=
  row.emailNormalized == email && row.consumedAt.isNone && decide (begun.nanos < row.expiresAt.nanos)

/-- The codes in the order in which a verification tries to lock them, the newest first. -/
def openCodes (email : String) (begun : Instant) (codes : Table Uuid AuthCodeRow) : List Uuid :=
  ((codes.entries.filter fun entry => entry.2.openFor email begun).insertionSort
    fun left right => right.2.createdAt.nanos ≤ left.2.createdAt.nanos).map Sigma.fst

inductive Guess where
  | late
  | wrong
  | exhausted
  | right
  deriving DecidableEq, Repr

/-- What the code a verification has locked says to it. -/
def guess (crypto : Crypto) (config : AuthConfig) (code : String) (now : Instant) (row : AuthCodeRow) : Guess :=
  if row.expiresAt.nanos ≤ now.nanos then .late
  else if crypto.authCode code ≠ row.codeHash then .wrong
  else if config.authCodeMaxAttempts ≤ row.attempts ∨ row.consumedAt.isSome then .exhausted
  else .right

namespace AuthDb

/-- `INSERT … ON CONFLICT (email_normalized) DO UPDATE … RETURNING`. -/
def upsertUser (email : String) (newId : Uuid) (db : AuthDb) : ApiResult (Uuid × UserRow × AuthDb) :=
  match db.users.entries.find? fun entry => entry.2.emailNormalized == email with
  | some entry => .ok (entry.1, entry.2, db)
  | none =>
      if (db.users.lookup newId).isSome then .error .database
      else
        let row := { emailNormalized := email, deletedAt := none }
        .ok (newId, row, { db with users := db.users.insert newId row })

def registerDevice (userId : Uuid) (request : VerifyCodeRequest) (db : AuthDb) : ApiResult AuthDb :=
  let row := { userId := userId, name := request.deviceName, platform := request.platform, revokedAt := none }
  match db.devices.lookup request.deviceId with
  | some existing =>
      if existing.userId ≠ userId then .error deviceConflict
      else .ok { db with devices := db.devices.insert request.deviceId row }
  | none => .ok { db with devices := db.devices.insert request.deviceId row }

/-- A row of the history of refresh tokens; both hash columns are unique. -/
def insertToken (tokenId : Uuid) (row : RefreshTokenRow) (db : AuthDb) : ApiResult AuthDb := do
  refuseIf ((db.refreshTokens.lookup tokenId).isSome ∨
    db.refreshTokens.any (fun _ other => other.tokenHash == row.tokenHash) = true) .database
  return { db with refreshTokens := db.refreshTokens.insert tokenId row }

def insertSession (sessionId : Uuid) (row : SessionRow) (db : AuthDb) : ApiResult AuthDb := do
  refuseIf ((db.sessions.lookup sessionId).isSome ∨
    db.sessions.any (fun _ other => other.refreshTokenHash == row.refreshTokenHash) = true) .database
  return { db with sessions := db.sessions.insert sessionId row }

end AuthDb

/-- `verify_code` from the account on, once the code is right. -/
def signIn (crypto : Crypto) (config : AuthConfig) (request : VerifyCodeRequest) (readings : Readings)
    (fresh : Fresh) (db : AuthDb) : ApiResult (Uuid × AuthDb) := do
  let (userId, user, db) ← db.upsertUser request.email fresh.id
  refuseIf user.deletedAt.isSome accountUnavailable
  let db ← db.registerDevice userId request
  let hash := crypto.refreshToken fresh.token
  let expiresAt := (plusSeconds readings.now config.refreshTokenTtlSeconds).toColumn
  let db ← db.insertSession fresh.secondId
    { userId := userId, deviceId := request.deviceId, refreshTokenHash := hash, expiresAt := expiresAt,
      revokedAt := none, rotatedAt := none }
  let db ← db.insertToken fresh.thirdId
    { sessionId := fresh.secondId, tokenHash := hash, expiresAt := expiresAt, rotatedAt := none,
      revokedAt := none, replacedBy := none }
  return (fresh.secondId, db)

namespace AuthDb

def consumeCode (codeId : Uuid) (begun : Instant) (db : AuthDb) : AuthDb :=
  { db with authCodes := db.authCodes.rewrite fun id row =>
      if id = codeId ∧ row.consumedAt = none then { row with consumedAt := some begun.toColumn } else row }

/-- `LEAST(attempts + 1, 10)`. -/
def countAttempt (codeId : Uuid) (db : AuthDb) : AuthDb :=
  { db with authCodes := db.authCodes.rewrite fun id row =>
      if id = codeId then { row with attempts := min (row.attempts + 1) 10 } else row }

end AuthDb

/-- `verify_code`, once it holds the lock of a code. -/
def verifyCode (crypto : Crypto) (config : AuthConfig) (request : VerifyCodeRequest) (readings : Readings)
    (codeId : Uuid) (row : AuthCodeRow) (fresh : Fresh) (db : AuthDb) : ApiResult Uuid × AuthDb :=
  match guess crypto config request.code readings.now row with
  | .late => (.error invalidCode, db)
  | .wrong => (.error invalidCode, db.countAttempt codeId)
  | .exhausted => (.error invalidCode, db.countAttempt codeId)
  | .right =>
      match signIn crypto config request readings fresh db with
      | .error error => (.error error, db)
      | .ok (sessionId, signedIn) => (.ok sessionId, signedIn.consumeCode codeId readings.begun)

/-! ### Sessions -/

structure RefreshRequest where
  cookieToken : Option String
  bodyToken : Option String
  origin : Option String
  deriving DecidableEq, Repr

/-- The token a refresh request presents. -/
def presentedToken (config : AuthConfig) (request : RefreshRequest) : ApiResult String := do
  refuseIf (request.bodyToken = some "") (.validation "refresh_token may not be empty")
  match request.cookieToken, request.bodyToken with
  | some _, some _ =>
      .error (.validation "send a refresh token in exactly one of the JSON body or cookie")
  | some token, none => do
      enforceCookieOrigin config request.origin
      return token
  | none, some token => return token
  | none, none => .error .unauthorizedSession

structure RefreshLocatorRow where
  id : Uuid
  sessionId : Uuid
  userId : Uuid
  deviceId : Uuid
  deriving DecidableEq, Repr

namespace AuthDb

/-- The token of a hash with its session, read without locks. -/
def locate (tokenHash : Bytes) (db : AuthDb) : Option RefreshLocatorRow := do
  let entry ← db.refreshTokens.entries.find? fun entry => entry.2.tokenHash == tokenHash
  let session ← db.sessions.lookup entry.2.sessionId
  return ⟨entry.1, entry.2.sessionId, session.userId, session.deviceId⟩

def ownedDevice (userId deviceId : Uuid) (db : AuthDb) : Option DeviceRow :=
  (db.devices.lookup deviceId).filter fun row => row.userId == userId

def ownedSession (sessionId userId deviceId : Uuid) (db : AuthDb) : Option SessionRow :=
  (db.sessions.lookup sessionId).filter fun row => row.userId == userId && row.deviceId == deviceId

/-- `revoke_session_refresh_tokens`, for the sessions the test selects. -/
def revokeTokens (sessions : Uuid → Bool) (now : Instant) (db : AuthDb) : AuthDb :=
  { db with refreshTokens := db.refreshTokens.rewrite fun _ row =>
      if sessions row.sessionId then row.revoke now else row }

def revokeSessions (sessions : Uuid → SessionRow → Bool) (now : Instant) (db : AuthDb) : AuthDb :=
  { db with sessions := db.sessions.rewrite fun id row => if sessions id row then row.revoke now else row }

/-- Ends a session and its tokens. -/
def endSession (sessionId : Uuid) (now : Instant) (db : AuthDb) : AuthDb :=
  (db.revokeSessions (fun id _ => id == sessionId) now).revokeTokens (· == sessionId) now

/-- A session that is found ended is dated anew. -/
def expireSession (sessionId : Uuid) (now : Instant) (db : AuthDb) : AuthDb :=
  { db with sessions := db.sessions.rewrite fun id row =>
      if id = sessionId then { row with revokedAt := some now.toColumn } else row }

/-- Ends the sessions the test selects. -/
def endSessions (test : SessionRow → Bool) (now : Instant) (db : AuthDb) : AuthDb :=
  (db.revokeSessions (fun _ row => test row) now).revokeTokens
    (fun sessionId => (db.sessions.lookup sessionId).any test) now

end AuthDb

/-- The locked token with what it belongs to. -/
structure RefreshRow where
  token : RefreshTokenRow
  session : SessionRow
  user : UserRow
  device : DeviceRow
  deriving DecidableEq, Repr

def AuthDb.refreshRow (tokenId : Uuid) (tokenHash : Bytes) (db : AuthDb) : Option RefreshRow := do
  let token ← (db.refreshTokens.lookup tokenId).filter fun row => row.tokenHash == tokenHash
  let session ← db.sessions.lookup token.sessionId
  let user ← db.users.lookup session.userId
  let device ← db.ownedDevice session.userId session.deviceId
  return ⟨token, session, user, device⟩

/-- Whether the session of a token has ended for another reason than the token. -/
def RefreshRow.ended (now : Instant) (row : RefreshRow) : Bool :=
  row.session.revokedAt.isSome || row.user.deletedAt.isSome || row.device.revokedAt.isSome ||
    decide (row.token.expiresAt.nanos ≤ now.nanos) || decide (row.session.expiresAt.nanos ≤ now.nanos)

namespace AuthDb

def retireToken (tokenId replacedBy : Uuid) (now : Instant) (db : AuthDb) : AuthDb :=
  { db with refreshTokens := db.refreshTokens.rewrite fun id row =>
      if id = tokenId ∧ row.rotatedAt = none then
        { row with
          rotatedAt := some now.toColumn
          replacedBy := some replacedBy }
      else row }

def renewSession (sessionId : Uuid) (hash : Bytes) (expiresAt now : Instant) (db : AuthDb) : AuthDb :=
  { db with sessions := db.sessions.rewrite fun id session =>
      if id = sessionId ∧ session.revokedAt = none then
        { session with
          refreshTokenHash := hash
          expiresAt := expiresAt
          rotatedAt := some now.toColumn }
      else session }

/-- The new token of a session in the place of the old one. -/
def rotate (config : AuthConfig) (tokenId : Uuid) (row : RefreshTokenRow) (hash : Bytes)
    (readings : Readings) (fresh : Fresh) (db : AuthDb) : ApiResult AuthDb := do
  let expiresAt := (plusSeconds readings.now config.refreshTokenTtlSeconds).toColumn
  let db ← db.insertToken fresh.id
    { sessionId := row.sessionId, tokenHash := hash, expiresAt := expiresAt, rotatedAt := none,
      revokedAt := none, replacedBy := none }
  refuseIf (db.sessions.any (fun id other => id != row.sessionId && other.refreshTokenHash == hash) = true)
    .database
  -- The session is locked and not revoked, so its update finds it.
  return (db.retireToken tokenId fresh.id readings.begun).renewSession row.sessionId hash expiresAt
    readings.begun

end AuthDb

/-- `refresh`, once it holds its locks. -/
def refresh (crypto : Crypto) (config : AuthConfig) (tokenHash : Bytes) (locator : Option RefreshLocatorRow)
    (readings : Readings) (fresh : Fresh) (db : AuthDb) : ApiResult Uuid × AuthDb :=
  match locator with
  | none => (.error refreshInvalid, db)
  | some locator =>
      if (db.users.lookup locator.userId).isNone ∨
          (db.ownedDevice locator.userId locator.deviceId).isNone ∨
          (db.ownedSession locator.sessionId locator.userId locator.deviceId).isNone then
        (.error refreshInvalid, db)
      else match db.refreshRow locator.id tokenHash with
        | none => (.error refreshInvalid, db)
        | some row =>
            if row.token.rotatedAt.isSome ∨ row.token.revokedAt.isSome then
              (.error refreshReused, db.endSession row.token.sessionId readings.begun)
            else if row.ended readings.now then
              (.error refreshInvalid,
                (db.expireSession row.token.sessionId readings.begun).revokeTokens (· == row.token.sessionId)
                  readings.begun)
            else
              match db.rotate config locator.id row.token (crypto.refreshToken fresh.token) readings fresh with
              | .error error => (.error error, db)
              | .ok rotated => (.ok row.token.sessionId, rotated)

/-- The claims of an access token. -/
structure AccessClaims where
  sub : Uuid
  sid : Uuid
  did : Uuid
  iat : Int
  deriving DecidableEq, Repr

structure AuthUser where
  userId : Uuid
  sessionId : Uuid
  deviceId : Uuid
  issuedAt : Int
  deriving DecidableEq, Repr

/-- The extractor of `AuthUser`, for a token that decodes to the claims. -/
def authUser (claims : AccessClaims) (now : Instant) (db : AuthDb) : ApiResult AuthUser :=
  match (db.sessions.lookup claims.sid).filter fun row => row.userId == claims.sub with
  | none => .error .unauthorizedSession
  | some session =>
      match db.users.lookup session.userId, db.ownedDevice session.userId session.deviceId with
      | some user, some device =>
          if session.deviceId ≠ claims.did ∨ session.expiresAt.nanos ≤ now.nanos ∨
              session.revokedAt.isSome ∨ user.deletedAt.isSome ∨ device.revokedAt.isSome then
            .error .unauthorizedSession
          else .ok ⟨claims.sub, claims.sid, session.deviceId, claims.iat⟩
      | _, _ => .error .unauthorizedSession

def logout (auth : AuthUser) (begun : Instant) (db : AuthDb) : ApiResult Unit × AuthDb :=
  if (db.users.lookup auth.userId).isNone ∨ (db.ownedDevice auth.userId auth.deviceId).isNone ∨
      (db.ownedSession auth.sessionId auth.userId auth.deviceId).isNone then
    (.error .unauthorizedSession, db)
  else (.ok (), db.endSession auth.sessionId begun)

def deleteDevice (auth : AuthUser) (deviceId : Uuid) (begun : Instant) (db : AuthDb) :
    ApiResult Unit × AuthDb :=
  match (db.users.lookup auth.userId).filter fun user => user.deletedAt.isNone with
  | none => (.error .unauthorizedSession, db)
  | some _ =>
      match db.ownedDevice auth.userId deviceId with
      | none => (.error deviceNotFound, db)
      | some device =>
          if device.revokedAt.isSome then (.ok (), db)
          else
            (.ok (), ({ db with
              devices := db.devices.insert deviceId (device.revoke begun) } : AuthDb).endSessions
                (fun session => session.userId == auth.userId && session.deviceId == deviceId) begun)

def deleteAccount (auth : AuthUser) (begun : Instant) (db : AuthDb) : ApiResult Unit × AuthDb :=
  match db.users.lookup auth.userId with
  | none => (.error .unauthorizedSession, db)
  | some user =>
      if user.deletedAt.isSome then (.ok (), db)
      else
        (.ok (), ({ db with
          users := db.users.insert auth.userId { user with deletedAt := some begun.toColumn }
          devices := db.devices.rewrite fun _ device =>
            if device.userId = auth.userId then device.revoke begun else device } : AuthDb).endSessions
              (fun session => session.userId == auth.userId) begun)

end Auth

end ShishiTodo
