import ShishiTodo.Shared.Server

/-!
# Sign-in tables

What the sign-in routes of the API keep: accounts and their devices, sessions with the history of their refresh tokens, the codes that were sent, and the windows of the rate limiter. Hashes come in through `Crypto`; nothing is assumed of them.
-/

namespace ShishiTodo

namespace Auth

open Lib

/-- A `BYTEA` column. -/
abbrev Bytes := List UInt8

structure Crypto where
  /-- `AuthCodeHasher::hash`. -/
  authCode : String → Bytes
  /-- `hash_refresh_token`. -/
  refreshToken : String → Bytes
  /-- `AuthRateLimiter::fingerprint`. -/
  fingerprint : String → Bytes

/-- What `config.rs` accepts. -/
structure AuthConfig where
  authDevCode : Option String
  development : Bool
  authCodeTtlSeconds : Int
  authCodeResendSeconds : Int
  authCodeMaxAttempts : Int
  refreshTokenTtlSeconds : Int
  authCodeRequestsPerWindow : Nat
  authCodeGlobalRequestsPerWindow : Nat
  authCodeWindowSeconds : Int
  corsOrigins : List String
  ttl_range : 60 ≤ authCodeTtlSeconds ∧ authCodeTtlSeconds ≤ 1800
  resend_range : 1 ≤ authCodeResendSeconds ∧ authCodeResendSeconds ≤ 900
  attempts_range : 1 ≤ authCodeMaxAttempts ∧ authCodeMaxAttempts ≤ 10
  refresh_range : 86400 ≤ refreshTokenTtlSeconds ∧ refreshTokenTtlSeconds ≤ 365 * 86400
  window_range : 60 ≤ authCodeWindowSeconds ∧ authCodeWindowSeconds ≤ 86400

/-- `Duration::seconds`, added. -/
def plusSeconds (instant : Instant) (seconds : Int) : Instant := ⟨instant.nanos + seconds * 1000000000⟩

inductive Platform where
  | windows | macos | linux | android | ios | web
  deriving DecidableEq, Repr

structure UserRow where
  emailNormalized : String
  deletedAt : Option Instant
  deriving DecidableEq, Repr

structure DeviceRow where
  userId : Uuid
  name : String
  platform : Platform
  revokedAt : Option Instant
  deriving DecidableEq, Repr

structure SessionRow where
  userId : Uuid
  deviceId : Uuid
  refreshTokenHash : Bytes
  expiresAt : Instant
  revokedAt : Option Instant
  rotatedAt : Option Instant
  deriving DecidableEq, Repr

structure RefreshTokenRow where
  sessionId : Uuid
  tokenHash : Bytes
  expiresAt : Instant
  rotatedAt : Option Instant
  revokedAt : Option Instant
  replacedBy : Option Uuid
  deriving DecidableEq, Repr

structure AuthCodeRow where
  emailNormalized : String
  codeHash : Bytes
  expiresAt : Instant
  attempts : Int
  consumedAt : Option Instant
  createdAt : Instant
  deriving DecidableEq, Repr

inductive Bucket where
  | global | email
  deriving DecidableEq, Repr

/-- The key of `auth_rate_limit_windows`; a window starts at a whole number of its length. -/
structure WindowKey where
  bucket : Bucket
  subjectHash : Bytes
  windowStart : Int
  deriving DecidableEq, Repr

structure AuthDb where
  users : Table Uuid UserRow
  devices : Table Uuid DeviceRow
  sessions : Table Uuid SessionRow
  refreshTokens : Table Uuid RefreshTokenRow
  authCodes : Table Uuid AuthCodeRow
  windows : Table WindowKey Nat

namespace AuthDb

def empty : AuthDb := ⟨∅, ∅, ∅, ∅, ∅, ∅⟩

end AuthDb

/-- `COALESCE(revoked_at, now())`. -/
def coalesce (old : Option Instant) (now : Instant) : Option Instant := some (old.getD now.toColumn)

namespace RefreshTokenRow

/-- Neither rotated nor revoked. -/
def usable (row : RefreshTokenRow) : Bool := row.rotatedAt.isNone && row.revokedAt.isNone

def revoke (now : Instant) (row : RefreshTokenRow) : RefreshTokenRow :=
  { row with revokedAt := coalesce row.revokedAt now }

end RefreshTokenRow

namespace SessionRow

def revoke (now : Instant) (row : SessionRow) : SessionRow :=
  { row with revokedAt := coalesce row.revokedAt now }

end SessionRow

namespace DeviceRow

def revoke (now : Instant) (row : DeviceRow) : DeviceRow :=
  { row with revokedAt := coalesce row.revokedAt now }

end DeviceRow

end Auth

end ShishiTodo
