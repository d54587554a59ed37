import ShishiTodo.Server.Runs
import ShishiTodo.Lib.Base64

/-!
# Push subscriptions

The tables behind Web Push and the routes of `push.rs` that write them: a subscription belongs to the account that registered its endpoint first, and a test notification takes one of the few that an account may send in a day.
-/

namespace ShishiTodo.Push

open Lib

/-- An error that a push route answers. -/
inductive PushFailure where
  | app (error : AppError)
  | tooManyRequests (code message : String)
  | serviceUnavailable (code message : String)
  deriving DecidableEq, Repr

abbrev PushResult (α : Type) := Except PushFailure α

namespace PushFailure

def validation (message : String) : PushFailure := .app (.validation message)

def disabled : PushFailure := .serviceUnavailable "PUSH_DISABLED" "Web Push is not configured"

def subscriptionConflict : PushFailure :=
  .app (.conflict "PUSH_SUBSCRIPTION_CONFLICT"
    "This push endpoint is already registered to another account")

def testRateLimited : PushFailure :=
  .tooManyRequests "PUSH_TEST_RATE_LIMITED" "Web Push test notifications are limited to 5 per day"

def database : PushFailure := .app .database

end PushFailure

/-- The parts of an `http::Uri` that are looked at. -/
structure Uri where
  scheme : Option String
  host : Option String
  deriving DecidableEq, Repr

/-- What the routes take from the configuration and from crates. -/
structure Site where
  development : Bool
  /-- `state.push`: the service is configured. -/
  configured : Bool
  /-- The `http` crate's reading of an address. -/
  parseUri : String → Option Uri

/-! ### Tables -/

/-- A row of `push_subscriptions`, under its id. -/
structure Subscription where
  userId : Uuid
  endpoint : String
  p256dh : String
  auth : String
  userAgent : Option String
  createdAt : Instant
  lastSeenAt : Instant
  failedAt : Option Instant
  deriving DecidableEq, Repr

structure Tables where
  db : Db
  pushSubscriptions : Table Uuid Subscription
  /-- `push_deliveries`, under the task and the subscription. -/
  pushDeliveries : Table (Uuid × Uuid) Instant
  /-- `push_test_usage`, under the account and the day. -/
  pushTestUsage : Table (Uuid × NaiveDate) Nat
  /-- The identifiers that `Uuid::new_v4` has given so far. -/
  drawn : List Uuid

namespace Tables

def empty : Tables := ⟨.empty, ∅, ∅, ∅, []⟩

end Tables

/-! ### Checks -/

def requirePush (site : Site) : PushResult Unit := refuseIf (!site.configured) .disabled

def normalizeEndpoint (site : Site) (value : String) : PushResult String := do
  let endpoint := trim value
  refuseIf (endpoint.isEmpty || 4096 < endpoint.utf8ByteSize)
    (.validation "endpoint must be between 1 and 4096 characters")
  let uri ← (site.parseUri endpoint).elim (.error (.validation "endpoint must be a valid URL")) .ok
  let scheme ← uri.scheme.elim (.error (.validation "endpoint must be an absolute URL")) .ok
  let localHttp := site.development && scheme == "http" &&
    (uri.host == some "localhost" || uri.host == some "127.0.0.1")
  refuseIf (scheme != "https" && !localHttp)
    (.validation "endpoint must use https:// (http://localhost is allowed in development)")
  refuseIf uri.host.isNone (.validation "endpoint must contain a host")
  return endpoint

/-- `URL_SAFE.decode`: the last group is filled up with `=`. -/
def decodePadded (chars : List Char) : Option (List UInt8) :=
  let letters := (chars.reverse.dropWhile (· == '=')).reverse
  if chars.length % 4 = 0 ∧ chars.length < letters.length + 4 then Base64.decode letters else none

/-- `decode_push_base64`. -/
def decodePushBase64 (value : String) : Option (List UInt8) :=
  (Base64.decode value.toList).or (decodePadded value.toList)

def validateKey (name value : String) (maxLen : Nat) : PushResult String := do
  let value := trim value
  refuseIf (value.isEmpty || maxLen < value.utf8ByteSize || value.toList.any isWhitespace)
    (.validation (name ++ " must be non-empty URL-safe base64 without whitespace"))
  refuseIf (decodePushBase64 value).isNone (.validation (name ++ " must be URL-safe base64"))
  return value

/-- `char::is_control`. -/
def isControl (c : Char) : Bool := c.toNat < 0x20 || (0x7F ≤ c.toNat && c.toNat < 0xA0)

structure SubscribeRequest where
  endpoint : String
  p256dh : String
  auth : String
  userAgent : Option String
  deriving DecidableEq, Repr

def validateSubscription (site : Site) (request : SubscribeRequest) : PushResult SubscribeRequest := do
  let endpoint ← normalizeEndpoint site request.endpoint
  let p256dh ← validateKey "p256dh" request.p256dh 4096
  let auth ← validateKey "auth" request.auth 1024
  let userAgent := (request.userAgent.map trim).filter fun value => !value.isEmpty
  refuseIf (userAgent.any fun value => 512 < value.utf8ByteSize || value.toList.any isControl)
    (.validation "user_agent must be at most 512 printable characters")
  return { endpoint := endpoint, p256dh := p256dh, auth := auth, userAgent := userAgent }

/-! ### Routes -/

namespace Tables

/-- The row whose endpoint it is; the column is `UNIQUE`. -/
def byEndpoint (tables : Tables) (endpoint : String) : Option (Uuid × Subscription) :=
  (tables.pushSubscriptions.entries.find? fun entry => entry.2.endpoint == endpoint).map
    fun entry => (entry.1, entry.2)

/-- `Uuid::new_v4`, bound to the statement whether it is used or not. -/
def draw (tables : Tables) (newId : Uuid) : Tables := { tables with drawn := newId :: tables.drawn }

/-- `INSERT INTO push_subscriptions … ON CONFLICT (endpoint) DO UPDATE … WHERE user_id = EXCLUDED.user_id RETURNING id`. -/
def upsertSubscription (tables : Tables) (newId userId : Uuid) (request : SubscribeRequest)
    (now : Instant) : Option Uuid × Tables :=
  match tables.byEndpoint request.endpoint with
  | none =>
      (some newId, { tables.draw newId with pushSubscriptions := tables.pushSubscriptions.insert newId {
        userId := userId
        endpoint := request.endpoint
        p256dh := request.p256dh
        auth := request.auth
        userAgent := request.userAgent
        createdAt := now
        lastSeenAt := now
        failedAt := none } })
  | some (id, row) =>
      if row.userId = userId then
        (some id, { tables.draw newId with pushSubscriptions := tables.pushSubscriptions.insert id { row with
          p256dh := request.p256dh
          auth := request.auth
          userAgent := request.userAgent
          lastSeenAt := now
          failedAt := none } })
      else (none, tables.draw newId)

/-- `subscribe`: the answer, and the tables after it. -/
def subscribe (site : Site) (tables : Tables) (auth : AuthUser) (newId : Uuid)
    (request : SubscribeRequest) (now : Instant) : PushResult (Uuid × String) × Tables :=
  match requirePush site *> validateSubscription site request with
  | .error failure => (.error failure, tables)
  | .ok valid =>
      if (tables.db.users.lookup auth.userId).isNone then (.error .database, tables)
      else
        match tables.upsertSubscription newId auth.userId valid now with
        | (none, next) => (.error .subscriptionConflict, next)
        | (some id, next) => (.ok (id, valid.endpoint), next)

/-- `DELETE FROM push_subscriptions …`; the deliveries go with their subscription. -/
def deleteSubscription (tables : Tables) (userId : Uuid) (endpoint : String) : Tables :=
  let deleted := fun row : Subscription => row.userId == userId && row.endpoint == endpoint
  { tables with
    pushSubscriptions := tables.pushSubscriptions.select fun _ row => !deleted row
    pushDeliveries := tables.pushDeliveries.select fun key _ => !(tables.pushSubscriptions.lookup key.2).any deleted }

def unsubscribe (site : Site) (tables : Tables) (auth : AuthUser) (endpoint : String) :
    PushResult Unit × Tables :=
  match requirePush site *> normalizeEndpoint site endpoint with
  | .error failure => (.error failure, tables)
  | .ok endpoint => (.ok (), tables.deleteSubscription auth.userId endpoint)

def maxPushTestPerDay : Nat := 5

/-- `INSERT INTO push_test_usage … ON CONFLICT DO UPDATE … WHERE used < 5 RETURNING used`. -/
def consumeTestQuota (tables : Tables) (userId : Uuid) (now : Instant) : PushResult Tables :=
  match tables.pushTestUsage.lookup (userId, now.dateNaive) with
  | none => .ok { tables with pushTestUsage := tables.pushTestUsage.insert (userId, now.dateNaive) 1 }
  | some used =>
      if used < maxPushTestPerDay then
        .ok { tables with pushTestUsage := tables.pushTestUsage.insert (userId, now.dateNaive) (used + 1) }
      else .error .testRateLimited

/-- `UPDATE push_subscriptions … WHERE id = $1`. -/
def updateSubscription (tables : Tables) (id : Uuid) (change : Subscription → Subscription) : Tables :=
  match tables.pushSubscriptions.lookup id with
  | none => tables
  | some row => { tables with pushSubscriptions := tables.pushSubscriptions.insert id (change row) }

def markSubscriptionSuccess (tables : Tables) (id : Uuid) (now : Instant) : Tables :=
  tables.updateSubscription id fun row => { row with lastSeenAt := now, failedAt := none }

def markSubscriptionFailed (tables : Tables) (id : Uuid) (now : Instant) : Tables :=
  tables.updateSubscription id fun row => { row with failedAt := some now }

end Tables

end ShishiTodo.Push
