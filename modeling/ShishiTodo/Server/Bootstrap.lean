import ShishiTodo.Server.Columns
import ShishiTodo.Server.Runs
import ShishiTodo.Lib.Keyset
import Mathlib.Data.Prod.Lex
import Mathlib.Data.String.Basic

/-!
# Bootstrap

`GET /api/v1/sync/bootstrap` and the client's loop over it. The first request reads the account's cursor and the clock in one statement and its page in another; each later page is a statement of its own, and anything may commit in between. Pages follow the text of the entity type and then the id.
-/

namespace ShishiTodo

open Lib

/-- Where an entity stands in a snapshot. -/
def EntityKey.order (key : EntityKey) : String ×ₗ Nat := toLex (key.1.asStr, key.2.bits.toNat)

structure BootstrapEntity where
  entity : EntityType
  entityId : Uuid
  data : Json
  deriving DecidableEq, Repr

def BootstrapEntity.key (row : BootstrapEntity) : EntityKey := (row.entity, row.entityId)

/-- The signed token for the next page, as its payload. -/
structure BootstrapContinuation where
  userId : Uuid
  snapshotCursor : Int
  snapshotAt : Instant
  last : Option EntityKey
  expiresAt : Int
  deriving DecidableEq, Repr

inductive ContinuationError where
  | invalid | expired
  deriving DecidableEq, Repr

structure BootstrapPage where
  entities : List BootstrapEntity
  snapshotCursor : String
  nextPage : Option BootstrapContinuation
  hasMore : Bool
  deriving DecidableEq, Repr

/-! ### The rows of a snapshot -/

/-- `jsonb_build_object` over a row. -/
def EntityView.data {env : Env} {V : Type} {spec : EntitySpec V} (view : EntityView env spec)
    (id : Uuid) (row : EntityRow V) : Json :=
  .obj (("id", .str (env.uuid.render id)) :: view.print env.jsonb row.values ++
    [ ("server_rev", .num (toString row.serverRev)),
      ("created_at", .str (env.instantColumn row.createdAt)),
      ("updated_at", .str (env.instantColumn row.updatedAt)),
      ("deleted_at", .ofOption (.str ∘ env.instantColumn) row.deletedAt) ])

/-- One of the four selects: the account's rows that are no newer than the snapshot. -/
def EntityView.bootstrapRows {env : Env} {V : Type} {spec : EntitySpec V} (view : EntityView env spec)
    (entity : EntityType) (entities : Entities) (userId : Uuid) (snapshotAt : Instant) :
    List BootstrapEntity :=
  ((spec.table entities).entries.filter fun entry =>
      entry.2.userId == userId && decide (entry.2.createdAt.nanos ≤ snapshotAt.nanos)).map
    fun entry => { entity := entity, entityId := entry.1, data := view.data entry.1 entry.2 }

def bootstrapRows (env : Env) (entities : Entities) (userId : Uuid) (snapshotAt : Instant) :
    List BootstrapEntity :=
  (listView env).bootstrapRows .list entities userId snapshotAt ++
    (taskView env).bootstrapRows .task entities userId snapshotAt ++
    (stepView env).bootstrapRows .step entities userId snapshotAt ++
    (dayPlanView env).bootstrapRows .dayPlan entities userId snapshotAt

/-! ### The endpoint -/

/-- What a page is read from: the snapshot's cursor and time, and the last key already given. -/
structure SnapshotPosition where
  cursor : Int
  snapshotAt : Instant
  last : Option EntityKey
  deriving DecidableEq, Repr

def bootstrapLimit (limit : Option Nat) : ApiResult Nat :=
  match parsePageLimit limit 500 500 with
  | some limit => .ok limit
  | none => .error (.validation "limit must be between 1 and 500")

/-- The statement that opens a snapshot. -/
def Db.openSnapshot (db : Db) (userId : Uuid) (clock : Instant) : SnapshotPosition where
  cursor := (db.syncState userId).nextServerSeq - 1
  snapshotAt := clock
  last := none

/-- The statement that reads a page, and the token for the next one. -/
def snapshotPage (env : Env) (db : Db) (userId : Uuid) (position : SnapshotPosition) (limit : Nat)
    (expiresAt : Int) : ApiResult BootstrapPage :=
  let page := keysetPage (fun row : BootstrapEntity => row.key.order)
    (bootstrapRows env db.entities userId position.snapshotAt)
    (position.last.map EntityKey.order) limit
  match page.2, page.1.getLast? with
  | true, none => .error (.internal "missing snapshot page position")
  | true, some last =>
      .ok {
        entities := page.1
        snapshotCursor := ChangeCursor.render position.cursor
        nextPage := some {
          userId := userId
          snapshotCursor := position.cursor
          snapshotAt := position.snapshotAt
          last := some last.key
          expiresAt := expiresAt }
        hasMore := true }
  | false, _ =>
      .ok {
        entities := page.1
        snapshotCursor := ChangeCursor.render position.cursor
        nextPage := none
        hasMore := false }

/-- `ContinuationCodec::verify`, on the payload of a token that carries a good signature. -/
def BootstrapContinuation.verify (token : BootstrapContinuation) (expectedUser : Uuid) (now : Int) :
    Except ContinuationError BootstrapContinuation :=
  if token.userId ≠ expectedUser ∨ token.snapshotCursor < 0 then .error .invalid
  else if token.expiresAt ≤ now then .error .expired
  else .ok token

def mapContinuationError : ContinuationError → AppError
  | .expired =>
      .badRequest "CONTINUATION_EXPIRED" "The bootstrap continuation expired; restart bootstrap"
  | .invalid => .badRequest "INVALID_CONTINUATION" "The bootstrap continuation is invalid"

/-- `bootstrap` with a continuation. -/
def bootstrapAfter (env : Env) (db : Db) (userId : Uuid) (limit : Option Nat)
    (token : BootstrapContinuation) (now expiresAt : Int) : ApiResult BootstrapPage := do
  let limit ← bootstrapLimit limit
  match token.verify userId now with
  | .error error => .error (mapContinuationError error)
  | .ok continuation =>
      snapshotPage env db userId {
        cursor := continuation.snapshotCursor
        snapshotAt := continuation.snapshotAt
        last := continuation.last } limit expiresAt

/-! ### The client's loop -/

/-- `readFullBootstrap`: the first request's snapshot, and what the loop has read. -/
structure Reading where
  userId : Uuid
  position : SnapshotPosition
  limit : Nat
  entities : List BootstrapEntity
  /-- The last page, once there is one. -/
  page : Option BootstrapPage
  guard : Nat

namespace Reading

/-- The loop ended with a page that has no successor. -/
def finished (reading : Reading) : Bool := reading.page.any fun page => !page.hasMore

/-- The next page; a request that fails ends the loop, and so does the guard. -/
def readPage (env : Env) (db : Db) (reading : Reading) (limit : Option Nat) (now expiresAt : Int) :
    Reading :=
  match reading.page with
  | none =>
      match snapshotPage env db reading.userId reading.position reading.limit expiresAt with
      | .error _ => reading
      | .ok page => { reading with entities := page.entities, page := some page }
  | some page =>
      match page.hasMore && decide (reading.guard < 10000), page.nextPage with
      | true, some token =>
          match bootstrapAfter env db reading.userId limit token now expiresAt with
          | .error _ => reading
          | .ok next => { reading with
              entities := reading.entities ++ next.entities
              page := some next
              guard := reading.guard + 1 }
      | _, _ => reading

end Reading

/-! ### The machine -/

/-- The database, its clock, and the bootstrap in progress. -/
structure SnapshotState where
  db : Db
  clock : Instant
  reading : Option Reading

inductive SnapshotEvent where
  /-- A transaction of the server commits. -/
  | server (clock : Instant) (event : ServerEvent)
  | openSnapshot (clock : Instant) (userId : Uuid) (limit : Option Nat)
  | readPage (limit : Option Nat) (now expiresAt : Int)

/-- The clock does not run back, and a transaction starts before it commits. -/
def onTime (state : SnapshotState) (clock : Instant) : ServerEvent → Bool
  | .request start _ _ =>
      decide (state.clock.nanos ≤ clock.nanos) && decide (start.transaction.nanos ≤ clock.nanos)
  | _ => decide (state.clock.nanos ≤ clock.nanos)

def snapshotStep (env : Env) (state : SnapshotState) : SnapshotEvent → SnapshotState
  | .server clock event =>
      if onTime state clock event then
        { state with db := serverStep env state.db event, clock := clock }
      else state
  | .openSnapshot clock userId limit =>
      match decide (state.clock.nanos ≤ clock.nanos), bootstrapLimit limit with
      | true, .ok limit =>
          let db := state.db.ensureSyncState userId
          { db := db
            clock := clock
            reading := some {
              userId := userId
              position := db.openSnapshot userId clock
              limit := limit
              entities := []
              page := none
              guard := 0 } }
      | _, _ => state
  | .readPage limit now expiresAt =>
      { state with reading := state.reading.map fun reading =>
          reading.readPage env state.db limit now expiresAt }

def snapshotEmit (env : Env) (state : SnapshotState) : SnapshotEvent → List OpStep
  | .server clock event => if onTime state clock event then serverEmit env state.db event else []
  | _ => []

/-- The server together with one client that bootstraps from it. -/
def snapshots (env : Env) : Machine SnapshotState SnapshotEvent OpStep where
  step := snapshotStep env
  emit := snapshotEmit env

def SnapshotState.initial : SnapshotState where
  db := .empty
  clock := ⟨0⟩
  reading := none

end ShishiTodo
