import ShishiTodo.Server.Sync

/-!
# The transport of both clients

`RestSyncTransport`: an operation as `SyncEngine` sends it, with its fields under the names of the API, how the server reads the body, and how an error answer is read.
-/

namespace ShishiTodo

/-- `IntoResponse`: the status, the code and the message of an error answer. -/
def AppError.intoResponse : AppError → Nat × String × String
  | .badRequest code message => (400, code, message)
  | .unauthorized code message => (401, code, message)
  | .forbidden code message => (403, code, message)
  | .notFound code message => (404, code, message)
  | .conflict code message => (409, code, message)
  | .revisionConflict _ =>
      (409, "REVISION_CONFLICT", "The shared list revision changed; refresh and retry")
  | .internal _ => (500, "INTERNAL_ERROR", "An internal error occurred")

namespace Sync

/-- An operation of a request, before its fields are renamed. -/
structure SyncOp where
  opId : String
  clientSeq : Int
  entity : EntityType
  entityId : String
  kind : MutationKind
  patch : List (String × Json)
  deriving DecidableEq, Repr

/-- The body of a request, as the engine makes it. -/
structure SyncBody where
  deviceId : String
  cursor : String
  ops : List SyncOp
  limit : Nat
  deriving DecidableEq, Repr

/-- `SERVER_FIELD_NAMES`. -/
def serverFieldName : String → String
  | "listId" => "list_id"
  | "dueOn" => "due_on"
  | "remindAt" => "remind_at"
  | "remindTimezone" => "remind_timezone"
  | "seriesId" => "series_id"
  | "occurrenceKey" => "occurrence_key"
  | "completedAt" => "completed_at"
  | "taskId" => "task_id"
  | "localDate" => "local_date"
  | "isCompleted" => "is_completed"
  | "createdAt" => "created_at"
  | "updatedAt" => "updated_at"
  | "deletedAt" => "deleted_at"
  | field => field

/-- `LOCAL_ONLY_FIELDS`. -/
def localOnlyFields : List String := ["id", "createdAt", "updatedAt", "deletedAt"]

/-- Of two members that come to one name, `Object.fromEntries` keeps the later. -/
def mapPatchKeys (names : String → String) (patch : List (String × Json)) : List (String × Json) :=
  patch.foldl (fun mapped member => Json.putMember (names member.1) member.2 mapped) []

/-- The fields that the server sets itself when it creates. -/
def createdByServer : List String := ["id", "created_at", "updated_at", "deleted_at"]

def toServerPatch (kind : MutationKind) (patch : List (String × Json)) : List (String × Json) :=
  let cleaned := patch.filter fun member =>
    decide (kind = .delete) || !localOnlyFields.contains member.1
  let mapped := mapPatchKeys serverFieldName cleaned
  if kind = .create then mapped.filter fun member => !createdByServer.contains member.1 else mapped

/-- `DOMAIN_FIELD_NAMES`. -/
def domainFieldName : String → String
  | "list_id" => "listId"
  | "due_on" => "dueOn"
  | "remind_at" => "remindAt"
  | "remind_timezone" => "remindTimezone"
  | "series_id" => "seriesId"
  | "occurrence_key" => "occurrenceKey"
  | "completed_at" => "completedAt"
  | "task_id" => "taskId"
  | "local_date" => "localDate"
  | "is_completed" => "isCompleted"
  | "created_at" => "createdAt"
  | "updated_at" => "updatedAt"
  | "deleted_at" => "deletedAt"
  | field => field

/-- The patch of a change, under the names of the repository. -/
def toDomainPatch : Json → Json
  | .obj patch => .obj (mapPatchKeys domainFieldName patch)
  | patch => patch

/-- The operation the server reads, when its ids are UUIDs. -/
def SyncOp.read (env : Env) (op : SyncOp) : Option Mutation := do
  let opId ← env.uuid.parse op.opId
  let entityId ← env.uuid.parse op.entityId
  return {
    opId := opId
    clientSeq := op.clientSeq
    entity := op.entity
    entityId := entityId
    kind := op.kind
    patch := .obj (toServerPatch op.kind op.patch) }

def SyncBody.read (env : Env) (body : SyncBody) : Option SyncRequest := do
  let deviceId ← env.uuid.parse body.deviceId
  let ops ← body.ops.mapM (SyncOp.read env)
  return {
    deviceId := deviceId
    cursor := body.cursor
    ops := ops
    limit := some body.limit }

/-! ### Error answers -/

structure SyncHttpError where
  status : Nat
  code : String
  message : String
  deriving DecidableEq, Repr

/-- The codes of `apiErrorSchema`. -/
def apiErrorCodes : List String :=
  [ "CURSOR_EXPIRED", "SEQUENCE_MISMATCH", "ENTITY_NOT_FOUND", "VALIDATION_FAILED", "FORBIDDEN",
    "UNAUTHORIZED", "RATE_LIMITED", "PUSH_DISABLED", "REVISION_CONFLICT", "SHARED_LIST_NOT_FOUND",
    "SHARED_TASK_NOT_FOUND", "SHARED_MEMBER_NOT_FOUND", "SHARED_LIST_FORBIDDEN",
    "SHARED_LIST_ACCESS_REVOKED", "SHARED_MEMBER_EXISTS", "SHARED_TASK_EXISTS",
    "SHARED_INVITATION_NOT_FOUND", "SHARED_INVITATION_NOT_PENDING", "REVISION_REQUIRED",
    "OP_ID_CONFLICT", "MEMBER_NOT_FOUND", "INTERNAL" ]

/-- `readError`: a code outside the schema is read as `INTERNAL`, with the text of the status line. -/
def readError (statusText : String) (error : AppError) : SyncHttpError :=
  let (status, code, message) := error.intoResponse
  if apiErrorCodes.contains code then { status := status, code := code, message := message }
  else
    let message := if statusText.isEmpty then "Request failed" else statusText
    { status := status, code := "INTERNAL", message := message }

end Sync

end ShishiTodo
