import ShishiTodo.Native.Rebase
import ShishiTodo.Native.Merge
import ShishiTodo.Native.Runs

/-!
# Runs of a whole store

Everything that the native application asks of one store: the edits of the user, and what the sync does to rows, outbox, copies and session. An operation that fails leaves the store as it was.
-/

namespace ShishiTodo.Native

open Lib

section

variable (store : Store)

def clearAll : Store := { store.clear with kv := { store.kv with syncSession := none } }

/-- `sync_clear_session_if`: a session that is not the expected one stays. -/
def syncClearSessionIf (expected : Option String) : Store :=
  match expected with
  | none => store
  | some session => if store.kv.syncSession = some session then syncSetSession store none else store

def bootstrapRequired : Store := { store with kv := { store.kv with bootstrapRequired := true } }

end

/-- What changes a store, with the clock readings and the identifiers that it draws. -/
inductive Operation where
  | edit (request : Request)
  | clearAll
  | applyServerResult (now : String) (request : ApplyServerResultRequest)
  | initializeCloud (supply : Supply) (request : CloudInitializeRequest)
  | replaceSnapshot (now : String) (snapshot : CloudSnapshot) (sessionId : Option String)
  | clearRejected (now : String)
  | setEnabled (enabled : Bool)
  | rotateDeviceId (deviceId : String)
  | clearAccountBinding
  | setSession (session : Option String)
  | clearSessionIf (expected : Option String)
  | bootstrapRequired

def Operation.perform (texts : Texts) (store : Store) : Operation → StoreResult Store
  | .edit request => (request.perform texts store).map Tx.store
  | .clearAll => .ok (Native.clearAll store)
  | .applyServerResult now request => Native.applyServerResult texts now store request
  | .initializeCloud supply request =>
      (syncInitializeCloud supply store request).map fun initialized => initialized.2.store
  | .replaceSnapshot now snapshot sessionId => syncReplaceSnapshotFenced texts now store snapshot sessionId
  | .clearRejected now => syncClearRejected texts now store
  | .setEnabled enabled => .ok (syncSetEnabled store enabled)
  | .rotateDeviceId deviceId => .ok (Native.rotateDeviceId store deviceId)
  | .clearAccountBinding => .ok (syncClearAccountBinding store)
  | .setSession session => .ok (syncSetSession store session)
  | .clearSessionIf expected => .ok (syncClearSessionIf store expected)
  | .bootstrapRequired => .ok (Native.bootstrapRequired store)

/-- One operation after another. -/
def storeRuns (texts : Texts) : Machine Store Operation Empty where
  step store operation :=
    match operation.perform texts store with
    | .ok after => after
    | .error _ => store
  emit _ _ := []

end ShishiTodo.Native
