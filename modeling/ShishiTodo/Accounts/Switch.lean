import ShishiTodo.Accounts.Disk

/-!
# Switching accounts

The switch of the active account (`switch.rs`). It is prepared and requested in the running application, and carried out by the next start: a journal file says how far it came, and the registry says which account is active. The two are written one after the other.
-/

namespace ShishiTodo

namespace Accounts

open Lib

def switchStateVersion : Nat := 1

namespace PendingAccountSwitch

def validate (journal : PendingAccountSwitch) : Except AccountError Unit := do
  refuseIf (journal.version ≠ switchStateVersion)
    (.invalidRegistry "unsupported account switch journal version")
  validateAccountId journal.fromAccountId
  validateAccountId journal.toAccountId
  refuseIf (journal.fromAccountId = journal.toAccountId)
    (.invalidRegistry "account switch source and target are equal")

/-- Reads the journal. Unlike the other state files it is not looked for in a torn replacement. -/
def load : Durably Disk AccountError (Option PendingAccountSwitch) := do
  let disk ← .get
  match disk.switch.target with
  | none => pure none
  | some journal => do
      .ofExcept journal.validate
      return some journal

def save (platform : Platform) (journal : PendingAccountSwitch) : Durably Disk AccountError Unit := do
  .ofExcept journal.validate
  Disk.inSwitch (StateFile.writeJsonAtomic platform journal)

def touch (now : String) (phase : SwitchPhase) (journal : PendingAccountSwitch) : PendingAccountSwitch :=
  { journal with
    phase := phase
    updatedAt := now }

def failedWith (now code : String) (journal : PendingAccountSwitch) : PendingAccountSwitch :=
  { journal.touch now .failed with errorCode := some code }

/-- `remove_journal`. -/
def remove : Durably Disk AccountError Unit := do
  let disk ← .get
  match disk.switch.target with
  | none => pure ()
  | some _ => Disk.inSwitch (.step StateFile.remove (.io "remove switch journal"))

end PendingAccountSwitch

structure AccountSummary where
  id : String
  kind : AccountKind
  email : Option String
  apiUrl : Option String
  pending : Bool
  active : Bool
  lastOpenedAt : String
  deriving DecidableEq, Repr

def summaryFromRecord (record : AccountRecord) (activeId : String) : AccountSummary :=
  ⟨record.id, record.kind, record.email, record.apiUrl, record.pending, record.id == activeId,
    record.lastOpenedAt⟩

structure SwitchStatus where
  active : Bool
  fromAccountId : Option String
  toAccountId : Option String
  generation : Option Nat
  phase : Option SwitchPhase
  pendingOutbox : Nat
  errorCode : Option String
  deriving DecidableEq, Repr

structure SwitchFailure where
  fromAccountId : String
  toAccountId : String
  errorCode : String
  deriving DecidableEq, Repr

structure SwitchRecovery where
  targetCommitted : Bool
  failure : Option SwitchFailure
  deriving DecidableEq, Repr

/-- `pending_outbox_count`. A database that is missing or cannot be read counts nothing. -/
def pendingOutboxCount (disk : Disk) (id : String) : Nat :=
  match disk.databases.lookup id with
  | some (some database) => database.pendingOutbox
  | _ => 0

def loadRegistry (platform : Platform) : Durably Disk AccountError (Option AccountRegistry) :=
  Disk.inRegistry (AccountRegistry.loadWithRecovery platform)

/-- `load_with_recovery(root)?.ok_or_else(..)`. -/
def requireRegistry (platform : Platform) (text : String) : Durably Disk AccountError AccountRegistry := do
  match ← loadRegistry platform with
  | none => .throw (.invalidRegistry text)
  | some registry => pure registry

def saveRegistry (platform : Platform) (registry : AccountRegistry) : Durably Disk AccountError Unit :=
  Disk.inRegistry (AccountRegistry.save platform registry)

def statusFromJournal (platform : Platform) (journal : Option PendingAccountSwitch) :
    Durably Disk AccountError SwitchStatus := do
  let registry ← loadRegistry platform
  let disk ← .get
  let active := registry.map AccountRegistry.activeAccountId
  let pendingOutbox := (active.map (pendingOutboxCount disk)).getD 0
  match journal with
  | some journal => return ⟨false, some journal.fromAccountId, some journal.toAccountId,
      some journal.generation, some journal.phase, pendingOutbox, journal.errorCode⟩
  | none => return ⟨true, active, none, none, none, pendingOutbox, none⟩

def switchStatus (platform : Platform) : Durably Disk AccountError SwitchStatus := do
  let journal ← PendingAccountSwitch.load
  statusFromJournal platform journal

/-! ### The check of the target -/

/-- What the database of a cloud account must be bound to. -/
def verifyCloudBinding (target : AccountRecord) (snapshot : DataSnapshot) : Except AccountError Unit :=
  match target.email with
  | none => .error (.invalidRegistry "cloud target has no email")
  | some email => do
      match snapshot.boundAccount with
      | some bound =>
          refuseIf (normalizeEmail bound ≠ normalizeEmail email) (.verificationMismatch
            ("target database is bound to a different account (" ++ bound ++ ")"))
      | none => pure ()
      match target.apiUrl with
      | some apiUrl => do
          match snapshot.boundApiUrl with
          | some boundApi => do
              let normalized ← normalizeApiUrl boundApi
              refuseIf (normalized ≠ apiUrl)
                (.verificationMismatch "target database is bound to a different API server")
          | none => pure ()
          refuseIf (¬ target.pending ∧ snapshot.boundAccount.isNone)
            (.verificationMismatch "verified cloud target database has no account binding")
          refuseIf (¬ target.pending ∧ snapshot.boundApiUrl.isNone)
            (.verificationMismatch "verified cloud target database has no API server binding")
      | none => do
          refuseIf (¬ target.pending ∧ snapshot.boundAccount.isNone)
            (.verificationMismatch "cloud target database has no account binding")
          refuseIf snapshot.boundApiUrl.isSome (.verificationMismatch
            "cloud target has a server-bound database but no registered server identity")

def verifyTargetIdentity (disk : Disk) (target : AccountRecord) : Except AccountError Unit := do
  validateAccountId target.id
  match disk.databases.lookup target.id with
  | none => .error (.activeAccountMissing target.id)
  | some none => .error .sqlite
  | some (some database) =>
      match target.kind with
      | .anonymous =>
          refuseIf (target.id ≠ defaultAccountId)
            (.verificationMismatch "anonymous target is not the default account")
      | .cloud => verifyCloudBinding target database.snapshot

/-! ### The operations -/

/-- The rest of a preparation, where no journal stands in the way. -/
def writePrepared (platform : Platform) (now : String) (generation : Nat) (source target : String) :
    Durably Disk AccountError SwitchStatus := do
  let disk ← .get
  let pendingOutbox := pendingOutboxCount disk source
  let journal : PendingAccountSwitch :=
    ⟨switchStateVersion, .prepared, source, target, generation, now, now, none⟩
  journal.save platform
  return ⟨false, some source, some target, some generation, some .prepared, pendingOutbox, none⟩

def prepareAccountSwitch (platform : Platform) (now : String) (generation : Nat) (targetId : String) :
    Durably Disk AccountError SwitchStatus := do
  .ofExcept (validateAccountId targetId)
  let registry ← requireRegistry platform "accounts.json is missing"
  let source := registry.activeAccountId
  .ofExcept (refuseIf (source = targetId) (.invalidRegistry "target account is already active"))
  match registry.account targetId with
  | none =>
      .throw (.invalidRegistry ("target account " ++ targetId ++ " is not registered"))
  | some target => do
      let disk ← .get
      .ofExcept (verifyTargetIdentity disk target)
      match ← PendingAccountSwitch.load with
      | none => writePrepared platform now generation source targetId
      | some existing => do
          .ofExcept (refuseIf (existing.toAccountId ≠ targetId)
            (.invalidRegistry "another account switch is already pending"))
          if existing.phase = .prepared ∨ existing.phase = .restartRequired then
            statusFromJournal platform (some existing)
          else writePrepared platform now generation source targetId

def requestAccountSwitch (platform : Platform) (now : String) (targetId : String) (generation : Nat) :
    Durably Disk AccountError SwitchStatus := do
  match ← PendingAccountSwitch.load with
  | none => .throw (.invalidRegistry "no prepared account switch exists")
  | some journal => do
      .ofExcept (refuseIf (journal.toAccountId ≠ targetId ∨ journal.generation ≠ generation)
        (.invalidRegistry "account switch request does not match the prepared journal"))
      match journal.phase with
      | .prepared => do
          let requested := journal.touch now .restartRequired
          requested.save platform
          statusFromJournal platform (some requested)
      | .restartRequired => statusFromJournal platform (some journal)
      | _ => .throw (.invalidRegistry "account switch is not in a requestable phase")

inductive AbortSwitchOutcome where
  | aborted
  | noPreparedSwitch
  | notPrepared (phase : SwitchPhase)
  deriving DecidableEq, Repr

def abortPreparedSwitch : Durably Disk AccountError AbortSwitchOutcome := do
  match ← PendingAccountSwitch.load with
  | none => pure .noPreparedSwitch
  | some journal =>
      if journal.phase = .prepared then do
        PendingAccountSwitch.remove
        return .aborted
      else pure (.notPrepared journal.phase)

def finishPendingSwitch : Durably Disk AccountError Unit := do
  match ← PendingAccountSwitch.load with
  | none => pure ()
  | some journal => do
      .ofExcept (refuseIf (journal.phase ≠ .verifyingTarget)
        (.invalidRegistry "pending switch is not ready to finish"))
      let registry ← Disk.inRegistry AccountRegistry.load
      .ofExcept (refuseIf (registry.activeAccountId ≠ journal.toAccountId)
        (.invalidRegistry "finish switch target does not match registry active account"))
      PendingAccountSwitch.remove

/-- Makes the source active again where the target is. -/
def restoreSource (platform : Platform) (journal : PendingAccountSwitch) (registry : AccountRegistry) :
    Durably Disk AccountError Unit :=
  if registry.activeAccountId = journal.toAccountId then
    saveRegistry platform { registry with activeAccountId := journal.fromAccountId }
  else pure ()

/-- A journal that was marked failed before the registry was put back. -/
def repairFailed (platform : Platform) (journal : PendingAccountSwitch) :
    Durably Disk AccountError SwitchRecovery := do
  match ← loadRegistry platform with
  | none => pure ()
  | some registry => do
      .ofExcept (refuseIf (registry.activeAccountId ≠ journal.fromAccountId ∧
          registry.activeAccountId ≠ journal.toAccountId)
        (.invalidRegistry "failed switch registry active account is neither source nor target"))
      restoreSource platform journal registry
  return ⟨false, some ⟨journal.fromAccountId, journal.toAccountId,
    journal.errorCode.getD "SWITCH_FAILED"⟩⟩

/-- The target did not pass: the journal is marked failed first, then the source is put back. -/
def rejectTarget (platform : Platform) (now : String) (journal : PendingAccountSwitch)
    (registry : AccountRegistry) (error : AccountError) : Durably Disk AccountError SwitchRecovery := do
  (journal.failedWith now "TARGET_INVALID").save platform
  restoreSource platform journal registry
  return ⟨false, some ⟨journal.fromAccountId, journal.toAccountId,
    "TARGET_INVALID" ++ ": " ++ error.display⟩⟩

/-- The target passed: the journal says so first, then the registry is moved to it. -/
def commitTarget (platform : Platform) (now : String) (journal : PendingAccountSwitch)
    (registry : AccountRegistry) : Durably Disk AccountError SwitchRecovery := do
  (journal.touch now .verifyingTarget).save platform
  if registry.activeAccountId ≠ journal.toAccountId then
    saveRegistry platform { registry with activeAccountId := journal.toAccountId }
  else pure ()
  return ⟨true, none⟩

/-- A switch that was requested, or that was cut after its target had passed. -/
def recoverRequested (platform : Platform) (now : String) (journal : PendingAccountSwitch) :
    Durably Disk AccountError SwitchRecovery := do
  let registry ← requireRegistry platform "accounts.json is missing during account switch"
  .ofExcept (refuseIf (registry.activeAccountId ≠ journal.fromAccountId ∧
      registry.activeAccountId ≠ journal.toAccountId)
    (.invalidRegistry "registry active account is neither switch source nor target"))
  match registry.account journal.toAccountId with
  | none => .throw (.invalidRegistry "account switch target is not registered")
  | some target => do
      let disk ← .get
      match verifyTargetIdentity disk target with
      | .error error => rejectTarget platform now journal registry error
      | .ok () => commitTarget platform now journal registry

def recoverPendingSwitch (platform : Platform) (now : String) :
    Durably Disk AccountError SwitchRecovery := do
  match ← PendingAccountSwitch.load with
  | none => pure ⟨false, none⟩
  | some journal =>
      match journal.phase with
      | .failed => repairFailed platform journal
      | .prepared => do
          PendingAccountSwitch.remove
          return ⟨false, none⟩
      | .restartRequired => recoverRequested platform now journal
      | .verifyingTarget => recoverRequested platform now journal

def rollbackPendingSwitch (platform : Platform) (now errorCode : String) :
    Durably Disk AccountError SwitchFailure := do
  match ← PendingAccountSwitch.load with
  | none => .throw (.invalidRegistry "no account switch is pending")
  | some journal => do
      let registry ← Disk.inRegistry AccountRegistry.load
      (journal.failedWith now errorCode).save platform
      restoreSource platform journal registry
      return ⟨journal.fromAccountId, journal.toAccountId, errorCode⟩

/-! ### Cloud accounts -/

/-- The database of a new account. One that is there already must be without data. -/
def ensurePendingDatabase (id fingerprint : String) : Durably Disk AccountError Unit := do
  let disk ← .get
  match disk.databases.lookup id with
  | some none => .throw .sqlite
  | some (some database) =>
      .ofExcept (refuseIf (database.snapshot.boundAccount.isSome ∨
          database.snapshot.counts.any fun count => decide (0 < count.2))
        (.invalidRegistry "pending account database already contains data"))
  | none => .step (Disk.putDatabase id (some (Database.fresh fingerprint))) .sqlite

/-- `create_pending_cloud_account`; `id` is new, and `fingerprint` is that of an empty database. -/
def createPendingCloudAccount (platform : Platform) (now id fingerprint email apiUrl : String) :
    Durably Disk AccountError AccountSummary := do
  let email := normalizeEmail email
  .ofExcept (refuseIf (¬ validEmail email) (.invalidRegistry "cloud account email is invalid"))
  let journal ← PendingAccountSwitch.load
  .ofExcept (refuseIf (journal.any fun journal => journal.phase != .failed)
    (.invalidRegistry "cannot add an account while a switch is pending"))
  let apiUrl ← .ofExcept (normalizeApiUrl apiUrl)
  let registry ← requireRegistry platform "accounts.json is missing"
  match registry.findCloudByIdentity email apiUrl with
  | some existing => pure (summaryFromRecord existing registry.activeAccountId)
  | none => do
      .ofExcept (refuseIf ((registry.findCloudByEmail email).any fun existing => existing.apiUrl.isNone)
        (.invalidRegistry "an account with this email has no verified server identity"))
      let record ← .ofExcept (AccountRecord.cloudWithIdentity now id email apiUrl true)
      .ofExcept (validateAccountId id)
      ensurePendingDatabase id fingerprint
      let registry ← .ofExcept (registry.upsert record)
      saveRegistry platform registry
      match registry.account id with
      | none => .throw (.invalidRegistry "pending account was not persisted")
      | some added => pure (summaryFromRecord added registry.activeAccountId)

/-- Whether the database is bound to what the registry says of its account. -/
def verifyBound (disk : Disk) (id email apiUrl : String) : Except AccountError Unit :=
  match disk.databases.lookup id with
  | none => .error (.io "database not found")
  | some none => .error .sqlite
  | some (some database) =>
      refuseIf (database.snapshot.boundAccount ≠ some email ∨
          database.snapshot.boundApiUrl ≠ some apiUrl)
        (.verificationMismatch "cloud server identity is not bound in the active database")

def markAccountVerified (platform : Platform) (now : String) :
    Durably Disk AccountError AccountSummary := do
  let registry ← Disk.inRegistry AccountRegistry.load
  let activeId := registry.activeAccountId
  match registry.account activeId with
  | none => .throw (.invalidRegistry "active account disappeared")
  | some active =>
      if ¬ active.pending then pure (summaryFromRecord active activeId)
      else do
        .ofExcept (refuseIf (active.kind ≠ .cloud)
          (.invalidRegistry "anonymous account cannot be marked verified"))
        match active.email, active.apiUrl with
        | none, _ => .throw (.invalidRegistry "cloud account has no email")
        | _, none => .throw (.invalidRegistry "cloud account has no api url")
        | some email, some apiUrl => do
            let disk ← .get
            .ofExcept (verifyBound disk activeId email apiUrl)
            let registry := registry.modify activeId fun record =>
              { record with pending := false }.touch now
            saveRegistry platform registry
            match registry.account activeId with
            | none => .throw (.invalidRegistry "active account disappeared")
            | some record => pure (summaryFromRecord record activeId)

end Accounts

end ShishiTodo
