import ShishiTodo.Accounts.Switch

/-!
# The first account

How the application gets at its active account (`migration.rs`): the registry of an earlier start, a fresh installation, or the migration of the database of an older version. The last two keep a state file of their own, so that an interrupted start can be carried on by the next.
-/

namespace ShishiTodo

namespace Accounts

open Lib

/-- What one start reads from outside the data root. -/
structure Startup where
  now : String
  /-- `Utc::now()` as the name of a backup has it. -/
  stamp : String
  /-- A new UUID for an account. -/
  accountId : String
  /-- A new UUID for a file that is put aside. -/
  asideId : String
  /-- The fingerprint of a database without a table. -/
  emptyFingerprint : String
  deriving DecidableEq, Repr

structure ActiveAccountContext where
  accountId : String
  kind : AccountKind
  email : Option String
  apiUrl : Option String
  migratedFromLegacy : Bool
  deriving DecidableEq, Repr

/-- `ActiveAccountContext::new`; a registry that was checked has its active account. -/
def ActiveAccountContext.ofRegistry (registry : AccountRegistry) (migrated : Bool) :
    Except AccountError ActiveAccountContext :=
  match registry.account registry.activeAccountId with
  | none => .error (.invalidRegistry "validated registry active account")
  | some active => .ok ⟨active.id, active.kind, active.email, active.apiUrl, migrated⟩

/-! ### The state files -/

section State

variable {α : Type}

def recoverStateJournal (file : StateFile α) : Except AccountError (Option α) :=
  match file.journal with
  | none => .ok none
  | some none => .error (.invalidRegistry "state journal has no backup")
  | some (some _) =>
      match file.candidates.head? with
      | some state => .ok (some state)
      | none =>
          .error (.invalidRegistry "state replacement journal candidates are missing or invalid")

/-- `MigrationState::load` and `InstallationState::load`, by the check of the state. -/
def loadState (check : α → Except AccountError Unit) (platform : Platform) :
    Durably (StateFile α) AccountError (Option α) := do
  let file ← .get
  match file.target with
  | some state => do
      .ofExcept (check state)
      return some state
  | none =>
      match ← .ofExcept (recoverStateJournal file) with
      | none => pure none
      | some state => do
          .ofExcept (check state)
          StateFile.writeJsonAtomic platform state
          .ignore (.step StateFile.removeJournal (.io "remove"))
          return some state

end State

def migrationStateVersion : Nat := 1

namespace MigrationState

def new (now : String) : MigrationState :=
  ⟨migrationStateVersion, .notStarted, "shishi.sqlite3", none, none, none, none, none, none, none, none,
    none, now⟩

def validate (state : MigrationState) : Except AccountError Unit :=
  refuseIf (state.version ≠ migrationStateVersion)
    (.invalidRegistry ("unsupported migration state version " ++ toString state.version))

def touch (now : String) (phase : MigrationPhase) (state : MigrationState) : MigrationState :=
  { state with
    phase := phase
    updatedAt := now }

def load (platform : Platform) : Durably Disk AccountError (Option MigrationState) :=
  Disk.inMigration (loadState validate platform)

def save (platform : Platform) (state : MigrationState) : Durably Disk AccountError Unit :=
  Disk.inMigration (StateFile.writeJsonAtomic platform state)

end MigrationState

def installationStateVersion : Nat := 1

namespace InstallationState

def new (now : String) : InstallationState :=
  ⟨installationStateVersion, .prepared, defaultAccountId, now, now⟩

/-- The check that stands in `load`. -/
def validate (state : InstallationState) : Except AccountError Unit :=
  refuseIf (state.version ≠ installationStateVersion ∨ state.accountId ≠ defaultAccountId)
    (.invalidRegistry "installation state is invalid")

def touch (now : String) (phase : InstallationPhase) (state : InstallationState) : InstallationState :=
  { state with
    phase := phase
    updatedAt := now }

def load (platform : Platform) : Durably Disk AccountError (Option InstallationState) :=
  Disk.inInstallation (loadState validate platform)

def save (platform : Platform) (state : InstallationState) : Durably Disk AccountError Unit :=
  Disk.inInstallation (StateFile.writeJsonAtomic platform state)

/-- `fs::remove_file` on the marker; one that is gone already is no error. -/
def remove : Durably Disk AccountError Unit := do
  let disk ← .get
  match disk.installation.target with
  | none => pure ()
  | some _ => Disk.inInstallation (.step StateFile.remove (.io "remove installation state"))

end InstallationState

/-! ### Databases -/

/-- `read_snapshot`: opening and reading can fail of themselves. -/
def readSnapshot (content : Option (Option Database)) : Durably Disk AccountError DataSnapshot := do
  .step id .sqlite
  match content with
  | none => .throw (.io "database not found")
  | some none => .throw .integrity
  | some (some database) => pure database.snapshot

/-- What is compared besides the fingerprint. -/
def DataSnapshot.summary (snapshot : DataSnapshot) : DataSnapshot := { snapshot with fingerprint := "" }

def DataSnapshot.assertSame (snapshot other : DataSnapshot) (context : String) :
    Except AccountError Unit :=
  refuseIf (snapshot.fingerprint ≠ other.fingerprint ∨ snapshot.summary ≠ other.summary)
    (.verificationMismatch context)

/-- `backup_database` into a temporary file, which is synced and read back. Only its rename makes it a file that anything reads. -/
def copyDatabase (content : Option (Option Database)) : Durably Disk AccountError Database := do
  .step id .sqlite
  .step id (.io "sync")
  match content with
  | some (some database) => do
      let _ ← readSnapshot (some (some database))
      return database
  | _ => .throw .sqlite

namespace Disk

/-- The rename of an account's database into `migration-backups`. -/
def putAside (name id : String) (disk : Disk) : Disk :=
  match disk.databases.lookup id with
  | none => disk
  | some content =>
      { disk with
        databases := disk.databases.erase id
        backups := disk.backups.insert name content }

/-- The rename of a finished copy to its place among the backups. -/
def putBackup (name : String) (database : Database) (disk : Disk) : Disk :=
  { disk with backups := disk.backups.insert name (some database) }

end Disk

/-! ### The fresh installation -/

/-- SQLite makes the file when the connection is opened, and writes its header after that. -/
def createFreshDatabase (startup : Startup) : Durably Disk AccountError Unit := do
  .step (Disk.putDatabase defaultAccountId none) .sqlite
  .step (Disk.putDatabase defaultAccountId (some (Database.fresh startup.emptyFingerprint))) .sqlite
  .step id (.io "sync")

def freshAside (startup : Startup) : String :=
  "migration-backups/fresh-corrupt-database-" ++ startup.asideId ++ ".sqlite3"

def ensureFreshDatabase (startup : Startup) : Durably Disk AccountError Unit := do
  let disk ← .get
  match disk.databases.lookup defaultAccountId with
  | none => createFreshDatabase startup
  | some content =>
      match ← Durably.attempt (readSnapshot (some content)) with
      | .ok _ => pure ()
      | .error _ => do
          .step (Disk.putAside (freshAside startup) defaultAccountId) (.io "rename")
          createFreshDatabase startup

/-- From the marker that says the database is there, to the end. -/
def completeInstallation (platform : Platform) (startup : Startup) (state : InstallationState)
    (registry : AccountRegistry) : Durably Disk AccountError ActiveAccountContext := do
  let created := if state.phase = .prepared then state.touch startup.now .databaseCreated else state
  .when (state.phase = .prepared) (created.save platform)
  .when (created.phase = .databaseCreated) do
    saveRegistry platform registry
    (created.touch startup.now .registryCommitted).save platform
  saveRegistry platform registry
  let disk ← .get
  .ofExcept (refuseIf (disk.databases.lookup defaultAccountId).isNone
    (.activeAccountMissing defaultAccountId))
  let reloaded ← Disk.inRegistry AccountRegistry.load
  .ofExcept (refuseIf (reloaded.activeAccountId ≠ defaultAccountId)
    (.invalidRegistry "fresh registry did not persist the default account"))
  InstallationState.remove
  .ofExcept (ActiveAccountContext.ofRegistry reloaded false)

def resumeFreshInstallation (platform : Platform) (startup : Startup) (state : InstallationState)
    (registry : Option AccountRegistry) : Durably Disk AccountError ActiveAccountContext := do
  let migration ← MigrationState.load platform
  .ofExcept (refuseIf migration.isSome
    (.invalidRegistry "installation marker conflicts with migration state"))
  let disk ← .get
  .ofExcept (refuseIf disk.legacy.isSome
    (.invalidRegistry "installation marker conflicts with legacy database"))
  let registry := registry.getD (AccountRegistry.newWithDefault startup.now)
  .ofExcept registry.validate
  .ofExcept (refuseIf (registry.activeAccountId ≠ defaultAccountId)
    (.invalidRegistry "installation marker requires the default active account"))
  .ofExcept (refuseIf (disk.databases.keys.any fun id => id != defaultAccountId)
    (.invalidRegistry "installation marker found an unexpected account database"))
  ensureFreshDatabase startup
  completeInstallation platform startup state registry

def initializeFresh (platform : Platform) (startup : Startup) :
    Durably Disk AccountError ActiveAccountContext := do
  let state := InstallationState.new startup.now
  state.save platform
  resumeFreshInstallation platform startup state none

/-! ### The migration of an older database -/

inductive Ownership where
  | anonymous
  | bound (email : String)
  | ambiguous (reason : String)
  deriving DecidableEq, Repr

/-- Whose database it is, by what it holds. -/
def Database.ownership (database : Database) : Ownership :=
  match database.snapshot.boundAccount with
  | some bound =>
      if ¬ validEmail (normalizeEmail bound) then
        .ambiguous ("bound_account is not a valid email: " ++ bound)
      else match database.snapshot.deviceId.filter fun device => !(trim device).isEmpty with
        | none => .ambiguous "bound account has no device_id"
        | some device =>
            if database.outboxDevices.any (· != device) then
              .ambiguous "outbox device_id does not match bound device_id"
            else .bound (normalizeEmail bound)
  | none =>
      if database.syncEnabled = some "true" then
        .ambiguous "sync_enabled is true but bound_account is missing"
      else .anonymous

def classifyLegacyDatabase : Durably Disk AccountError Ownership := do
  .step id .sqlite
  let disk ← .get
  match disk.legacy with
  | some (some database) => pure database.ownership
  | _ => .throw .sqlite

/-- A migration under way: the data root, and the state as the migration has it in memory. -/
abbrev Migrating := Durably (Disk × MigrationState) AccountError

namespace Migrating

variable {α : Type}

def onDisk (program : Durably Disk AccountError α) : Migrating α :=
  .zoom Prod.fst (fun disk working => (disk, working.2)) program

def update (change : MigrationState → MigrationState) : Migrating Unit :=
  .modify fun working => (working.1, change working.2)

def save (platform : Platform) : Migrating Unit := do
  let working ← .get
  onDisk (working.2.save platform)

end Migrating

def readLegacy : Durably Disk AccountError DataSnapshot := do
  let disk ← .get
  readSnapshot disk.legacy

def backupPath (startup : Startup) : String :=
  "migration-backups/" ++ startup.stamp ++ "-shishi.sqlite3"

/-- A backup the state names, if it is there and carries the fingerprint of the source. -/
def reusableBackup (source : DataSnapshot) : Migrating (Option String) := do
  let working ← .get
  match working.2.backupFile with
  | none => pure none
  | some path =>
      match ← Migrating.onDisk (Durably.attempt (readSnapshot (working.1.backups.lookup path))) with
      | .error _ => pure none
      | .ok snapshot =>
          if snapshot.fingerprint = source.fingerprint then do
            Migrating.update fun state => { state with backupFingerprint := some snapshot.fingerprint }
            return some path
          else pure none

def createBackup (platform : Platform) (startup : Startup) (source : DataSnapshot) : Migrating String := do
  let working ← .get
  let copy ← Migrating.onDisk (copyDatabase working.1.legacy)
  .ofExcept (source.assertSame copy.snapshot "source/backup copy")
  .ofExcept (refuseIf (working.1.backups.lookup (backupPath startup)).isSome
    (.unsafePath "backup destination already exists"))
  Migrating.onDisk (.step (Disk.putBackup (backupPath startup) copy) (.io "rename"))
  Migrating.onDisk (.step id (.io "sync"))
  Migrating.update fun state =>
    { state.touch startup.now .backupCreated with
      backupFile := some (backupPath startup)
      backupFingerprint := some copy.snapshot.fingerprint }
  Migrating.save platform
  return backupPath startup

def ensureBackup (platform : Platform) (startup : Startup) (source : DataSnapshot) : Migrating String := do
  match ← reusableBackup source with
  | some path => pure path
  | none => createBackup platform startup source

/-- An ambiguous database is backed up, and waits. -/
def holdForReview (platform : Platform) (startup : Startup) (reason : String) : Migrating Unit := do
  let source ← Migrating.onDisk readLegacy
  let _ ← ensureBackup platform startup source
  Migrating.update fun state => { state.touch startup.now .requiresReview with reason := some reason }
  Migrating.save platform

def preserveAmbiguous (platform : Platform) (startup : Startup) (reason : String) :
    Migrating ActiveAccountContext := do
  holdForReview platform startup reason
  .throw (.needsReview reason)

/-- The account the migration goes to, and the registry with it. -/
def migrationTarget (startup : Startup) (ownership : Ownership) (state : MigrationState)
    (registry : AccountRegistry) : Except AccountError (String × AccountRegistry) :=
  match ownership with
  | .bound email => do
      let (id, registry) ← match state.targetAccountId with
        | some id => do
            validateAccountId id
            pure (id, registry)
        | none =>
            match registry.findCloudByEmail email with
            | some existing => pure (existing.id, registry)
            | none => do
                let registry ← registry.upsert (AccountRecord.cloudWithId startup.now startup.accountId email)
                pure (startup.accountId, registry)
      validateAccountId id
      match registry.account id with
      | some existing => do
          refuseIf (existing.kind ≠ .cloud ∨ existing.email ≠ some (normalizeEmail email))
            (.invalidRegistry ("target account " ++ id ++ " does not match bound email"))
          pure (id, registry)
      | none => do
          let registry ← registry.upsert (AccountRecord.cloudWithId startup.now id email)
          pure (id, registry)
  | _ => do
      validateAccountId defaultAccountId
      pure (defaultAccountId, registry)

def targetAside (startup : Startup) : String :=
  "migration-backups/quarantine-target-" ++ startup.asideId ++ ".sqlite3"

/-- A database of the target stays only with the fingerprint of the backup. -/
def setAsideTarget (startup : Startup) (targetId : String) (backup : DataSnapshot) :
    Durably Disk AccountError Unit := do
  let disk ← .get
  match disk.databases.lookup targetId with
  | none => pure ()
  | some content =>
      match ← Durably.attempt (readSnapshot (some content)) with
      | .ok snapshot =>
          if snapshot.fingerprint = backup.fingerprint then pure ()
          else .step (Disk.putAside (targetAside startup) targetId) (.io "rename")
      | .error _ => .step (Disk.putAside (targetAside startup) targetId) (.io "rename")

def copyTarget (targetId path : String) : Durably Disk AccountError Unit := do
  let disk ← .get
  match disk.databases.lookup targetId with
  | some _ => pure ()
  | none => do
      let copy ← copyDatabase (disk.backups.lookup path)
      let source ← readSnapshot (disk.backups.lookup path)
      .ofExcept (source.assertSame copy.snapshot "target copy")
      .step (Disk.putDatabase targetId (some copy)) (.io "rename")
      .step id (.io "sync")

/-- The target's database is the backup's. -/
def ensureTarget (startup : Startup) (targetId path : String) (backup : DataSnapshot) :
    Durably Disk AccountError Unit := do
  .ofExcept (validateAccountId targetId)
  setAsideTarget startup targetId backup
  copyTarget targetId path

/-- The registry as the migration commits it. -/
def migratedRegistry (startup : Startup) (ownership : Ownership) (targetId : String)
    (registry : AccountRegistry) : Except AccountError AccountRegistry := do
  let registry ← if (registry.account targetId).isNone then
      match ownership with
      | .bound email => registry.upsert (AccountRecord.cloudWithId startup.now targetId email)
      | _ => pure (registry.ensureDefault startup.now)
    else pure registry
  refuseIf (registry.account targetId).isNone
    (.invalidRegistry ("migration target " ++ targetId ++ " is not in registry"))
  (registry.ensureDefault startup.now).setActive targetId

/-- From the backup to the end. -/
def migrateTo (platform : Platform) (startup : Startup) (ownership : Ownership) (targetId : String)
    (registry : AccountRegistry) (source : DataSnapshot) : Migrating ActiveAccountContext := do
  let path ← ensureBackup platform startup source
  let working ← .get
  let backup ← Migrating.onDisk (readSnapshot (working.1.backups.lookup path))
  .ofExcept (source.assertSame backup "source/backup")
  Migrating.update fun state => { state with backupFingerprint := some backup.fingerprint }
  Migrating.onDisk (ensureTarget startup targetId path backup)
  let working ← .get
  let target ← Migrating.onDisk (readSnapshot (working.1.databases.lookup targetId))
  .ofExcept (backup.assertSame target "backup/target")
  Migrating.update fun state =>
    { state.touch startup.now .copyVerified with
      targetFingerprint := some target.fingerprint
      verified := some target.summary }
  Migrating.save platform
  let registry ← .ofExcept (migratedRegistry startup ownership targetId registry)
  Migrating.onDisk (saveRegistry platform registry)
  Migrating.update (MigrationState.touch startup.now .registryCommitted)
  Migrating.save platform
  let reloaded ← Migrating.onDisk (Disk.inRegistry AccountRegistry.load)
  .ofExcept (refuseIf (reloaded.activeAccountId ≠ targetId)
    (.invalidRegistry "active account was not persisted"))
  let working ← .get
  let final ← Migrating.onDisk (readSnapshot (working.1.databases.lookup targetId))
  .ofExcept (backup.assertSame final "final target")
  Migrating.update fun state => { state.touch startup.now .complete with error := none }
  Migrating.save platform
  .ofExcept (ActiveAccountContext.ofRegistry reloaded true)

/-- The source is read again where the first reading gave no fingerprint. -/
def knownSource (source : DataSnapshot) : Migrating DataSnapshot :=
  if source.fingerprint = "" then Migrating.onDisk readLegacy else pure source

/-- What the state names once the target is known. -/
def nameTarget (startup : Startup) (targetId : String) (state : MigrationState) : MigrationState :=
  { state with
    targetAccountId := some targetId
    targetFile := some ("accounts/" ++ targetId ++ "/shishi.sqlite3")
    updatedAt := if state.phase = .notStarted then startup.now else state.updatedAt }

/-- The migration of a database whose owner is known. -/
def migrateOwned (platform : Platform) (startup : Startup) (ownership : Ownership)
    (registry : AccountRegistry) (source : DataSnapshot) : Migrating ActiveAccountContext := do
  let working ← .get
  let (targetId, registry) ← .ofExcept (migrationTarget startup ownership working.2 registry)
  Migrating.update (nameTarget startup targetId)
  .when (working.2.phase = .notStarted) (Migrating.save platform)
  let source ← knownSource source
  Migrating.update fun state => { state with sourceFingerprint := some source.fingerprint }
  migrateTo platform startup ownership targetId registry source

def runMigrationInner (platform : Platform) (startup : Startup) (ownership : Ownership) :
    Migrating ActiveAccountContext := do
  let source ← Migrating.onDisk readLegacy
  let found ← Migrating.onDisk (loadRegistry platform)
  match ownership with
  | .ambiguous reason => preserveAmbiguous platform startup reason
  | _ =>
      migrateOwned platform startup ownership
        (found.getD (AccountRegistry.newWithDefault startup.now)) source

/-- What `run_migration` makes of the outcome: an error that is not the review is recorded. -/
def recordFailure (platform : Platform) (startup : Startup) (state : MigrationState)
    (error : AccountError) : Durably Disk AccountError ActiveAccountContext :=
  match error with
  | .needsReview _ => .throw (.needsReview (state.reason.getD ""))
  | error => do
      .ignore (MigrationState.save platform
        { state.touch startup.now .failed with error := some error.display })
      .throw (.migrationFailed error)

def runMigration (platform : Platform) (startup : Startup) (ownership : Ownership)
    (existing : Option MigrationState) : Durably Disk AccountError ActiveAccountContext := do
  let state := existing.getD (MigrationState.new startup.now)
  .ofExcept (refuseIf (state.phase = .requiresReview) (.needsReview (state.reason.getD "")))
  let disk ← .get
  .ofExcept (refuseIf disk.legacy.isNone (.activeAccountMissing defaultAccountId))
  match ← Durably.attemptWith state (runMigrationInner platform startup ownership) with
  | (.ok context, _) => pure context
  | (.error error, state) => recordFailure platform startup state error

/-- The email of the registry, or else of the database. -/
def knownEmail (known : Option String) : Durably Disk AccountError (Option String) :=
  match known with
  | some email => pure (some email)
  | none => do
      match ← Durably.attempt readLegacy with
      | .ok snapshot => pure snapshot.boundAccount
      | .error _ => pure none

/-- Whose database an interrupted migration goes on with. -/
def resumedOwnership (state : MigrationState) (targetId : String) (registry : Option AccountRegistry) :
    Durably Disk AccountError Ownership :=
  if state.phase = .failed ∨ state.phase = .notStarted then classifyLegacyDatabase
  else if targetId = defaultAccountId then pure .anonymous
  else do
    let known := registry.bind fun registry =>
      (registry.account targetId).bind AccountRecord.email
    let email ← knownEmail known
    match email.filter validEmail with
    | some email => pure (.bound (normalizeEmail email))
    | none => classifyLegacyDatabase

def resumeMigration (platform : Platform) (startup : Startup) (state : MigrationState)
    (registry : Option AccountRegistry) : Durably Disk AccountError ActiveAccountContext := do
  match state.targetAccountId with
  | none => .throw (.invalidRegistry "migration state has no target account")
  | some targetId => do
      .ofExcept (validateAccountId targetId)
      .ofExcept (refuseIf (registry.any fun registry =>
          registry.activeAccountId != defaultAccountId && registry.activeAccountId != targetId)
        (.invalidRegistry "registry active account conflicts with migration target"))
      let ownership ← resumedOwnership state targetId registry
      runMigration platform startup ownership (some state)

/-! ### The start -/

def needsReview (state : MigrationState) : AccountError :=
  .needsReview (state.reason.getD "legacy ownership is ambiguous")

/-- A start that finds no registry. -/
def startWithoutRegistry (platform : Platform) (startup : Startup) (state : Option MigrationState) :
    Durably Disk AccountError ActiveAccountContext := do
  let disk ← .get
  match state with
  | some state =>
      if state.phase = .requiresReview then .throw (needsReview state)
      else if state.phase = .complete then
        .throw (.invalidRegistry "migration is complete but accounts.json is missing")
      else resumeMigration platform startup state none
  | none =>
      if disk.legacy.isSome then do
        let ownership ← classifyLegacyDatabase
        runMigration platform startup ownership none
      else do
        .ofExcept (refuseIf (¬ disk.databases.keys.isEmpty)
          (.invalidRegistry "accounts.json is missing but account databases exist"))
        initializeFresh platform startup

/-- The registry with the active account touched, written and handed out. -/
def openActive (platform : Platform) (startup : Startup) (registry : AccountRegistry) (migrated : Bool) :
    Durably Disk AccountError ActiveAccountContext := do
  let touched := registry.modify registry.activeAccountId (AccountRecord.touch startup.now)
  saveRegistry platform touched
  .ofExcept (ActiveAccountContext.ofRegistry touched migrated)

/-- `verify_integrity`. -/
def verifyIntegrity (content : Option (Option Database)) : Durably Disk AccountError Unit := do
  let _ ← readSnapshot content
  return ()

/-- A database that must be there and sound. -/
def requireDatabase (id : String) : Durably Disk AccountError Unit := do
  let disk ← .get
  .ofExcept (refuseIf (disk.databases.lookup id).isNone (.activeAccountMissing id))
  verifyIntegrity (disk.databases.lookup id)

def startWithRegistry (platform : Platform) (startup : Startup) (state : Option MigrationState)
    (registry : AccountRegistry) : Durably Disk AccountError ActiveAccountContext := do
  let activeId := registry.activeAccountId
  .ofExcept (validateAccountId activeId)
  let disk ← .get
  match state with
  | none => do
      .ofExcept (refuseIf (disk.databases.lookup activeId).isNone (.activeAccountMissing activeId))
      openActive platform startup registry false
  | some state =>
      if state.phase = .requiresReview then .throw (needsReview state)
      else if state.phase = .complete then
        match state.targetAccountId with
        | none => .throw (.invalidRegistry "COMPLETE migration has no target account")
        | some targetId => do
            requireDatabase activeId
            .when (activeId ≠ targetId) do
              .ofExcept (validateAccountId targetId)
              requireDatabase targetId
            openActive platform startup registry (activeId == targetId)
      else
        match state.targetAccountId with
        | none => .throw (.invalidRegistry "non-complete migration state has no target account")
        | some targetId => do
            .ofExcept (refuseIf (activeId ≠ defaultAccountId ∧ activeId ≠ targetId)
              (.invalidRegistry "registry active account conflicts with migration target"))
            .ofExcept (refuseIf disk.legacy.isNone (.activeAccountMissing targetId))
            resumeMigration platform startup state (some registry)

/-- The start once the two state files were read. -/
def startFrom (platform : Platform) (startup : Startup) (migration : Option MigrationState)
    (installation : Option InstallationState) : Durably Disk AccountError ActiveAccountContext := do
  let registry ← loadRegistry platform
  match installation with
  | some installation => resumeFreshInstallation platform startup installation registry
  | none =>
      match registry with
      | none => startWithoutRegistry platform startup migration
      | some registry => startWithRegistry platform startup migration registry

def ensureActiveAccount (platform : Platform) (startup : Startup) :
    Durably Disk AccountError ActiveAccountContext := do
  let migration ← MigrationState.load platform
  let installation ← InstallationState.load platform
  startFrom platform startup migration installation

end Accounts

end ShishiTodo
