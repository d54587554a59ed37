import ShishiTodo.Accounts.Registry

/-!
# The data root

What the native client keeps durably: the state files of the accounts, the database of every account, the legacy database of older versions, and the backups of a migration.
-/

namespace ShishiTodo

namespace Accounts

open Lib

/-- What `read_snapshot` reads of a database that passes its integrity check. -/
structure DataSnapshot where
  counts : List (String × Nat)
  deviceId : Option String
  boundAccount : Option String
  boundApiUrl : Option String
  /-- The digest over all of the logical content. -/
  fingerprint : String
  deriving DecidableEq, Repr

/-- A database that can be read. -/
structure Database where
  snapshot : DataSnapshot
  syncEnabled : Option String
  /-- `SELECT DISTINCT device_id FROM outbox`. -/
  outboxDevices : List String
  /-- How many outbox rows are pending. -/
  pendingOutbox : Nat
  deriving DecidableEq, Repr

/-- The file SQLite creates, without a table. -/
def Database.fresh (fingerprint : String) : Database := ⟨⟨[], none, none, none, fingerprint⟩, none, [], 0⟩

inductive SwitchPhase where
  | prepared
  | restartRequired
  | verifyingTarget
  | failed
  deriving DecidableEq, Repr

structure PendingAccountSwitch where
  version : Nat
  phase : SwitchPhase
  fromAccountId : String
  toAccountId : String
  generation : Nat
  createdAt : String
  updatedAt : String
  errorCode : Option String
  deriving DecidableEq, Repr

inductive MigrationPhase where
  | notStarted
  | backupCreated
  | copyVerified
  | registryCommitted
  | complete
  | requiresReview
  | failed
  deriving DecidableEq, Repr

structure MigrationState where
  version : Nat
  phase : MigrationPhase
  sourceFile : String
  backupFile : Option String
  targetAccountId : Option String
  targetFile : Option String
  sourceFingerprint : Option String
  backupFingerprint : Option String
  targetFingerprint : Option String
  verified : Option DataSnapshot
  reason : Option String
  error : Option String
  updatedAt : String
  deriving DecidableEq, Repr

inductive InstallationPhase where
  | prepared
  | databaseCreated
  | registryCommitted
  deriving DecidableEq, Repr

structure InstallationState where
  version : Nat
  phase : InstallationPhase
  accountId : String
  createdAt : String
  updatedAt : String
  deriving DecidableEq, Repr

structure Disk where
  registry : StateFile AccountRegistry
  switch : StateFile PendingAccountSwitch
  migration : StateFile MigrationState
  installation : StateFile InstallationState
  /-- `accounts/<id>/shishi.sqlite3`; `none` inside where it cannot be read. -/
  databases : Table String (Option Database)
  legacy : Option (Option Database)
  /-- `migration-backups`. -/
  backups : Table String (Option Database)

namespace Disk

variable {α : Type}

def inRegistry (program : Durably (StateFile AccountRegistry) AccountError α) :
    Durably Disk AccountError α :=
  .zoom Disk.registry (fun registry disk => { disk with registry := registry }) program

def inSwitch (program : Durably (StateFile PendingAccountSwitch) AccountError α) :
    Durably Disk AccountError α :=
  .zoom Disk.switch (fun switch disk => { disk with switch := switch }) program

def inMigration (program : Durably (StateFile MigrationState) AccountError α) :
    Durably Disk AccountError α :=
  .zoom Disk.migration (fun migration disk => { disk with migration := migration }) program

def inInstallation (program : Durably (StateFile InstallationState) AccountError α) :
    Durably Disk AccountError α :=
  .zoom Disk.installation (fun installation disk => { disk with installation := installation }) program

def putDatabase (id : String) (database : Option Database) (disk : Disk) : Disk :=
  { disk with databases := disk.databases.insert id database }

end Disk

/-- `Display`, but for the part that other crates write. -/
def AccountError.display : AccountError → String
  | .io operation => "account filesystem error: " ++ operation
  | .json => "account registry json error"
  | .sqlite => "account sqlite error"
  | .invalidRegistry text => "invalid account registry: " ++ text
  | .invalidAccountId id => "invalid account id: " ++ id
  | .unsafePath text => "unsafe account path: " ++ text
  | .activeAccountMissing id => "active account " ++ id ++ " has no database and no legacy source"
  | .needsReview reason => "legacy database requires manual review: " ++ reason
  | .integrity => "database integrity check failed"
  | .migrationFailed error => "legacy migration failed: " ++ error.display
  | .verificationMismatch text => "database verification mismatch: " ++ text

end Accounts

end ShishiTodo
