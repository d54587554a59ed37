import ShishiTodo.Accounts.LegacyTarget

/-!
# The migration of an older database

What every start of a migration keeps, whatever goes wrong, and where a start comes out in which nothing does. A database is only ever copied from the older one, so that everything found beside it is a copy of it; the state file says which of the copies count.
-/

namespace ShishiTodo

namespace Accounts

open Lib

/-! ### What a migration keeps -/

/-- The older database, and nothing but copies of it. -/
structure Copies (source : Database) (disk : Disk) : Prop where
  legacy : disk.legacy = some (some source)
  installation : disk.installation = .empty
  databases : ∀ id content, disk.databases.lookup id = some content → content = some source
  backups : ∀ name content, disk.backups.lookup name = some content → content = some source

/-- The registry where the migration has a target, and none where it has none. -/
def Ownership.Registered (owner : Ownership) (target : Option String)
    (file : StateFile AccountRegistry) : Prop :=
  match target with
  | none => AccountRegistry.NoRegistry file
  | some id => owner.Target id ∧ ∃ registry, owner.Commits id registry ∧ registry.Coming file

/-- The target's registry stands, and its database is there. -/
structure Committed (source : Database) (disk : Disk) (id : String) : Prop where
  registry : ∃ registry, source.ownership.Commits id registry ∧ registry.StandsIn disk.registry
  database : disk.databases.lookup id = some (some source)

/-- What a state of the migration says is so. -/
structure Noted (source : Database) (disk : Disk) (state : MigrationState) : Prop where
  version : state.version = migrationStateVersion
  registered : source.ownership.Registered state.targetAccountId disk.registry
  backup : ∀ path, state.backupFile = some path → disk.backups.lookup path = some (some source)
  review : state.phase = .requiresReview → ∃ reason, source.ownership = .ambiguous reason
  complete : state.phase = .complete →
    ∃ id, state.targetAccountId = some id ∧ Committed source disk id

/-- What every start finds. -/
structure MigrationInv (source : Database) (disk : Disk) : Prop where
  copies : Copies source disk
  sound : disk.migration.Sound fun state => state.version = migrationStateVersion
  never : disk.migration.current = none →
    disk.migration.Never ∧ AccountRegistry.NoRegistry disk.registry
  noted : ∀ state, disk.migration.current = some state → Noted source disk state

/-- The same of the state in memory. -/
structure Stopped (source : Database) (working : Disk × MigrationState) : Prop where
  inv : MigrationInv source working.1
  noted : Noted source working.1 working.2

/-- A migration under way: what it is to come to is decided and noted, and it has not come to it. -/
structure Working (source : Database) (working : Disk × MigrationState) : Prop extends
    Stopped source working where
  aligned : working.1.migration.current.bind MigrationState.targetAccountId =
    working.2.targetAccountId
  unfinished : ∀ state, working.1.migration.current = some state → state.phase ≠ .complete
  memory : working.2.phase ≠ .complete

section Steps

variable {clear : Prop} {source : Database} {disk : Disk} {working : Disk × MigrationState}
  {state : MigrationState}

theorem Ownership.registered_target {owner : Ownership} {id : String} {file : StateFile AccountRegistry}
    (h : owner.Registered none file) (htarget : owner.Target id)
    (hcommits : ∃ registry, owner.Commits id registry) : owner.Registered (some id) file := by
  obtain ⟨registry, hregistry⟩ := hcommits
  exact ⟨htarget, registry, hregistry, .inl (h.draft registry)⟩

/-- Another state file, and nothing else. -/
theorem Noted.of_same {next : Disk} (h : Noted source disk state) (hregistry : next.registry = disk.registry)
    (hdatabases : next.databases = disk.databases) (hbackups : next.backups = disk.backups) :
    Noted source next state where
  version := h.version
  registered := hregistry ▸ h.registered
  backup := hbackups ▸ h.backup
  review := h.review
  complete := fun hphase => by
    obtain ⟨id, htarget, hcommitted⟩ := h.complete hphase
    exact ⟨id, htarget, hregistry ▸ hcommitted.registry, hdatabases ▸ hcommitted.database⟩

/-- The migration goes on, or it is found again, whatever happens to the write. -/
theorem writeState_sure {file : StateFile MigrationState} (platform : Platform)
    (hsound : file.Sound fun state => state.version = migrationStateVersion)
    (hnever : file.current = none → file.Never) (hversion : state.version = migrationStateVersion) :
    (StateFile.writeJsonAtomic platform state).Sure clear file
      (fun next => (next.Sound fun state => state.version = migrationStateVersion) ∧
        (next.current = file.current ∨ next.current = some state) ∧ (next.current = none → next.Never))
      fun _ next => (next.Sound fun state => state.version = migrationStateVersion) ∧
        next.target = some state := by
  refine ⟨?_, fun _ => (StateFile.writeJsonAtomic_succeeds platform state file).mono fun _ _ _ => trivial⟩
  apply ((hsound.write platform hversion).and (hsound.write_never platform hversion hnever)).mono
  · exact fun next hnext => ⟨hnext.1.1, hnext.1.2, hnext.2⟩
  · exact fun _ next hnext => hnext.1

/-- A state that is true may be written at any time. -/
theorem saveState_sure (platform : Platform) (hinv : MigrationInv source disk)
    (hnoted : Noted source disk state) :
    (state.save platform).Sure clear disk
      (fun next => MigrationInv source next ∧ ∃ file, next = { disk with migration := file })
      fun _ next => MigrationInv source next ∧
        ∃ file, next = { disk with migration := file } ∧ file.target = some state := by
  have hsame : ∀ file state, Noted source disk state →
      Noted source { disk with migration := file } state :=
    fun _ _ hstate => hstate.of_same rfl rfl rfl
  have hcopies : ∀ file, Copies source { disk with migration := file } := fun _ =>
    ⟨hinv.copies.legacy, hinv.copies.installation, hinv.copies.databases, hinv.copies.backups⟩
  have hwrite : (StateFile.writeJsonAtomic platform state).Sure clear disk.migration _ _ :=
    writeState_sure platform hinv.sound (fun hnone => (hinv.never hnone).1) hnoted.version
  unfold MigrationState.save Disk.inMigration
  apply Durably.Sure.zoom
  apply hwrite.mono
  · rintro file ⟨hsound, hcurrent, hnever⟩
    refine ⟨⟨hcopies file, hsound, fun hnone => ⟨hnever hnone, ?_⟩, fun found hfound => ?_⟩, file, rfl⟩
    · rcases hcurrent with hold | hnew
      · exact (hinv.never (hold.symm.trans hnone)).2
      · rw [hnew] at hnone
        cases hnone
    · apply hsame
      rcases hcurrent with hold | hnew
      · exact hinv.noted found (hold.symm.trans hfound)
      · cases hnew.symm.trans hfound
        exact hnoted
  · rintro _ file ⟨hsound, htarget⟩
    have hcurrent := StateFile.current_of_target htarget
    refine ⟨⟨hcopies file, hsound, fun hnone => ?_, fun found hfound => ?_⟩, file, rfl, htarget⟩
    · rw [hcurrent] at hnone
      cases hnone
    · apply hsame
      cases hcurrent.symm.trans hfound
      exact hnoted

theorem onDisk_sure {α : Type} {program : Durably Disk AccountError α} {cut : Disk × MigrationState → Prop}
    {done : α → Disk × MigrationState → Prop}
    (h : program.Sure clear working.1 (fun next => cut (next, working.2))
      fun value next => done value (next, working.2)) :
    (Migrating.onDisk program).Sure clear working cut done :=
  h.zoom

theorem save_sure (platform : Platform) (h : Stopped source working) :
    (Migrating.save platform).Sure clear working (Stopped source) fun _ next =>
      Stopped source next ∧ ∃ file, next = ({ working.1 with migration := file }, working.2) ∧
        file.target = some working.2 := by
  have hnoted : ∀ file, Noted source { working.1 with migration := file } working.2 := fun _ =>
    h.noted.of_same rfl rfl rfl
  unfold Migrating.save
  apply Durably.sure_get_bind
  apply onDisk_sure
  apply (saveState_sure platform h.inv h.noted).mono
  · rintro next ⟨hinv, file, rfl⟩
    exact ⟨hinv, hnoted file⟩
  · rintro _ next ⟨hinv, file, rfl, htarget⟩
    exact ⟨⟨hinv, hnoted file⟩, file, rfl, htarget⟩

/-- A state that is not the last one is written, and the migration goes on from it. -/
theorem save_working (platform : Platform) (h : Stopped source working)
    (hphase : working.2.phase ≠ .complete) :
    (Migrating.save platform).Sure clear working (Stopped source) fun _ next =>
      Working source next ∧ ∃ file, next = ({ working.1 with migration := file }, working.2) := by
  apply (save_sure platform h).mono
  · exact fun _ hnext => hnext
  · rintro _ next ⟨hstopped, file, rfl, htarget⟩
    have hcurrent := StateFile.current_of_target htarget
    refine ⟨⟨hstopped, ?_, fun state hstate => ?_, hphase⟩, file, rfl⟩
    · exact congrArg (Option.bind · MigrationState.targetAccountId) hcurrent
    · cases hcurrent.symm.trans hstate
      exact hphase

/-- Another state in memory, with the same target. -/
theorem Working.note (h : Working source working) (hnoted : Noted source working.1 state)
    (htarget : state.targetAccountId = working.2.targetAccountId) (hphase : state.phase ≠ .complete) :
    Working source (working.1, state) :=
  ⟨⟨h.inv, hnoted⟩, h.aligned.trans htarget.symm, h.unfinished, hphase⟩

/-- A phase on the way to the end. -/
theorem Working.advance (h : Working source working) (hversion : state.version = working.2.version)
    (htarget : state.targetAccountId = working.2.targetAccountId)
    (hbackup : state.backupFile = working.2.backupFile) (hreview : state.phase ≠ .requiresReview)
    (hphase : state.phase ≠ .complete) : Working source (working.1, state) := by
  refine h.note ⟨hversion.trans h.noted.version, htarget ▸ h.noted.registered,
    fun path hpath => h.noted.backup path (hbackup.symm.trans hpath), fun hstate => ?_,
    fun hstate => ?_⟩ htarget hphase
  · exact absurd hstate hreview
  · exact absurd hstate hphase

/-! ### The databases -/

/-- More copies, or others. -/
structure Grows (source : Database) (disk next : Disk) : Prop where
  copies : Copies source next
  registry : next.registry = disk.registry
  migration : next.migration = disk.migration
  backups : ∀ path, disk.backups.lookup path = some (some source) →
    next.backups.lookup path = some (some source)

theorem Noted.grown {next : Disk} (h : Noted source disk state) (hgrows : Grows source disk next)
    (hphase : state.phase ≠ .complete) : Noted source next state where
  version := h.version
  registered := hgrows.registry ▸ h.registered
  backup := fun path hpath => hgrows.backups path (h.backup path hpath)
  review := h.review
  complete := fun hcomplete => absurd hcomplete hphase

/-- Before a migration is complete its copies may come and go. -/
theorem Working.grown {next : Disk} (h : Working source working) (hgrows : Grows source working.1 next) :
    Working source (next, working.2) where
  inv :=
    { copies := hgrows.copies
      sound := hgrows.migration ▸ h.inv.sound
      never := by
        dsimp only
        rw [hgrows.migration, hgrows.registry]
        exact h.inv.never
      noted := fun state hstate => by
        dsimp only at hstate ⊢
        rw [hgrows.migration] at hstate
        exact (h.inv.noted state hstate).grown hgrows (h.unfinished state hstate) }
  noted := h.noted.grown hgrows h.memory
  aligned := by
    dsimp only
    rw [hgrows.migration]
    exact h.aligned
  unfinished := fun state hstate => h.unfinished state (hgrows.migration ▸ hstate)
  memory := h.memory

theorem Copies.put (h : Copies source disk) (id : String) :
    Grows source disk (disk.putDatabase id (some source)) where
  copies :=
    { legacy := h.legacy
      installation := h.installation
      databases := fun other content hcontent => by
        by_cases hid : other = id
        · subst hid
          cases (AList.lookup_insert disk.databases).symm.trans hcontent
          rfl
        · exact h.databases other content ((AList.lookup_insert_ne hid).symm.trans hcontent)
      backups := h.backups }
  registry := rfl
  migration := rfl
  backups := fun _ hpath => hpath

/-- A copy among the backups. -/
theorem Copies.insertBackup (h : Copies source disk) (name : String) {databases : Table String (Option Database)}
    (hdatabases : ∀ id content, databases.lookup id = some content → content = some source) :
    Grows source disk
      { disk with
        databases := databases
        backups := disk.backups.insert name (some source) } where
  copies :=
    { legacy := h.legacy
      installation := h.installation
      databases := hdatabases
      backups := fun other content hcontent => by
        by_cases hname : other = name
        · subst hname
          cases (AList.lookup_insert disk.backups).symm.trans hcontent
          rfl
        · exact h.backups other content ((AList.lookup_insert_ne hname).symm.trans hcontent) }
  registry := rfl
  migration := rfl
  backups := fun path hpath => by
    by_cases hname : path = name
    · subst hname
      exact AList.lookup_insert disk.backups
    · exact (AList.lookup_insert_ne hname).trans hpath

theorem Copies.putAside (h : Copies source disk) (name id : String) :
    Grows source disk (disk.putAside name id) := by
  rcases hcontent : disk.databases.lookup id with _ | content
  · rw [Disk.putAside, hcontent]
    exact ⟨h, rfl, rfl, fun _ hpath => hpath⟩
  · obtain rfl := h.databases id content hcontent
    rw [Disk.putAside, hcontent]
    apply h.insertBackup name
    intro other content hother
    by_cases hid : other = id
    · subst hid
      rw [AList.lookup_erase] at hother
      cases hother
    · exact h.databases other content ((AList.lookup_erase_ne hid).symm.trans hother)

/-- A database that can be read: nothing is changed, and what is read is what is there. -/
theorem readSnapshot_sure (disk : Disk) (database : Database) :
    (readSnapshot (some (some database))).Sure clear disk (· = disk) fun snapshot next =>
      next = disk ∧ snapshot = database.snapshot := by
  unfold readSnapshot
  refine Durably.sure_step_bind rfl ?_
  exact Durably.sure_pure ⟨rfl, rfl⟩

theorem copyDatabase_sure (disk : Disk) (database : Database) :
    (copyDatabase (some (some database))).Sure clear disk (· = disk) fun copy next =>
      next = disk ∧ copy = database := by
  unfold copyDatabase
  refine Durably.sure_step_bind rfl ?_
  refine Durably.sure_step_bind rfl ?_
  apply (readSnapshot_sure disk database).bind
  rintro _ next ⟨rfl, -⟩
  exact Durably.sure_pure ⟨rfl, rfl⟩

theorem assertSame_self (snapshot : DataSnapshot) (context : String) :
    snapshot.assertSame snapshot context = .ok () := by
  simp [DataSnapshot.assertSame, refuseIf]

/-- A backup that the state names is used again; nothing else is changed. -/
theorem reusableBackup_sure (h : Working source working) :
    (reusableBackup source.snapshot).Sure clear working (Stopped source) fun found next =>
      (found = none ∨ ∃ path, found = some path ∧
        working.1.backups.lookup path = some (some source)) ∧
      Working source next ∧ next.1 = working.1 ∧
      next.2.targetAccountId = working.2.targetAccountId := by
  unfold reusableBackup
  apply Durably.sure_get_bind
  rcases hfile : working.2.backupFile with _ | path
  · exact Durably.sure_pure ⟨.inl rfl, h, rfl, rfl⟩
  · have hpath := h.noted.backup path hfile
    have hread : (Migrating.onDisk (Durably.attempt (readSnapshot (working.1.backups.lookup path)))).Sure
        clear working (Stopped source) fun result next => next = working ∧
          ∀ snapshot, result = .ok snapshot → snapshot = source.snapshot := by
      rw [hpath]
      apply onDisk_sure
      apply (readSnapshot_sure working.1 source).attempt.mono
      · rintro next rfl
        exact h.toStopped
      · intro result next hnext
        cases result with
        | error error =>
            obtain rfl := hnext
            exact ⟨rfl, fun _ hsnapshot => by cases hsnapshot⟩
        | ok snapshot =>
            obtain ⟨rfl, hsnapshot⟩ := hnext
            refine ⟨rfl, fun found hfound => ?_⟩
            cases hfound
            exact hsnapshot
    apply hread.bind
    rintro result next ⟨rfl, hresult⟩
    cases result with
    | error error => exact Durably.sure_pure ⟨.inl rfl, h, rfl, rfl⟩
    | ok snapshot =>
        obtain rfl := hresult snapshot rfl
        dsimp only
        rw [if_pos rfl]
        apply Durably.sure_modify_bind
        apply Durably.sure_pure
        refine ⟨.inr ⟨path, rfl, hpath⟩, ?_, rfl, rfl⟩
        exact h.note ⟨h.noted.version, h.noted.registered, h.noted.backup, h.noted.review,
          h.noted.complete⟩ rfl h.memory

/-- Where the name is free the source is copied under it, and the state says so. -/
theorem createBackup_sure (platform : Platform) (startup : Startup) (h : Working source working)
    (hname : clear → working.1.backups.lookup (backupPath startup) = none) :
    (createBackup platform startup source.snapshot).Sure clear working (Stopped source) fun path next =>
      next.1.backups.lookup path = some (some source) ∧ Working source next ∧
      next.1.registry = working.1.registry ∧
      next.2.targetAccountId = working.2.targetAccountId := by
  have hcopy : (Migrating.onDisk (copyDatabase working.1.legacy)).Sure clear working (Stopped source)
      fun copy next => next = working ∧ copy = source := by
    rw [h.inv.copies.legacy]
    apply onDisk_sure
    apply (copyDatabase_sure working.1 source).mono
    · rintro next rfl
      exact h.toStopped
    · rintro copy next ⟨rfl, hsource⟩
      exact ⟨rfl, hsource⟩
  unfold createBackup
  apply Durably.sure_get_bind
  apply hcopy.bind
  rintro copy next ⟨rfl, rfl⟩
  apply Durably.sure_check_bind (assertSame_self _ _)
  apply Durably.sure_clear_bind h.toStopped
  · intro hclear
    rw [hname hclear]
    rfl
  · intro _
    have hgrows := h.inv.copies.insertBackup (backupPath startup) h.inv.copies.databases
    have hput : (Migrating.onDisk (.step (Disk.putBackup (backupPath startup) copy)
        (.io "rename"))).Sure clear next (Stopped copy) fun _ last =>
          last = (next.1.putBackup (backupPath startup) copy, next.2) :=
      onDisk_sure (Durably.sure_step h.toStopped rfl)
    apply hput.bind
    rintro _ _ rfl
    have hgrown : Working copy (next.1.putBackup (backupPath startup) copy, next.2) := h.grown hgrows
    have hsync : (Migrating.onDisk (.step id (.io "sync"))).Sure clear
        (next.1.putBackup (backupPath startup) copy, next.2) (Stopped copy) fun _ last =>
          last = (next.1.putBackup (backupPath startup) copy, next.2) :=
      onDisk_sure (Durably.sure_step hgrown.toStopped rfl)
    apply hsync.bind
    rintro _ _ rfl
    apply Durably.sure_modify_bind
    have hplace : (next.1.putBackup (backupPath startup) copy).backups.lookup (backupPath startup) =
        some (some copy) := AList.lookup_insert _
    have hnoted : Working copy (next.1.putBackup (backupPath startup) copy,
        { next.2.touch startup.now .backupCreated with
          backupFile := some (backupPath startup)
          backupFingerprint := some copy.snapshot.fingerprint }) := by
      refine hgrown.note ⟨h.noted.version, hgrown.noted.registered, fun path hpath => ?_,
        fun hphase => ?_, fun hphase => ?_⟩ rfl fun hphase => ?_
      · cases hpath
        exact hplace
      · cases hphase
      · cases hphase
      · cases hphase
    apply (save_working platform hnoted.toStopped hnoted.memory).bind
    rintro _ _ ⟨hworking, file, rfl⟩
    exact Durably.sure_pure ⟨hplace, hworking, rfl, rfl⟩

theorem ensureBackup_sure (platform : Platform) (startup : Startup) (h : Working source working)
    (hname : clear → working.1.backups.lookup (backupPath startup) = none) :
    (ensureBackup platform startup source.snapshot).Sure clear working (Stopped source) fun path next =>
      next.1.backups.lookup path = some (some source) ∧ Working source next ∧
      next.1.registry = working.1.registry ∧
      next.2.targetAccountId = working.2.targetAccountId := by
  unfold ensureBackup
  apply (reusableBackup_sure h).bind
  rintro found next ⟨hfound, hworking, hsame, htarget⟩
  rcases hfound with rfl | ⟨path, rfl, hpath⟩
  · apply (createBackup_sure platform startup hworking (hsame ▸ hname)).mono
    · exact fun _ hlast => hlast
    · rintro path last ⟨hpath, hlast, hregistry, hlastTarget⟩
      exact ⟨hpath, hlast, hregistry.trans (congrArg Disk.registry hsame), hlastTarget.trans htarget⟩
  · exact Durably.sure_pure ⟨hsame ▸ hpath, hworking, congrArg Disk.registry hsame, htarget⟩

theorem setAsideTarget_sure (startup : Startup) (id : String) (h : Working source (disk, state)) :
    (setAsideTarget startup id source.snapshot).Sure clear disk (fun next => Stopped source (next, state))
      fun _ next => Grows source disk next := by
  have hsame : Grows source disk disk := ⟨h.inv.copies, rfl, rfl, fun _ hpath => hpath⟩
  have hstopped : Stopped source (disk, state) := h.toStopped
  have haside := h.inv.copies.putAside (targetAside startup) id
  unfold setAsideTarget
  apply Durably.sure_get_bind
  rcases hcontent : disk.databases.lookup id with _ | content
  · exact Durably.sure_pure hsame
  · obtain rfl := h.inv.copies.databases id content hcontent
    have hread : (Durably.attempt (readSnapshot (some (some source)))).Sure clear disk
        (fun next => Stopped source (next, state)) fun _ next => next = disk := by
      apply (readSnapshot_sure disk source).attempt.mono
      · rintro next rfl
        exact hstopped
      · intro result next hnext
        cases result with
        | error error => exact hnext
        | ok snapshot => exact hnext.1
    apply hread.bind
    rintro result next rfl
    cases result with
    | error error => exact Durably.sure_step hstopped haside
    | ok snapshot =>
        dsimp only
        split
        · exact Durably.sure_pure hsame
        · exact Durably.sure_step hstopped haside

theorem copyTarget_sure {id path : String} (h : Working source (disk, state))
    (hpath : disk.backups.lookup path = some (some source)) :
    (copyTarget id path).Sure clear disk (fun next => Stopped source (next, state))
      fun _ next => Grows source disk next ∧ next.databases.lookup id = some (some source) := by
  have hstopped : Stopped source (disk, state) := h.toStopped
  unfold copyTarget
  apply Durably.sure_get_bind
  rcases hcontent : disk.databases.lookup id with _ | content
  · have hput : Grows source disk (disk.putDatabase id (some source)) := h.inv.copies.put id
    have hgrown : Working source (disk.putDatabase id (some source), state) := h.grown hput
    dsimp only
    rw [hpath]
    apply ((copyDatabase_sure disk source).mono (fun _ hnext => hnext ▸ hstopped)
      fun _ _ hnext => hnext).bind
    rintro copy next ⟨rfl, rfl⟩
    apply ((readSnapshot_sure next copy).mono (fun _ hnext => hnext ▸ hstopped)
      fun _ _ hnext => hnext).bind
    rintro snapshot _ ⟨rfl, rfl⟩
    apply Durably.sure_check_bind (assertSame_self _ _)
    refine Durably.sure_step_bind hstopped ?_
    exact Durably.sure_step hgrown.toStopped ⟨hput, AList.lookup_insert _⟩
  · obtain rfl := h.inv.copies.databases id content hcontent
    exact Durably.sure_pure ⟨⟨h.inv.copies, rfl, rfl, fun _ hbackup => hbackup⟩, hcontent⟩

theorem ensureTarget_sure (startup : Startup) {id path : String} (h : Working source working)
    (htarget : source.ownership.Target id)
    (hpath : working.1.backups.lookup path = some (some source)) :
    (Migrating.onDisk (ensureTarget startup id path source.snapshot)).Sure clear working (Stopped source)
      fun _ next => Working source next ∧ next.2 = working.2 ∧
        next.1.registry = working.1.registry ∧ next.1.databases.lookup id = some (some source) := by
  apply onDisk_sure
  unfold ensureTarget
  apply Durably.sure_check_bind htarget.validate
  apply (setAsideTarget_sure startup id h).bind
  intro _ next haside
  have hnext : Working source (next, working.2) := h.grown haside
  apply (copyTarget_sure hnext (haside.backups path hpath)).mono
  · exact fun _ hlast => hlast
  · rintro _ last ⟨hgrows, hplace⟩
    exact ⟨hnext.grown hgrows, rfl, hgrows.registry.trans haside.registry, hplace⟩

/-! ### The registry -/

/-- The registry of the target, wherever it stands by now. -/
theorem Working.settle (h : Working source working) {id : String} {registry : AccountRegistry}
    {file : StateFile AccountRegistry} (hid : working.2.targetAccountId = some id)
    (hcommits : source.ownership.Commits id registry) (hcoming : registry.Coming file) :
    Working source ({ working.1 with registry := file }, working.2) := by
  have htarget : source.ownership.Target id := by
    have hregistered := h.noted.registered
    rw [hid] at hregistered
    exact hregistered.1
  have hmoved : ∀ state, state.targetAccountId = some id → state.phase ≠ .complete →
      Noted source working.1 state → Noted source { working.1 with registry := file } state := by
    intro state hstate hphase hnoted
    refine ⟨hnoted.version, ?_, hnoted.backup, hnoted.review, fun hcomplete => absurd hcomplete hphase⟩
    rw [hstate]
    exact ⟨htarget, registry, hcommits, hcoming⟩
  have hcopies := h.inv.copies
  refine ⟨⟨⟨⟨hcopies.legacy, hcopies.installation, hcopies.databases, hcopies.backups⟩, h.inv.sound,
    fun hnone => ?_, fun state hstate => ?_⟩, hmoved _ hid h.memory h.noted⟩, h.aligned, h.unfinished,
    h.memory⟩
  · have haligned := h.aligned
    dsimp only at hnone
    rw [hnone, hid] at haligned
    cases haligned
  · have haligned := h.aligned
    dsimp only at hstate
    rw [hstate, hid] at haligned
    exact hmoved state haligned (h.unfinished state hstate) (h.inv.noted state hstate)

theorem saveTarget_sure (platform : Platform) (h : Working source working) {id : String}
    {registry : AccountRegistry} (hid : working.2.targetAccountId = some id)
    (hcommits : source.ownership.Commits id registry) (hcoming : registry.Coming working.1.registry) :
    (Migrating.onDisk (saveRegistry platform registry)).Sure clear working (Stopped source) fun _ next =>
      Working source next ∧ ∃ file, next = ({ working.1 with registry := file }, working.2) ∧
        registry.StandsIn file ∧ file.target = some registry := by
  have htarget : source.ownership.Target id := by
    have hregistered := h.noted.registered
    rw [hid] at hregistered
    exact hregistered.1
  have hvalid := hcommits.valid source.ownership_known htarget
  apply onDisk_sure
  unfold saveRegistry Disk.inRegistry
  apply Durably.Sure.zoom
  apply (hcoming.save platform hvalid).mono
  · exact fun file hfile => (h.settle hid hcommits hfile).toStopped
  · rintro _ file ⟨hstands, hplace⟩
    exact ⟨h.settle hid hcommits (.inr hstands), file, rfl, hstands, hplace⟩

theorem reload_sure {registry : AccountRegistry}
    (htarget : working.1.registry.target = some registry) (hvalid : registry.Valid) :
    (Migrating.onDisk (Disk.inRegistry AccountRegistry.load)).Sure clear working (Stopped source)
      fun found next => found = registry ∧ next = working := by
  apply onDisk_sure
  unfold Disk.inRegistry AccountRegistry.load
  apply Durably.Sure.zoom
  apply Durably.sure_get_bind
  rw [htarget]
  exact Durably.sure_ofExcept (AccountRegistry.readRegistryFile_of_valid hvalid) ⟨rfl, rfl⟩

/-! ### To the end -/

/-- A migration that came to its end. -/
structure Arrived (source : Database) (disk : Disk) (id : String) : Prop where
  inv : MigrationInv source disk
  state : ∃ state, disk.migration.current = some state ∧ state.phase = .complete ∧
    state.targetAccountId = some id

theorem readCopy_sure {content : Option (Option Database)} (h : Working source working)
    (hcontent : content = some (some source)) :
    (Migrating.onDisk (readSnapshot content)).Sure clear working (Stopped source) fun snapshot next =>
      next = working ∧ snapshot = source.snapshot := by
  rw [hcontent]
  apply onDisk_sure
  apply (readSnapshot_sure working.1 source).mono
  · rintro next rfl
    exact h.toStopped
  · rintro snapshot next ⟨rfl, hsnapshot⟩
    exact ⟨rfl, hsnapshot⟩

/-- The registry is read back, and the last state is written. -/
theorem finish_sure (platform : Platform) (startup : Startup) (h : Working source working)
    {id : String} {registry : AccountRegistry} (hid : working.2.targetAccountId = some id)
    (hcommits : source.ownership.Commits id registry) (hstands : registry.StandsIn working.1.registry)
    (hplace : working.1.databases.lookup id = some (some source)) :
    (do
      Migrating.update fun state => { state.touch startup.now .complete with error := none }
      Migrating.save platform
      .ofExcept (ActiveAccountContext.ofRegistry registry true) :
      Migrating ActiveAccountContext).Sure clear working (Stopped source) fun context next =>
        context.accountId = id ∧ Arrived source next.1 id := by
  have hregistered := h.noted.registered
  rw [hid] at hregistered
  have hlast : Noted source working.1 { working.2.touch startup.now .complete with error := none } := by
    refine ⟨h.noted.version, h.noted.registered, h.noted.backup, fun hphase => ?_, fun _ => ?_⟩
    · cases hphase
    · exact ⟨id, hid, ⟨registry, hcommits, hstands⟩, hplace⟩
  have hstopped : Stopped source
      (working.1, { working.2.touch startup.now .complete with error := none }) := ⟨h.inv, hlast⟩
  apply Durably.sure_modify_bind
  apply (save_sure platform hstopped).bind
  rintro _ _ ⟨hnext, file, rfl, htarget⟩
  obtain ⟨context, hcontext, haccount⟩ := hcommits.context hregistered.1 true
  refine Durably.sure_ofExcept hcontext ⟨haccount, hnext.inv, _, StateFile.current_of_target htarget, rfl, hid⟩

/-- From the source to the end. -/
theorem migrateTo_sure (platform : Platform) (startup : Startup) (h : Working source working)
    {id : String} {registry : AccountRegistry} {found : Option AccountRegistry}
    (hid : working.2.targetAccountId = some id) (htarget : Target source.ownership found id registry)
    (hcoming : AccountRegistry.Coming { registry with activeAccountId := id } working.1.registry)
    (hname : clear → working.1.backups.lookup (backupPath startup) = none) :
    (migrateTo platform startup source.ownership id registry source.snapshot).Sure clear working
      (Stopped source) fun context next => context.accountId = id ∧ Arrived source next.1 id := by
  unfold migrateTo
  apply (ensureBackup_sure platform startup h hname).bind
  rintro path next ⟨hpath, h, hsame, hkept⟩
  rw [← hsame] at hcoming
  rw [hid] at hkept
  apply Durably.sure_get_bind
  apply (readCopy_sure h hpath).bind
  rintro _ next ⟨rfl, rfl⟩
  apply Durably.sure_check_bind (assertSame_self _ _)
  apply Durably.sure_modify_bind
  have hnoted : Working source (next.1,
      { next.2 with backupFingerprint := some source.snapshot.fingerprint }) :=
    h.note ⟨h.noted.version, h.noted.registered, h.noted.backup, h.noted.review, h.noted.complete⟩ rfl
      h.memory
  apply (ensureTarget_sure startup hnoted htarget.target hpath).bind
  rintro _ ⟨disk, state⟩ ⟨h, rfl, hregistry, hplace⟩
  dsimp only at hregistry hplace
  rw [← hregistry] at hcoming
  apply Durably.sure_get_bind
  apply (readCopy_sure h hplace).bind
  rintro _ _ ⟨rfl, rfl⟩
  apply Durably.sure_check_bind (assertSame_self _ _)
  apply Durably.sure_modify_bind
  have hverified : Working source (disk,
      { MigrationState.touch startup.now .copyVerified
          { next.2 with backupFingerprint := some source.snapshot.fingerprint } with
        targetFingerprint := some source.snapshot.fingerprint
        verified := some source.snapshot.summary }) :=
    h.advance rfl rfl rfl (fun hphase => by cases hphase) fun hphase => by cases hphase
  apply (save_working platform hverified.toStopped hverified.memory).bind
  rintro _ _ ⟨h, file, rfl⟩
  apply Durably.sure_ofExcept_bind (migratedRegistry_ok startup htarget.target htarget.commits)
  apply (saveTarget_sure platform h hkept htarget.commits hcoming).bind
  rintro _ _ ⟨h, stands, rfl, hstands, hsaved⟩
  apply Durably.sure_modify_bind
  have hcommitted : Working source ({ disk with migration := file, registry := stands },
      MigrationState.touch startup.now .registryCommitted
        { MigrationState.touch startup.now .copyVerified
            { next.2 with backupFingerprint := some source.snapshot.fingerprint } with
          targetFingerprint := some source.snapshot.fingerprint
          verified := some source.snapshot.summary }) :=
    h.advance rfl rfl rfl (fun hphase => by cases hphase) fun hphase => by cases hphase
  apply (save_working platform hcommitted.toStopped hcommitted.memory).bind
  rintro _ _ ⟨h, last, rfl⟩
  have hvalid := htarget.commits.valid source.ownership_known htarget.target
  apply (reload_sure hsaved hvalid).bind
  rintro _ _ ⟨rfl, rfl⟩
  apply Durably.sure_check_bind (refuseIf_eq_ok_iff.mpr (not_not.mpr rfl))
  apply Durably.sure_get_bind
  apply (readCopy_sure h hplace).bind
  rintro _ _ ⟨rfl, rfl⟩
  apply Durably.sure_check_bind (assertSame_self _ _)
  exact finish_sure platform startup h hkept htarget.commits hstands hplace

/-! ### Loading the registry -/

/-- What loading the registry comes to. -/
def Ownership.Settled (owner : Ownership) (target : Option String) (found : Option AccountRegistry)
    (file : StateFile AccountRegistry) : Prop :=
  found = none ∧ AccountRegistry.NoRegistry file ∨
    ∃ id registry, target = some id ∧ found = some registry ∧ owner.Commits id registry ∧
      registry.StandsIn file

/-- What an attempt to load it leaves. -/
structure Reloaded (owner : Ownership) (target : Option String)
    (before after : StateFile AccountRegistry) : Prop where
  registered : owner.Registered target after
  stands : ∀ registry : AccountRegistry, registry.StandsIn before → registry.StandsIn after
  none : AccountRegistry.NoRegistry before → AccountRegistry.NoRegistry after

theorem Ownership.Registered.load {owner : Ownership} {target : Option String}
    {file : StateFile AccountRegistry} (platform : Platform) (h : owner.Registered target file)
    (hknown : owner.Known) :
    (AccountRegistry.loadWithRecovery platform).Sure (¬ AccountRegistry.Unreadable file) file
      (Reloaded owner target file)
      fun found next => Reloaded owner target file next ∧ owner.Settled target found next := by
  have hnone : AccountRegistry.NoRegistry file →
      (AccountRegistry.loadWithRecovery platform).Sure (¬ AccountRegistry.Unreadable file) file
        (Reloaded owner target file)
        fun found next => Reloaded owner target file next ∧ owner.Settled target found next := by
    intro hfree
    have hsame : Reloaded owner target file file := ⟨h, fun _ hstands => hstands, fun hnone => hnone⟩
    refine ⟨fun faults => ?_, fun _ => ⟨none, file, hfree.load platform [], trivial⟩⟩
    unfold Durably.Meets
    rw [hfree.load platform faults]
    exact ⟨hsame, .inl ⟨rfl, hfree⟩⟩
  by_cases hfree : AccountRegistry.NoRegistry file
  · exact hnone hfree
  · cases target with
    | none => exact absurd h hfree
    | some id =>
        obtain ⟨htarget, registry, hcommits, hcoming⟩ := h
        have hvalid := hcommits.valid hknown htarget
        refine ⟨?_, fun hread => hcoming.load_succeeds platform hvalid hread⟩
        rcases hcoming with hdraft | hstands
        · have hcurrent : file.current = none := by
            rw [StateFile.current, hdraft.target, StateFile.candidates, hdraft.journal]
            rfl
          have hkept : ∀ next, registry.Coming next → Reloaded owner (some id) file next := by
            intro next hnext
            refine ⟨⟨htarget, registry, hcommits, hnext⟩, fun other hother => ?_,
              fun hnone => absurd hnone hfree⟩
            have hfound := hother.current
            rw [hcurrent] at hfound
            cases hfound
          apply (hdraft.loadWithRecovery platform hvalid).mono
          · exact fun next hnext => hkept next hnext
          · rintro found next (⟨rfl, hnext⟩ | ⟨-, -, hpieces⟩)
            · exact ⟨hkept next (.inr hnext), .inr ⟨id, registry, rfl, rfl, hcommits, hnext⟩⟩
            · exact absurd ⟨hdraft.target, hdraft.journal, hpieces⟩ hfree
        · have hkept : ∀ next, registry.StandsIn next → Reloaded owner (some id) file next := by
            intro next hnext
            refine ⟨⟨htarget, registry, hcommits, .inr hnext⟩, fun other hother => ?_,
              fun hnone => absurd hnone hfree⟩
            obtain rfl := Option.some.inj (hother.current.symm.trans hstands.current)
            exact hnext
          intro faults
          apply (hstands.loadWithRecovery platform).mono
          intro ending next _ hnext
          cases ending with
          | done found =>
              obtain ⟨hnext, hfound⟩ := hnext
              exact ⟨hkept next hnext, .inr ⟨id, registry, rfl, (hfound found rfl).1, hcommits, hnext⟩⟩
          | failed _ => exact hkept next hnext.1
          | crashed => exact hkept next hnext.1

/-- A registry that was loaded, or was found not to be there, can be loaded again. -/
theorem Ownership.Settled.readable {owner : Ownership} {target : Option String}
    {found : Option AccountRegistry} {file : StateFile AccountRegistry}
    (h : owner.Settled target found file) : ¬ AccountRegistry.Unreadable file := by
  rcases h with ⟨-, hnone⟩ | ⟨id, registry, -, -, -, hstands⟩
  · exact fun hread => hread.2.1 hnone.pieces
  · intro hread
    obtain ⟨error, herror⟩ := AccountRegistry.Coming.load_of_unreadable .unix (.inr hstands)
      hstands.valid hread []
    obtain ⟨found, next, hdone, -⟩ := hstands.loadWithRecovery_succeeds .unix
    rw [hdone] at herror
    cases herror

theorem Noted.reloaded {file : StateFile AccountRegistry} {target : Option String}
    (h : Noted source disk state) (htarget : state.targetAccountId = target)
    (hfile : Reloaded source.ownership target disk.registry file) :
    Noted source { disk with registry := file } state where
  version := h.version
  registered := htarget ▸ hfile.registered
  backup := h.backup
  review := h.review
  complete := fun hphase => by
    obtain ⟨id, hid, ⟨registry, hcommits, hstands⟩, hplace⟩ := h.complete hphase
    exact ⟨id, hid, ⟨registry, hcommits, hfile.stands registry hstands⟩, hplace⟩

theorem MigrationInv.reloaded {file : StateFile AccountRegistry} (h : MigrationInv source disk)
    (hfile : Reloaded source.ownership (disk.migration.current.bind MigrationState.targetAccountId)
      disk.registry file) : MigrationInv source { disk with registry := file } where
  copies := ⟨h.copies.legacy, h.copies.installation, h.copies.databases, h.copies.backups⟩
  sound := h.sound
  never := fun hnone => ⟨(h.never hnone).1, hfile.none (h.never hnone).2⟩
  noted := fun state hstate => by
    dsimp only at hstate
    rw [hstate] at hfile
    exact (h.noted state hstate).reloaded rfl hfile

theorem MigrationInv.registered (h : MigrationInv source disk) :
    source.ownership.Registered (disk.migration.current.bind MigrationState.targetAccountId)
      disk.registry := by
  rcases hcurrent : disk.migration.current with _ | state
  · exact (h.never hcurrent).2
  · exact (h.noted state hcurrent).registered

theorem MigrationInv.load_sure (platform : Platform) (h : MigrationInv source disk) :
    (loadRegistry platform).Sure (¬ AccountRegistry.Unreadable disk.registry) disk
      (fun next => ∃ file, next = { disk with registry := file } ∧ Reloaded source.ownership
        (disk.migration.current.bind MigrationState.targetAccountId) disk.registry file)
      fun found next => ∃ file, next = { disk with registry := file } ∧ Reloaded source.ownership
          (disk.migration.current.bind MigrationState.targetAccountId) disk.registry file ∧
        source.ownership.Settled (disk.migration.current.bind MigrationState.targetAccountId) found
          file := by
  unfold loadRegistry Disk.inRegistry
  apply Durably.Sure.zoom
  apply (h.registered.load platform source.ownership_known).mono
  · exact fun file hfile => ⟨file, rfl, hfile⟩
  · exact fun found file hfile => ⟨file, rfl, hfile⟩

/-! ### The migration -/

theorem readSource_sure (h : Working source working) :
    (Migrating.onDisk readLegacy).Sure clear working (Stopped source) fun snapshot next =>
      next = working ∧ snapshot = source.snapshot := by
  have hread : (Migrating.onDisk (readSnapshot working.1.legacy)).Sure clear working (Stopped source)
      fun snapshot next => next = working ∧ snapshot = source.snapshot :=
    readCopy_sure h h.inv.copies.legacy
  exact hread

theorem knownSource_sure (h : Working source working) :
    (knownSource source.snapshot).Sure clear working (Stopped source) fun snapshot next =>
      next = working ∧ snapshot = source.snapshot := by
  unfold knownSource
  split
  · exact readSource_sure h
  · exact Durably.sure_pure ⟨rfl, rfl⟩

/-- The target is in the state before anything is done for it. -/
theorem nameTarget_sure (platform : Platform) (startup : Startup) (h : Working source working) {id : String}
    (hid : ∀ old, working.2.targetAccountId = some old → id = old) (htarget : source.ownership.Target id)
    (hcommits : ∃ registry, source.ownership.Commits id registry)
    (hstart : working.2.targetAccountId = none → working.2.phase = .notStarted) :
    (Durably.when (working.2.phase = .notStarted) (Migrating.save platform)).Sure clear
      (working.1, nameTarget startup id working.2) (Stopped source) fun _ next =>
        Working source next ∧ ∃ file, next =
          ({ working.1 with migration := file }, nameTarget startup id working.2) := by
  have hnamed : Stopped source (working.1, nameTarget startup id working.2) := by
    refine ⟨h.inv, h.noted.version, ?_, h.noted.backup, h.noted.review, fun hphase => ?_⟩
    · have hregistered := h.noted.registered
      rcases hold : working.2.targetAccountId with _ | old
      · rw [hold] at hregistered
        exact Ownership.registered_target hregistered htarget hcommits
      · obtain rfl := hid old hold
        rw [hold] at hregistered
        exact hregistered
    · exact absurd hphase h.memory
  apply Durably.sure_when
  · intro _
    exact save_working platform hnamed h.memory
  · intro hphase
    have hsome : working.2.targetAccountId = some id := by
      rcases hold : working.2.targetAccountId with _ | old
      · exact absurd (hstart hold) hphase
      · rw [hid old hold]
    refine ⟨⟨hnamed, h.aligned.trans hsome, h.unfinished, h.memory⟩, working.1.migration, rfl⟩

theorem migrateOwned_sure (platform : Platform) {startup : Startup} (h : Working source working)
    {found : Option AccountRegistry} (hnew : NewAccountId startup)
    (howner : ∀ reason, source.ownership ≠ .ambiguous reason)
    (hstart : working.2.targetAccountId = none → working.2.phase = .notStarted)
    (hsettled : source.ownership.Settled working.2.targetAccountId found working.1.registry)
    (hname : clear → working.1.backups.lookup (backupPath startup) = none) :
    (migrateOwned platform startup source.ownership
      (found.getD (AccountRegistry.newWithDefault startup.now)) source.snapshot).Sure clear working
      (Stopped source) fun context next => Arrived source next.1 context.accountId := by
  have hstate : ∀ id, working.2.targetAccountId = some id → source.ownership.Target id := by
    intro id hid
    have hregistered := h.noted.registered
    rw [hid] at hregistered
    exact hregistered.1
  have hfound : ∀ old, found = some old →
      ∃ id, working.2.targetAccountId = some id ∧ source.ownership.Commits id old := by
    intro old hold
    rcases hsettled with ⟨hnone, -⟩ | ⟨id, registry, hid, hsome, hcommits, -⟩
    · rw [hnone] at hold
      cases hold
    · cases hsome.symm.trans hold
      exact ⟨id, hid, hcommits⟩
  obtain ⟨id, registry, hmigration, hid, htarget⟩ := migrationTarget_ok hnew howner hstate hfound
  have hcoming : AccountRegistry.Coming { registry with activeAccountId := id } working.1.registry := by
    rcases hsettled with ⟨-, hnone⟩ | ⟨_, old, -, hold, -, hstands⟩
    · exact .inl (hnone.draft _)
    · rw [htarget.same old hold]
      exact .inr hstands
  unfold migrateOwned
  apply Durably.sure_get_bind
  apply Durably.sure_ofExcept_bind hmigration
  apply Durably.sure_modify_bind
  apply (nameTarget_sure platform startup h hid htarget.target ⟨_, htarget.commits⟩ hstart).bind
  rintro _ _ ⟨h, file, rfl⟩
  apply (knownSource_sure h).bind
  rintro _ _ ⟨rfl, rfl⟩
  apply Durably.sure_modify_bind
  have hnoted : Working source ({ working.1 with migration := file },
      { nameTarget startup id working.2 with sourceFingerprint := some source.snapshot.fingerprint }) :=
    h.note ⟨h.noted.version, h.noted.registered, h.noted.backup, h.noted.review, h.noted.complete⟩ rfl
      h.memory
  apply (migrateTo_sure platform startup hnoted rfl htarget hcoming hname).mono
  · exact fun _ hnext => hnext
  · rintro context next ⟨haccount, hnext⟩
    rw [haccount]
    exact hnext

/-- Noted on the disk that the database waits for a review. -/
structure InReview (source : Database) (disk : Disk) : Prop where
  inv : MigrationInv source disk
  state : ∃ state, disk.migration.current = some state ∧ state.phase = .requiresReview

theorem holdForReview_sure (platform : Platform) {startup : Startup} (h : Working source working)
    {reason : String} (howner : source.ownership = .ambiguous reason)
    (hname : clear → working.1.backups.lookup (backupPath startup) = none) :
    (holdForReview platform startup reason).Sure clear working (Stopped source) fun _ next =>
      Stopped source next ∧ InReview source next.1 := by
  unfold holdForReview
  apply (readSource_sure h).bind
  rintro _ _ ⟨rfl, rfl⟩
  apply (ensureBackup_sure platform startup h hname).bind
  rintro path next ⟨-, h, -, -⟩
  apply Durably.sure_modify_bind
  have hnoted : Working source (next.1,
      { next.2.touch startup.now .requiresReview with reason := some reason }) := by
    refine h.note ⟨h.noted.version, h.noted.registered, h.noted.backup, fun _ => ⟨reason, howner⟩,
      fun hphase => ?_⟩ rfl fun hphase => ?_
    · cases hphase
    · cases hphase
  apply (save_sure platform hnoted.toStopped).mono
  · exact fun _ hlast => hlast
  · rintro _ _ ⟨hstopped, file, rfl, htarget⟩
    exact ⟨hstopped, hstopped.inv, _, StateFile.current_of_target htarget, rfl⟩

theorem loadFound_sure (platform : Platform) (h : Working source working)
    (hread : clear → ¬ AccountRegistry.Unreadable working.1.registry) :
    (Migrating.onDisk (loadRegistry platform)).Sure clear working (Stopped source) fun found next =>
      ∃ file, next = ({ working.1 with registry := file }, working.2) ∧ Working source next ∧
        source.ownership.Settled working.2.targetAccountId found file := by
  have hworking : ∀ file, Reloaded source.ownership
      (working.1.migration.current.bind MigrationState.targetAccountId) working.1.registry file →
      Working source ({ working.1 with registry := file }, working.2) := fun file hfile =>
    ⟨⟨h.inv.reloaded hfile, h.noted.reloaded rfl (h.aligned ▸ hfile)⟩, h.aligned, h.unfinished, h.memory⟩
  apply onDisk_sure
  apply Durably.Sure.of_clear _ hread
  apply (h.inv.load_sure platform).mono
  · rintro next ⟨file, rfl, hfile⟩
    exact (hworking file hfile).toStopped
  · rintro found next ⟨file, rfl, hfile, hsettled⟩
    exact ⟨file, rfl, hworking file hfile, h.aligned ▸ hsettled⟩

theorem runMigrationInner_owned {platform : Platform} {startup : Startup} {owner : Ownership}
    (howner : ∀ reason, owner ≠ .ambiguous reason) :
    runMigrationInner platform startup owner = (do
      let source ← Migrating.onDisk readLegacy
      let found ← Migrating.onDisk (loadRegistry platform)
      migrateOwned platform startup owner
        (found.getD (AccountRegistry.newWithDefault startup.now)) source) := by
  cases owner with
  | anonymous => rfl
  | bound email => rfl
  | ambiguous reason => exact absurd rfl (howner reason)

/-- Where the owner is known. -/
theorem inner_sure (platform : Platform) {startup : Startup} (h : Working source working)
    (hnew : NewAccountId startup) (howner : ∀ reason, source.ownership ≠ .ambiguous reason)
    (hstart : working.2.targetAccountId = none → working.2.phase = .notStarted)
    (hread : clear → ¬ AccountRegistry.Unreadable working.1.registry)
    (hname : clear → working.1.backups.lookup (backupPath startup) = none) :
    (runMigrationInner platform startup source.ownership).Sure clear working (Stopped source)
      fun context next => Arrived source next.1 context.accountId := by
  rw [runMigrationInner_owned howner]
  apply (readSource_sure h).bind
  rintro _ _ ⟨rfl, rfl⟩
  apply (loadFound_sure platform h hread).bind
  rintro found _ ⟨file, rfl, hnext, hsettled⟩
  exact migrateOwned_sure platform hnext hnew howner hstart hsettled hname

/-- Where it is not. -/
theorem inner_reviews (platform : Platform) {startup : Startup} {reason : String} (h : Working source working)
    (howner : source.ownership = .ambiguous reason) :
    (runMigrationInner platform startup source.ownership).Guarded working (Stopped source)
        (fun _ _ => False) ∧
      (¬ AccountRegistry.Unreadable working.1.registry →
        working.1.backups.lookup (backupPath startup) = none →
        (runMigrationInner platform startup source.ownership).Fails working fun error next =>
          error = .needsReview reason ∧ InReview source next.1) := by
  have hsource : (Migrating.onDisk readLegacy).Sure True working (Stopped source) _ := readSource_sure h
  have hheld : ∀ {clear : Prop} {file}, Working source ({ working.1 with registry := file }, working.2) →
      (clear → working.1.backups.lookup (backupPath startup) = none) →
      (holdForReview platform startup reason).Sure clear ({ working.1 with registry := file }, working.2)
        (Stopped source) fun _ next => Stopped source next ∧ InReview source next.1 :=
    fun hnext hname => holdForReview_sure platform hnext howner hname
  rw [howner]
  unfold runMigrationInner preserveAmbiguous
  constructor
  · have hload : (Migrating.onDisk (loadRegistry platform)).Sure False working (Stopped source) _ :=
      loadFound_sure platform h fun hfalse => hfalse.elim
    apply hsource.1.bind
    rintro _ _ ⟨rfl, -⟩
    apply hload.1.bind
    rintro found _ ⟨file, rfl, hnext, -⟩
    have hguarded : (holdForReview platform startup reason).Sure False _ _ _ :=
      hheld hnext fun hfalse => hfalse.elim
    apply hguarded.1.bind
    exact fun _ next hlast => Durably.guarded_throw hlast.1
  · intro hread hname
    have hload : (Migrating.onDisk (loadRegistry platform)).Sure True working (Stopped source) _ :=
      loadFound_sure platform h fun _ => hread
    apply (hsource.succeeds trivial).fails
    rintro _ _ ⟨rfl, -⟩
    apply (hload.succeeds trivial).fails
    rintro found _ ⟨file, rfl, hnext, -⟩
    have hsure : (holdForReview platform startup reason).Sure True _ _ _ := hheld hnext fun _ => hname
    apply (hsure.succeeds trivial).fails
    exact fun _ next hlast => Durably.fails_throw ⟨rfl, hlast.2⟩

/-- Recording an error leaves what the next start goes on from. -/
theorem recordFailure_guarded (platform : Platform) (startup : Startup) {error : AccountError}
    (h : Stopped source (disk, state)) {done : ActiveAccountContext → Disk → Prop} :
    (recordFailure platform startup state error).Guarded disk (MigrationInv source) done := by
  have hrecorded : ∀ error : AccountError, (do
      .ignore (MigrationState.save platform
        { state.touch startup.now .failed with error := some error.display })
      .throw (.migrationFailed error) : Durably Disk AccountError ActiveAccountContext).Guarded disk
        (MigrationInv source) done := by
    intro error
    have hnoted : Noted source disk
        { state.touch startup.now .failed with error := some error.display } := by
      refine ⟨h.noted.version, h.noted.registered, h.noted.backup, fun hphase => ?_, fun hphase => ?_⟩
      · cases hphase
      · cases hphase
    have hsave : (MigrationState.save platform
        { state.touch startup.now .failed with error := some error.display }).Sure True disk
          (MigrationInv source) fun _ next => MigrationInv source next :=
      (saveState_sure platform h.inv hnoted).mono (fun _ hnext => hnext.1) fun _ _ hnext => hnext.1
    have hignored : (Durably.ignore (MigrationState.save platform
        { state.touch startup.now .failed with error := some error.display })).Guarded disk
          (MigrationInv source) fun _ next => MigrationInv source next :=
      hsave.1.ignore fun _ hnext => hnext
    apply hignored.bind
    exact fun _ next hnext => Durably.guarded_throw hnext
  cases error with
  | needsReview reason => exact Durably.guarded_throw h.inv
  | io operation => exact hrecorded _
  | json => exact hrecorded _
  | sqlite => exact hrecorded _
  | invalidRegistry text => exact hrecorded _
  | invalidAccountId id => exact hrecorded _
  | unsafePath text => exact hrecorded _
  | activeAccountMissing id => exact hrecorded _
  | integrity => exact hrecorded _
  | migrationFailed error => exact hrecorded _
  | verificationMismatch text => exact hrecorded _

/-- A new state, or the one that was found, if it has a target and the migration is not at its end. -/
def GoesOn (disk : Disk) (existing : Option MigrationState) : Prop :=
  disk.migration.current = existing ∧
    ∀ state, existing = some state → state.phase ≠ .complete ∧ state.phase ≠ .requiresReview ∧
      state.targetAccountId ≠ none

theorem GoesOn.ready {existing : Option MigrationState} (h : GoesOn disk existing)
    (hinv : MigrationInv source disk) (now : String) :
    Working source (disk, existing.getD (MigrationState.new now)) := by
  obtain ⟨hcurrent, hstate⟩ := h
  cases existing with
  | none =>
      refine ⟨⟨hinv, rfl, (hinv.never hcurrent).2, fun _ hpath => ?_, fun hphase => ?_, fun hphase => ?_⟩,
        ?_, fun state hsome => ?_, fun hphase => ?_⟩
      · cases hpath
      · cases hphase
      · cases hphase
      · dsimp only
        rw [hcurrent]
        rfl
      · dsimp only at hsome
        rw [hcurrent] at hsome
        cases hsome
      · cases hphase
  | some state =>
      refine ⟨⟨hinv, hinv.noted state hcurrent⟩, ?_, fun other hother => ?_, (hstate state rfl).1⟩
      · dsimp only
        rw [hcurrent]
        rfl
      · cases hcurrent.symm.trans hother
        exact (hstate state rfl).1

theorem GoesOn.start {existing : Option MigrationState} (h : GoesOn disk existing) (now : String)
    (hnone : (existing.getD (MigrationState.new now)).targetAccountId = none) :
    (existing.getD (MigrationState.new now)).phase = .notStarted := by
  cases existing with
  | none => rfl
  | some state => exact absurd hnone (h.2 state rfl).2.2

theorem GoesOn.open {existing : Option MigrationState} (h : GoesOn disk existing) (now : String) :
    refuseIf ((existing.getD (MigrationState.new now)).phase = .requiresReview)
      (AccountError.needsReview ((existing.getD (MigrationState.new now)).reason.getD "")) = .ok () := by
  rw [refuseIf_eq_ok_iff]
  cases existing with
  | none => exact fun hphase => by cases hphase
  | some state => exact (h.2 state rfl).2.1

theorem Copies.found (h : Copies source disk) :
    refuseIf (disk.legacy.isNone = true) (AccountError.activeAccountMissing defaultAccountId) = .ok () := by
  rw [refuseIf_eq_ok_iff, h.legacy]
  simp

/-- What a start with a known owner finds in its way. -/
structure Free (startup : Startup) (disk : Disk) : Prop where
  readable : ¬ AccountRegistry.Unreadable disk.registry
  backup : disk.backups.lookup (backupPath startup) = none

theorem runMigration_guarded (platform : Platform) {startup : Startup} (h : MigrationInv source disk)
    (hnew : NewAccountId startup) {existing : Option MigrationState} (hstate : GoesOn disk existing) :
    (runMigration platform startup source.ownership existing).Guarded disk (MigrationInv source)
      fun context next => Arrived source next context.accountId := by
  have hworking := hstate.ready h startup.now
  have hinner : (runMigrationInner platform startup source.ownership).Guarded
      (disk, existing.getD (MigrationState.new startup.now)) (Stopped source)
      fun context next => Arrived source next.1 context.accountId := by
    by_cases howner : ∀ reason, source.ownership ≠ .ambiguous reason
    · have hsure : (runMigrationInner platform startup source.ownership).Sure False _ _ _ :=
        inner_sure platform hworking hnew howner (hstate.start startup.now) (fun hfalse => hfalse.elim)
          fun hfalse => hfalse.elim
      exact hsure.1
    · push Not at howner
      obtain ⟨reason, hreason⟩ := howner
      exact (inner_reviews platform hworking hreason).1.mono (fun _ hnext => hnext)
        fun _ _ hfalse => hfalse.elim
  unfold runMigration
  dsimp only
  apply Durably.guarded_ofExcept_bind h
  intro _ _
  apply Durably.guarded_get_bind
  apply Durably.guarded_ofExcept_bind h
  intro _ _
  apply (hinner.attemptWith fun _ hnext => hnext.inv).bind
  rintro ⟨result, state⟩ next hnext
  cases result with
  | ok context => exact Durably.guarded_pure hnext
  | error error => exact recordFailure_guarded platform startup hnext

theorem runMigration_succeeds (platform : Platform) {startup : Startup} (h : MigrationInv source disk)
    (hnew : NewAccountId startup) (howner : ∀ reason, source.ownership ≠ .ambiguous reason)
    {existing : Option MigrationState} (hstate : GoesOn disk existing) (hfree : Free startup disk) :
    (runMigration platform startup source.ownership existing).Succeeds disk fun _ _ => True := by
  have hsure : (runMigrationInner platform startup source.ownership).Sure True
      (disk, existing.getD (MigrationState.new startup.now)) (Stopped source) _ :=
    inner_sure platform (hstate.ready h startup.now) hnew howner (hstate.start startup.now)
      (fun _ => hfree.readable) fun _ => hfree.backup
  unfold runMigration
  dsimp only
  apply Durably.succeeds_check_bind (hstate.open startup.now)
  apply Durably.succeeds_get_bind
  apply Durably.succeeds_check_bind h.copies.found
  have hattempt : (Durably.attemptWith (existing.getD (MigrationState.new startup.now))
      (runMigrationInner platform startup source.ownership)).Succeeds disk
      fun result _ => ∃ context, result.1 = .ok context :=
    ((hsure.2 trivial).mono fun context _ _ => ⟨context, rfl⟩).attemptWith
  apply hattempt.bind
  rintro ⟨result, state⟩ next ⟨context, rfl⟩
  exact Durably.succeeds_pure trivial

/-- A database whose owner is not known comes into the review. -/
theorem runMigration_reviews (platform : Platform) {startup : Startup} {reason : String}
    (h : MigrationInv source disk) (howner : source.ownership = .ambiguous reason)
    {existing : Option MigrationState} (hstate : GoesOn disk existing) (hfree : Free startup disk) :
    (runMigration platform startup source.ownership existing).Fails disk fun error next =>
      (∃ text, error = .needsReview text) ∧ InReview source next := by
  unfold runMigration
  dsimp only
  apply Durably.fails_ofExcept_bind (hstate.open startup.now)
  apply Durably.fails_get_bind
  apply Durably.fails_ofExcept_bind h.copies.found
  have hfails : (runMigrationInner platform startup source.ownership).Fails
      (disk, existing.getD (MigrationState.new startup.now)) fun error next =>
        error = .needsReview reason ∧ InReview source next.1 :=
    (inner_reviews platform (hstate.ready h startup.now) howner).2 hfree.readable hfree.backup
  apply hfails.attemptWith.fails
  rintro ⟨result, state⟩ next ⟨error, hresult, rfl, hreview⟩
  dsimp only at hresult
  subst hresult
  exact Durably.fails_throw ⟨⟨_, rfl⟩, hreview⟩

theorem runMigration_sure (platform : Platform) {startup : Startup} (h : MigrationInv source disk)
    (hnew : NewAccountId startup) {existing : Option MigrationState} (hstate : GoesOn disk existing)
    (hclear : clear → (∀ reason, source.ownership ≠ .ambiguous reason) ∧ Free startup disk) :
    (runMigration platform startup source.ownership existing).Sure clear disk (MigrationInv source)
      fun context next => Arrived source next context.accountId :=
  ⟨runMigration_guarded platform h hnew hstate, fun hfree =>
    runMigration_succeeds platform h hnew (hclear hfree).1 hstate (hclear hfree).2⟩

/-! ### An interrupted migration -/

theorem classify_sure (h : MigrationInv source disk) :
    classifyLegacyDatabase.Sure clear disk (MigrationInv source) fun owner next =>
      next = disk ∧ owner = source.ownership := by
  unfold classifyLegacyDatabase
  refine Durably.sure_step_bind h ?_
  apply Durably.sure_get_bind
  dsimp only [id]
  rw [h.copies.legacy]
  exact Durably.sure_pure ⟨rfl, rfl⟩

theorem knownEmail_sure (h : MigrationInv source disk) {known : Option String} {email : String}
    (howner : source.ownership = .bound email) (hknown : ∀ found, known = some found → found = email) :
    (knownEmail known).Sure clear disk (MigrationInv source) fun found next =>
      next = disk ∧ ∀ bound, found = some bound → normalizeEmail bound = email := by
  obtain ⟨bound, hbound, hnormal, -⟩ := source.ownership_bound howner
  unfold knownEmail
  cases known with
  | some found =>
      have hfound := hknown found rfl
      refine Durably.sure_pure ⟨rfl, fun other hother => ?_⟩
      rw [← Option.some.inj hother, hfound]
      exact (source.ownership_known email howner).1
  | none =>
      have hread : (readSnapshot disk.legacy).Sure clear disk (· = disk) fun snapshot next =>
          next = disk ∧ snapshot = source.snapshot := by
        rw [h.copies.legacy]
        exact readSnapshot_sure disk source
      have hattempt : (Durably.attempt readLegacy).Sure clear disk (MigrationInv source)
          fun result next => next = disk ∧ ∀ snapshot, result = .ok snapshot →
            snapshot = source.snapshot := by
        have hlegacy : readLegacy.Sure clear disk (· = disk) fun snapshot next =>
            next = disk ∧ snapshot = source.snapshot := hread
        apply hlegacy.attempt.mono
        · rintro next rfl
          exact h
        · intro result next hnext
          cases result with
          | error error => exact ⟨hnext, fun _ hsnapshot => by cases hsnapshot⟩
          | ok snapshot =>
              refine ⟨hnext.1, fun other hother => ?_⟩
              cases hother
              exact hnext.2
      apply hattempt.bind
      rintro result next ⟨rfl, hresult⟩
      cases result with
      | error error => exact Durably.sure_pure ⟨rfl, fun _ hfound => by cases hfound⟩
      | ok snapshot =>
          refine Durably.sure_pure ⟨rfl, fun other hother => ?_⟩
          rw [hresult snapshot rfl, hbound] at hother
          rw [← Option.some.inj hother]
          exact hnormal

/-- However the owner is found out again, it is the owner of the source. -/
theorem resumedOwnership_sure (h : MigrationInv source disk) {id : String} {found : Option AccountRegistry}
    (htarget : source.ownership.Target id)
    (hsettled : source.ownership.Settled (some id) found disk.registry) :
    (resumedOwnership state id found).Sure clear disk (MigrationInv source) fun owner next =>
      next = disk ∧ owner = source.ownership := by
  unfold resumedOwnership
  split
  · exact classify_sure h
  · split
    · rename_i hid
      rcases howner : source.ownership with _ | email | reason
      · exact Durably.sure_pure ⟨rfl, rfl⟩
      · rw [howner] at htarget
        exact absurd hid htarget.2
      · rw [howner] at htarget
        cases htarget
    · rename_i hid
      rcases howner : source.ownership with _ | email | reason
      · rw [howner] at htarget
        exact absurd htarget hid
      · have hknown : ∀ other, (found.bind fun registry =>
            (registry.account id).bind AccountRecord.email) = some other → other = email := by
          intro other hother
          rcases hsettled with ⟨rfl, -⟩ | ⟨_, registry, hsome, rfl, hcommits, -⟩
          · cases hother
          · cases hsome
            rw [howner] at hcommits
            obtain ⟨created, opened, made, used, rfl⟩ := hcommits
            have hdefault : defaultAccountId ≠ id := fun heq => hid heq.symm
            have hnormal := (source.ownership_known email howner).1
            simp [AccountRegistry.account, AccountRecord.anonymousAt, AccountRecord.cloudWithId, hdefault,
              hnormal] at hother
            exact hother.symm
        dsimp only
        apply (knownEmail_sure h howner hknown).bind
        rintro bound next ⟨rfl, hbound⟩
        rcases hvalid : bound.filter validEmail with _ | other
        · rw [← howner]
          exact classify_sure h
        · obtain ⟨hsome, -⟩ := Option.filter_eq_some_iff.mp hvalid
          refine Durably.sure_pure ⟨rfl, ?_⟩
          rw [hbound other hsome]
      · rw [howner] at htarget
        cases htarget

theorem resumeMigration_sure (platform : Platform) {startup : Startup} (h : MigrationInv source disk)
    (hnew : NewAccountId startup) (hcurrent : disk.migration.current = some state)
    (hphase : state.phase ≠ .complete) (hreview : state.phase ≠ .requiresReview)
    {found : Option AccountRegistry}
    (hsettled : source.ownership.Settled state.targetAccountId found disk.registry)
    (hclear : clear → state.targetAccountId ≠ none ∧ Free startup disk) :
    (resumeMigration platform startup state found).Sure clear disk (MigrationInv source)
      fun context next => Arrived source next context.accountId := by
  unfold resumeMigration
  rcases hid : state.targetAccountId with _ | id
  · exact Durably.sure_throw h fun hfree => (hclear hfree).1 hid
  · have hregistered := (h.noted state hcurrent).registered
    rw [hid] at hregistered hsettled
    obtain ⟨htarget, -⟩ := hregistered
    have howner : ∀ reason, source.ownership ≠ .ambiguous reason := by
      intro reason hreason
      rw [hreason] at htarget
      cases htarget
    apply Durably.sure_check_bind htarget.validate
    have hactive : ¬ (found.any fun registry => registry.activeAccountId != defaultAccountId &&
        registry.activeAccountId != id) = true := by
      rcases hsettled with ⟨rfl, -⟩ | ⟨_, registry, hsome, rfl, hcommits, -⟩
      · simp
      · cases hsome
        simp [hcommits.active]
    apply Durably.sure_check_bind (refuseIf_eq_ok_iff.mpr hactive)
    apply (resumedOwnership_sure h htarget hsettled).bind
    rintro _ next ⟨rfl, rfl⟩
    apply runMigration_sure platform h hnew ⟨hcurrent, ?_⟩ fun hfree => ⟨howner, (hclear hfree).2⟩
    intro other hother
    cases hother
    exact ⟨hphase, hreview, by simp [hid]⟩

end Steps

end Accounts

end ShishiTodo
