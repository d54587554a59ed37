import ShishiTodo.Accounts.FreshInstallation
import ShishiTodo.Accounts.LegacyMigration
import ShishiTodo.Lib.Machine

/-!
# Runs of the migration

Starts in a root where an older version left its database, each under any faults.
-/

namespace ShishiTodo

namespace Accounts

open Lib

section Start

variable {clear : Prop} {platform : Platform} {startup : Startup} {source : Database} {disk : Disk}
  {state : MigrationState}

/-! ### Reading the files -/

theorem MigrationInv.relocate (h : MigrationInv source disk) {file : StateFile MigrationState}
    (hsound : file.Sound fun state => state.version = migrationStateVersion)
    (hcurrent : file.current = disk.migration.current) (hnever : file.current = none → file.Never) :
    MigrationInv source { disk with migration := file } where
  copies := ⟨h.copies.legacy, h.copies.installation, h.copies.databases, h.copies.backups⟩
  sound := hsound
  never := fun hnone => ⟨hnever hnone, (h.never (hcurrent.symm.trans hnone)).2⟩
  noted := fun state hstate => (h.noted state (hcurrent.symm.trans hstate)).of_same rfl rfl rfl

theorem loadMigration_sure (h : MigrationInv source disk) :
    (MigrationState.load platform).Sure clear disk (MigrationInv source) fun found next =>
      ∃ file, next = { disk with migration := file } ∧ MigrationInv source next ∧
        found = file.current ∧ file.current = disk.migration.current := by
  unfold MigrationState.load Disk.inMigration
  apply Durably.Sure.zoom
  rcases hcurrent : disk.migration.current with _ | state
  · have hnever := (h.never hcurrent).1
    refine ⟨fun faults => ?_, fun _ => ⟨_, _, hnever.load platform [], trivial⟩⟩
    unfold Durably.Meets
    rw [hnever.load platform faults]
    exact ⟨disk.migration, rfl, h, hcurrent.symm, hcurrent⟩
  · have hkept : ∀ file : StateFile MigrationState,
        (file.Sound fun state => state.version = migrationStateVersion) ∧
          file.current = disk.migration.current →
        MigrationInv source { disk with migration := file } := by
      rintro file ⟨hsound, hsame⟩
      apply h.relocate hsound hsame
      intro hnone
      rw [hsame, hcurrent] at hnone
      cases hnone
    refine ⟨?_, fun _ => ?_⟩
    · apply (h.sound.load platform).mono
      · exact hkept
      · rintro found file ⟨hsound, hsame, hfound, -⟩
        exact ⟨file, rfl, hkept file ⟨hsound, hsame⟩, hfound.trans hsame.symm, hsame.trans hcurrent⟩
    · apply (h.sound.load_succeeds platform ?_ ?_).mono fun _ _ _ => trivial
      · intro state hversion
        exact refuseIf_eq_ok_iff.mpr (not_not.mpr hversion)
      · apply StateFile.not_lost_of_never
        intro hnone
        rw [hcurrent] at hnone
        cases hnone

theorem load_noInstallation (h : disk.installation = .empty) (faults : List Fault) :
    InstallationState.load platform disk faults = (.done none, disk, faults) := by
  obtain ⟨registry, switch, migration, installation, databases, legacy, backups⟩ := disk
  cases h
  rfl

theorem loadInstallation_sure (h : MigrationInv source disk) :
    (InstallationState.load platform).Sure clear disk (MigrationInv source) fun found next =>
      found = none ∧ next = disk := by
  have hnone := h.copies.installation
  refine ⟨fun faults => ?_, fun _ => ⟨_, _, load_noInstallation hnone [], trivial⟩⟩
  unfold Durably.Meets
  rw [load_noInstallation hnone faults]
  exact ⟨rfl, rfl⟩

theorem loadRegistry_sure (h : MigrationInv source disk)
    (hread : clear → ¬ AccountRegistry.Unreadable disk.registry) :
    (loadRegistry platform).Sure clear disk (MigrationInv source) fun found next =>
      ∃ file, next = { disk with registry := file } ∧ MigrationInv source next ∧
        source.ownership.Settled (disk.migration.current.bind MigrationState.targetAccountId) found
          file := by
  apply Durably.Sure.of_clear _ hread
  apply (h.load_sure platform).mono
  · rintro next ⟨file, rfl, hfile⟩
    exact h.reloaded hfile
  · rintro found next ⟨file, rfl, hfile, hsettled⟩
    exact ⟨file, rfl, h.reloaded hfile, hsettled⟩

/-! ### After the end -/

/-- Another registry of the target takes the place of the one that stands. -/
theorem MigrationInv.resettle (h : MigrationInv source disk) (hcurrent : disk.migration.current = some state)
    {id : String} (hid : state.targetAccountId = some id) {registry : AccountRegistry}
    {file : StateFile AccountRegistry} (hcommits : source.ownership.Commits id registry)
    (hstands : registry.StandsIn file) : MigrationInv source { disk with registry := file } where
  copies := ⟨h.copies.legacy, h.copies.installation, h.copies.databases, h.copies.backups⟩
  sound := h.sound
  never := fun hnone => by
    dsimp only at hnone
    rw [hcurrent] at hnone
    cases hnone
  noted := fun other hother => by
    obtain rfl := Option.some.inj (hcurrent.symm.trans hother)
    have hnoted := h.noted state hcurrent
    have hregistered := hnoted.registered
    rw [hid] at hregistered
    refine ⟨hnoted.version, ?_, hnoted.backup, hnoted.review, fun hphase => ?_⟩
    · rw [hid]
      exact ⟨hregistered.1, registry, hcommits, .inr hstands⟩
    · obtain ⟨other, hother, -, hplace⟩ := hnoted.complete hphase
      obtain rfl := Option.some.inj (hid.symm.trans hother)
      exact ⟨id, hid, ⟨registry, hcommits, hstands⟩, hplace⟩

theorem openActive_sure (h : MigrationInv source disk) (hcurrent : disk.migration.current = some state)
    (hphase : state.phase = .complete) {id : String} (hid : state.targetAccountId = some id)
    {registry : AccountRegistry} (hcommits : source.ownership.Commits id registry)
    (hstands : registry.StandsIn disk.registry) (migrated : Bool) :
    (openActive platform startup registry migrated).Sure clear disk (MigrationInv source)
      fun context next => Arrived source next context.accountId := by
  have hregistered := (h.noted state hcurrent).registered
  rw [hid] at hregistered
  have htouched := hcommits.touch startup.now
  have hvalid := htouched.valid source.ownership_known hregistered.1
  obtain ⟨context, hcontext, haccount⟩ := htouched.context hregistered.1 migrated
  have hsave : (saveRegistry platform
      (registry.modify registry.activeAccountId (AccountRecord.touch startup.now))).Sure clear disk
        (MigrationInv source) fun _ next => ∃ file, next = { disk with registry := file } ∧
          MigrationInv source next := by
    unfold saveRegistry Disk.inRegistry
    apply Durably.Sure.zoom
    refine ⟨fun faults => ?_, fun _ => (AccountRegistry.save_succeeds platform hvalid).mono
      fun _ _ _ => trivial⟩
    apply (hstands.save platform).mono
    intro ending file _ hfile
    have hkept : ∀ {other : AccountRegistry}, source.ownership.Commits id other → other.StandsIn file →
        MigrationInv source { disk with registry := file } := h.resettle hcurrent hid
    cases ending with
    | done _ => exact ⟨file, rfl, hkept htouched hfile.1⟩
    | failed _ => exact hfile.elim (hkept hcommits) (hkept htouched)
    | crashed => exact hfile.elim (hkept hcommits) (hkept htouched)
  unfold openActive
  dsimp only
  apply hsave.bind
  rintro _ _ ⟨file, rfl, hnext⟩
  refine Durably.sure_ofExcept hcontext ⟨hnext, state, hcurrent, hphase, ?_⟩
  rw [haccount]
  exact hid

theorem requireDatabase_sure (h : MigrationInv source disk) {id : String}
    (hplace : disk.databases.lookup id = some (some source)) :
    (requireDatabase id).Sure clear disk (MigrationInv source) fun _ next => next = disk := by
  unfold requireDatabase verifyIntegrity
  apply Durably.sure_get_bind
  rw [hplace]
  apply Durably.sure_check_bind (by simp [refuseIf])
  apply ((readSnapshot_sure disk source).mono (fun _ hnext => hnext ▸ h) fun _ _ hnext => hnext).bind
  rintro _ _ ⟨rfl, -⟩
  exact Durably.sure_pure rfl

/-! ### The start -/

theorem startWithRegistry_sure (h : MigrationInv source disk) (hnew : NewAccountId startup)
    (hcurrent : disk.migration.current = some state) {id : String} {registry : AccountRegistry}
    (hid : state.targetAccountId = some id) (hcommits : source.ownership.Commits id registry)
    (hstands : registry.StandsIn disk.registry)
    (hname : clear → disk.backups.lookup (backupPath startup) = none) :
    (startWithRegistry platform startup (some state) registry).Sure clear disk (MigrationInv source)
      fun context next => Arrived source next context.accountId := by
  have hnoted := h.noted state hcurrent
  have hregistered := hnoted.registered
  rw [hid] at hregistered
  obtain ⟨htarget, -⟩ := hregistered
  have hactive := hcommits.active
  have howner : ∀ reason, source.ownership ≠ .ambiguous reason := by
    intro reason hreason
    rw [hreason] at htarget
    cases htarget
  unfold startWithRegistry
  dsimp only
  rw [hactive]
  apply Durably.sure_check_bind htarget.validate
  apply Durably.sure_get_bind
  have hopen : state.phase ≠ .requiresReview := by
    intro hphase
    obtain ⟨reason, hreason⟩ := hnoted.review hphase
    exact howner reason hreason
  rw [if_neg hopen]
  split
  · rename_i hphase
    obtain ⟨other, hother, -, hplace⟩ := hnoted.complete hphase
    obtain rfl := Option.some.inj (hid.symm.trans hother)
    rw [hid]
    dsimp only
    apply (requireDatabase_sure h hplace).bind
    rintro _ _ rfl
    have hsame : (Durably.when (id ≠ id) do
        .ofExcept (validateAccountId id)
        requireDatabase id : Durably Disk AccountError Unit) = pure () := if_neg fun hne => hne rfl
    rw [hsame]
    exact openActive_sure h hcurrent hphase hid hcommits hstands _
  · rename_i hphase
    rw [hid]
    dsimp only
    apply Durably.sure_check_bind (refuseIf_eq_ok_iff.mpr fun hother => hother.2 rfl)
    apply Durably.sure_check_bind (by simp [refuseIf, h.copies.legacy])
    apply resumeMigration_sure platform h hnew hcurrent hphase hopen
    · rw [hid]
      exact .inr ⟨id, registry, rfl, rfl, hcommits, hstands⟩
    · intro hfree
      refine ⟨by simp [hid], fun hread => ?_, hname hfree⟩
      exact Ownership.Settled.readable (.inr ⟨id, registry, rfl, rfl, hcommits, hstands⟩) hread

/-- A start that finds no registry, but for a state that waits for a review. -/
theorem startWithoutRegistry_sure (h : MigrationInv source disk) (hnew : NewAccountId startup)
    (hnone : AccountRegistry.NoRegistry disk.registry)
    (hclear : clear → (∀ reason, source.ownership ≠ .ambiguous reason) ∧ Free startup disk ∧
      ∀ state, disk.migration.current = some state → state.targetAccountId ≠ none) :
    (startWithoutRegistry platform startup disk.migration.current).Sure clear disk (MigrationInv source)
      fun context next => Arrived source next context.accountId := by
  unfold startWithoutRegistry
  apply Durably.sure_get_bind
  rcases hcurrent : disk.migration.current with _ | state
  · dsimp only
    rw [if_pos (by simp [h.copies.legacy])]
    apply (classify_sure h).bind
    rintro _ next ⟨rfl, rfl⟩
    refine runMigration_sure platform h hnew ⟨hcurrent, fun _ hstate => by cases hstate⟩ fun hfree => ?_
    exact ⟨(hclear hfree).1, (hclear hfree).2.1⟩
  · dsimp only
    have hnoted := h.noted state hcurrent
    split
    · rename_i hphase
      obtain ⟨reason, hreason⟩ := hnoted.review hphase
      exact Durably.sure_throw h fun hfree => (hclear hfree).1 reason hreason
    · rename_i hopen
      split
      · rename_i hphase
        obtain ⟨id, -, ⟨registry, -, hstands⟩, -⟩ := hnoted.complete hphase
        have hcandidates : disk.registry.current = none := by
          rw [StateFile.current, hnone.target, StateFile.candidates, hnone.journal]
          rfl
        rw [hstands.current] at hcandidates
        cases hcandidates
      · rename_i hphase
        exact resumeMigration_sure platform h hnew hcurrent hphase hopen (.inl ⟨rfl, hnone⟩)
          fun hfree => ⟨(hclear hfree).2.2 state hcurrent, (hclear hfree).2.1⟩

/-- Whatever goes wrong a start leaves what the next goes on from, and where the owner is known and nothing is in the way it comes to the end. -/
theorem ensure_sure (h : MigrationInv source disk) (hnew : NewAccountId startup)
    (hclear : clear → (∀ reason, source.ownership ≠ .ambiguous reason) ∧ Free startup disk ∧
      ∀ state, disk.migration.current = some state → state.targetAccountId ≠ none) :
    (ensureActiveAccount platform startup).Sure clear disk (MigrationInv source) fun context next =>
      Arrived source next context.accountId := by
  unfold ensureActiveAccount
  apply (loadMigration_sure h).bind
  rintro _ _ ⟨migration, rfl, hnext, rfl, hcurrent⟩
  apply (loadInstallation_sure hnext).bind
  rintro _ _ ⟨rfl, rfl⟩
  unfold startFrom
  apply (loadRegistry_sure hnext fun hfree => (hclear hfree).2.1.readable).bind
  rintro found _ ⟨file, rfl, hlast, hsettled⟩
  dsimp only at hsettled ⊢
  rcases hsettled with ⟨rfl, hnone⟩ | ⟨id, registry, hid, rfl, hcommits, hstands⟩
  · refine startWithoutRegistry_sure hlast hnew hnone fun hfree => ?_
    obtain ⟨howner, hway, hstate⟩ := hclear hfree
    refine ⟨howner, ⟨fun hread => hread.2.1 hnone.pieces, hway.backup⟩, fun state hfound => ?_⟩
    exact hstate state (hcurrent.symm.trans hfound)
  · rcases hstate : migration.current with _ | state
    · rw [hstate] at hid
      cases hid
    · rw [hstate] at hid
      exact startWithRegistry_sure hlast hnew hstate hid hcommits hstands
        fun hfree => (hclear hfree).2.1.backup

/-- A start of which nothing goes wrong finds the registry as it was. -/
theorem ensure_fails {post : AccountError → Disk → Prop} (h : MigrationInv source disk)
    (hread : ¬ AccountRegistry.Unreadable disk.registry)
    (htarget : disk.migration.current.bind MigrationState.targetAccountId = none)
    (hrest : ∀ next : Disk, MigrationInv source next → next.migration.current = disk.migration.current →
      next.backups = disk.backups → AccountRegistry.NoRegistry next.registry →
      (startWithoutRegistry platform startup next.migration.current).Fails next post) :
    (ensureActiveAccount platform startup).Fails disk post := by
  have hload : (MigrationState.load platform).Sure True disk (MigrationInv source) _ :=
    loadMigration_sure h
  unfold ensureActiveAccount
  apply (hload.succeeds trivial).fails
  rintro _ _ ⟨migration, rfl, hnext, rfl, hcurrent⟩
  have hinstallation : (InstallationState.load platform).Sure True { disk with migration := migration }
      (MigrationInv source) _ := loadInstallation_sure hnext
  apply (hinstallation.succeeds trivial).fails
  rintro _ _ ⟨rfl, rfl⟩
  have hregistry : (loadRegistry platform).Sure True { disk with migration := migration }
      (MigrationInv source) _ := loadRegistry_sure hnext fun _ => hread
  unfold startFrom
  apply (hregistry.succeeds trivial).fails
  rintro found _ ⟨file, rfl, hlast, hsettled⟩
  dsimp only at hsettled ⊢
  rw [hcurrent, htarget] at hsettled
  rcases hsettled with ⟨rfl, hnone⟩ | ⟨id, registry, hid, -⟩
  · exact hrest _ hlast hcurrent rfl hnone
  · cases hid

/-- A database whose owner is not known comes into the review, and stays there. -/
theorem ensure_reviews {reason : String} (h : MigrationInv source disk)
    (howner : source.ownership = .ambiguous reason) (hfree : Free startup disk)
    (hstate : ∀ state, disk.migration.current = some state → state.phase = .requiresReview) :
    (ensureActiveAccount platform startup).Fails disk fun error next =>
      (∃ text, error = .needsReview text) ∧ InReview source next := by
  have htarget : disk.migration.current.bind MigrationState.targetAccountId = none := by
    have hregistered := h.registered
    generalize disk.migration.current.bind MigrationState.targetAccountId = target at hregistered ⊢
    cases target with
    | none => rfl
    | some id =>
        rw [howner] at hregistered
        cases hregistered.1
  apply ensure_fails h hfree.readable htarget
  intro next hnext hcurrent hbackups hnone
  unfold startWithoutRegistry
  apply Durably.fails_get_bind
  rcases hfound : next.migration.current with _ | state
  · dsimp only
    rw [if_pos (by simp [hnext.copies.legacy])]
    have hclassify : classifyLegacyDatabase.Sure True next (MigrationInv source) _ := classify_sure hnext
    apply (hclassify.succeeds trivial).fails
    rintro _ _ ⟨rfl, rfl⟩
    refine runMigration_reviews platform hnext howner ⟨hfound, fun _ hsome => by cases hsome⟩ ?_
    exact ⟨fun hread => hread.2.1 hnone.pieces, hbackups ▸ hfree.backup⟩
  · dsimp only
    have hphase := hstate state (hcurrent.symm.trans hfound)
    rw [if_pos hphase]
    exact Durably.fails_throw ⟨⟨_, rfl⟩, hnext, state, hfound, hphase⟩

/-! ### Every run -/

/-- A later start, with a new UUID. -/
structure LegacyStart where
  startup : Startup
  faults : List Fault
  fresh : NewAccountId startup

def migrationRuns (platform : Platform) : Machine Disk LegacyStart Unit where
  step disk start := (ensureActiveAccount platform start.startup disk start.faults).2.1
  emit _ _ := []

/-- COMPLETE, and the active account's database carries the fingerprint of the source. -/
structure Migrated (source : Database) (context : ActiveAccountContext) (disk : Disk) : Prop where
  state : ∃ state, disk.migration.current = some state ∧ state.phase = .complete
  active : ∃ registry, disk.registry.current = some registry ∧
    registry.activeAccountId = context.accountId
  database : ∃ database, disk.databases.lookup context.accountId = some (some database) ∧
    database.snapshot.fingerprint = source.snapshot.fingerprint

/-- The state file says that the database waits for a review. -/
def UnderReview (disk : Disk) : Prop :=
  ∃ state, disk.migration.current = some state ∧ state.phase = .requiresReview

/-- What is asked of every state: the source is there as it was, a backup that the state names is a copy of it, and a start in which nothing goes wrong brings the migration to its end, or into the review where the owner is ambiguous. -/
structure MigrationSafe (platform : Platform) (source : Database) (disk : Disk) : Prop where
  unaltered : disk.legacy = some (some source)
  backup : ∀ state path, disk.migration.current = some state → state.backupFile = some path →
    disk.backups.lookup path = some (some source)
  finishes : (∀ reason, source.ownership ≠ .ambiguous reason) → ∀ startup, NewAccountId startup →
    disk.backups.lookup (backupPath startup) = none →
    (ensureActiveAccount platform startup).Succeeds disk (Migrated source)
  reviews : ∀ reason, source.ownership = .ambiguous reason → ∀ startup, NewAccountId startup →
    disk.backups.lookup (backupPath startup) = none →
    (ensureActiveAccount platform startup).Fails disk fun error next =>
      (∃ text, error = .needsReview text) ∧ UnderReview next

/-- What stops every later start: leftovers of a first registry of which none can be read, or a state without a target that does not wait for a review. -/
def Stuck (disk : Disk) : Prop :=
  AccountRegistry.Unreadable disk.registry ∨
    ∃ state, disk.migration.current = some state ∧ state.targetAccountId = none ∧
      state.phase ≠ .requiresReview

theorem Arrived.migrated {context : ActiveAccountContext} (h : Arrived source disk context.accountId) :
    Migrated source context disk := by
  obtain ⟨state, hcurrent, hphase, hid⟩ := h.state
  obtain ⟨id, hother, ⟨registry, hcommits, hstands⟩, hplace⟩ :=
    (h.inv.noted state hcurrent).complete hphase
  obtain rfl := Option.some.inj (hid.symm.trans hother)
  exact ⟨⟨state, hcurrent, hphase⟩, ⟨registry, hstands.current, hcommits.active⟩, source, hplace, rfl⟩

theorem InReview.under (h : InReview source disk) : UnderReview disk := h.state

theorem ensure_fails_of_unreadable (h : MigrationInv source disk)
    (hread : AccountRegistry.Unreadable disk.registry) :
    (ensureActiveAccount platform startup).Fails disk fun error _ => ∃ text, error = .invalidRegistry text := by
  have hregistered := h.registered
  have hload : (MigrationState.load platform).Sure True disk (MigrationInv source) _ :=
    loadMigration_sure h
  unfold ensureActiveAccount
  apply (hload.succeeds trivial).fails
  rintro _ _ ⟨migration, rfl, hnext, rfl, -⟩
  have hinstallation : (InstallationState.load platform).Sure True { disk with migration := migration }
      (MigrationInv source) _ := loadInstallation_sure hnext
  apply (hinstallation.succeeds trivial).fails
  rintro _ _ ⟨rfl, rfl⟩
  generalize disk.migration.current.bind MigrationState.targetAccountId = target at hregistered
  cases target with
  | none => exact absurd (AccountRegistry.NoRegistry.pieces hregistered) hread.2.1
  | some id =>
      obtain ⟨htarget, registry, hcommits, hcoming⟩ := hregistered
      obtain ⟨text, htext⟩ := hcoming.load_of_unreadable platform
        (hcommits.valid source.ownership_known htarget) hread []
      apply Durably.Fails.bind
      refine ⟨.invalidRegistry text, { disk with migration := migration }, ?_, text, rfl⟩
      unfold loadRegistry Disk.inRegistry Durably.zoom
      rw [htext]

theorem ensure_stuck (h : MigrationInv source disk) (hstuck : Stuck disk) :
    (ensureActiveAccount platform startup).Fails disk fun error _ => ∃ text, error = .invalidRegistry text := by
  by_cases hread : AccountRegistry.Unreadable disk.registry
  · exact ensure_fails_of_unreadable h hread
  · rcases hstuck with hunreadable | ⟨state, hcurrent, htarget, hopen⟩
    · exact absurd hunreadable hread
    · apply ensure_fails h hread
      · rw [hcurrent]
        exact htarget
      · intro next hnext hsame _ _
        have hfound : next.migration.current = some state := hsame.trans hcurrent
        unfold startWithoutRegistry
        apply Durably.fails_get_bind
        rw [hfound]
        dsimp only
        rw [if_neg hopen]
        split
        · exact Durably.fails_throw ⟨_, rfl⟩
        · unfold resumeMigration
          rw [htarget]
          exact Durably.fails_throw ⟨_, rfl⟩

/-- A UUID, and the name of a backup that is not taken. -/
theorem exists_freeStart (disk : Disk) :
    ∃ startup, NewAccountId startup ∧ disk.backups.lookup (backupPath startup) = none := by
  have hid : validateAccountId "0198a9d2-0000-7000-8000-000000000009" = .ok () := by decide
  refine ⟨⟨"", String.ofList (List.replicate ((disk.backups.keys.map String.length).sum + 1) 'a'),
    "0198a9d2-0000-7000-8000-000000000009", "", ""⟩, ⟨hid, by simp [defaultAccountId]⟩, ?_⟩
  apply lookup_of_longer
  apply length_between
  rw [String.length_ofList, List.length_replicate]

/-- A state is safe exactly when it is not stuck. -/
theorem migrationSafe_iff (h : MigrationInv source disk) :
    MigrationSafe platform source disk ↔ ¬ Stuck disk := by
  constructor
  · intro hsafe hstuck
    obtain ⟨startup, hnew, hname⟩ := exists_freeStart disk
    have hfails : (ensureActiveAccount platform startup).Fails disk _ := ensure_stuck h hstuck
    by_cases howner : ∀ reason, source.ownership ≠ .ambiguous reason
    · exact hfails.not_succeeds (hsafe.finishes howner startup hnew hname)
    · push Not at howner
      obtain ⟨reason, hreason⟩ := howner
      obtain ⟨error, next, hrun, ⟨text, rfl⟩, -⟩ := hsafe.reviews reason hreason startup hnew hname
      obtain ⟨other, last, hother, told, rfl⟩ := hfails
      rw [hrun] at hother
      cases hother
  · intro hsafe
    obtain ⟨hread, hstate⟩ := not_or.mp hsafe
    have hopen : ∀ state, disk.migration.current = some state → state.targetAccountId = none →
        state.phase = .requiresReview := by
      intro state hcurrent htarget
      by_contra hphase
      exact hstate ⟨state, hcurrent, htarget, hphase⟩
    refine ⟨h.copies.legacy, fun state path hcurrent => (h.noted state hcurrent).backup path,
      fun howner startup hnew hname => ?_, fun reason hreason startup hnew hname => ?_⟩
    · have hsure : (ensureActiveAccount platform startup).Sure True disk (MigrationInv source)
          fun context next => Arrived source next context.accountId := by
        apply ensure_sure h hnew
        refine fun _ => ⟨howner, ⟨hread, hname⟩, fun state hcurrent htarget => ?_⟩
        obtain ⟨reason, hreason⟩ := (h.noted state hcurrent).review (hopen state hcurrent htarget)
        exact howner reason hreason
      exact (hsure.succeeds trivial).mono fun _ _ hnext => hnext.migrated
    · have hreviews : (ensureActiveAccount platform startup).Fails disk fun error next =>
          (∃ text, error = .needsReview text) ∧ InReview source next := by
        apply ensure_reviews h hreason ⟨hread, hname⟩
        intro state hcurrent
        apply hopen state hcurrent
        have hregistered := (h.noted state hcurrent).registered
        rcases htarget : state.targetAccountId with _ | id
        · rfl
        · rw [htarget, hreason] at hregistered
          cases hregistered.1
      exact hreviews.mono fun _ _ hnext => ⟨hnext.1, hnext.2.under⟩

/-- Every start leaves what the next goes on from. -/
theorem migration_step_inv (h : MigrationInv source disk) (start : LegacyStart) :
    MigrationInv source ((migrationRuns platform).step disk start) := by
  have hsure : (ensureActiveAccount platform start.startup).Sure False disk (MigrationInv source) _ :=
    ensure_sure h start.fresh fun hfalse => hfalse.elim
  have hnext := hsure.1 start.faults
  unfold Durably.Meets at hnext
  change MigrationInv source (ensureActiveAccount platform start.startup disk start.faults).2.1
  rcases hrun : ensureActiveAccount platform start.startup disk start.faults with ⟨ending, next, left⟩
  rw [hrun] at hnext
  cases ending with
  | done context => exact hnext.inv
  | failed _ => exact hnext
  | crashed => exact hnext

/-- A root that an older version left: its database, and nothing else. -/
def legacyRoot (source : Database) : Disk := ⟨.empty, .empty, .empty, .empty, ∅, some (some source), ∅⟩

theorem legacyRoot_inv (source : Database) : MigrationInv source (legacyRoot source) where
  copies := ⟨rfl, rfl, fun _ _ h => (by cases h), fun _ _ h => (by cases h)⟩
  sound := StateFile.sound_empty
  never := fun _ => ⟨⟨rfl, rfl⟩, rfl, rfl, rfl⟩
  noted := fun _ h => by cases h

/-- In every run of starts, each under any faults, every state is safe exactly when none of them is stuck. -/
theorem legacy_migration_safe_iff (platform : Platform) (source : Database) (starts : List LegacyStart) :
    (migrationRuns platform).Along (fun disk _ => MigrationSafe platform source disk)
        (legacyRoot source) starts ↔
      (migrationRuns platform).Along (fun disk _ => ¬ Stuck disk) (legacyRoot source) starts := by
  apply (migrationRuns platform).along_congr (MigrationInv source)
  · exact fun _ start h _ => migration_step_inv h start
  · exact fun _ _ h => migrationSafe_iff h
  · exact legacyRoot_inv source

end Start

/-! Starts that are cut, and the next, in which nothing goes wrong. -/

/-- A start, with the UUID that is drawn in all of these runs. -/
def legacyStart (now asideId : String) (faults : List Fault)
    (h : NewAccountId (startAt now asideId)) : LegacyStart := ⟨startAt now asideId, faults, h⟩

theorem newAccountId_startAt (now asideId : String) : NewAccountId (startAt now asideId) := by
  have hnew : NewAccountId (startAt "" "") := by decide
  exact hnew

/-- The source cannot be read once; what is recorded has no target. -/
def unreadOnce : LegacyStart := legacyStart "t1" "a1" [.none, .fail] (newAccountId_startAt _ _)

/-- Cut while the first accounts.json is written. -/
def cutFirstRegistry : LegacyStart :=
  legacyStart "t1" "a1" (List.replicate 31 .none ++ [.crash]) (newAccountId_startAt _ _)

/-- Cut between the backup of an ambiguous database and its review. -/
def cutReview : LegacyStart :=
  legacyStart "t1" "a1" (List.replicate 13 .none ++ [.crash]) (newAccountId_startAt _ _)

def unclearDatabase : Database := { olderDatabase with syncEnabled := some "true" }

def afterStart (source : Database) (start : LegacyStart) : Disk :=
  (migrationRuns .unix).step (legacyRoot source) start

theorem not_safe_of_failed {source : Database} {disk : Disk} {startup : Startup} {text : String}
    (hnew : NewAccountId startup) (hname : disk.backups.lookup (backupPath startup) = none)
    (hfailed : (ensureActiveAccount .unix startup disk []).1 = .failed (.invalidRegistry text)) :
    ¬ MigrationSafe .unix source disk := by
  intro hsafe
  by_cases howner : ∀ reason, source.ownership ≠ .ambiguous reason
  · obtain ⟨context, next, hdone, -⟩ := hsafe.finishes howner startup hnew hname
    rw [hdone] at hfailed
    cases hfailed
  · push Not at howner
    obtain ⟨reason, hreason⟩ := howner
    obtain ⟨error, next, hrun, ⟨_, rfl⟩, -⟩ := hsafe.reviews reason hreason startup hnew hname
    rw [hrun] at hfailed
    cases hfailed

/-- One failed reading of the source, or one crash, after which no start comes to an end: two without a target in the state, and one with a half-written registry. -/
theorem interrupted_migration_stuck :
    (¬ (migrationRuns .unix).Along (fun disk _ => MigrationSafe .unix olderDatabase disk)
        (legacyRoot olderDatabase) [unreadOnce, legacyStart "t2" "a2" [] (newAccountId_startAt _ _)]) ∧
      (¬ (migrationRuns .unix).Along (fun disk _ => MigrationSafe .unix olderDatabase disk)
        (legacyRoot olderDatabase)
        [cutFirstRegistry, legacyStart "t2" "a2" [] (newAccountId_startAt _ _)]) ∧
      ¬ (migrationRuns .unix).Along (fun disk _ => MigrationSafe .unix unclearDatabase disk)
        (legacyRoot unclearDatabase) [cutReview, legacyStart "t2" "a2" [] (newAccountId_startAt _ _)] := by
  have hread : (afterStart olderDatabase unreadOnce).backups.lookup (backupPath (startAt "t2" "a2")) =
        none ∧
      (ensureActiveAccount .unix (startAt "t2" "a2") (afterStart olderDatabase unreadOnce) []).1 =
        .failed (.invalidRegistry "migration state has no target account") := by
    decide
  have hregistry : (afterStart olderDatabase cutFirstRegistry).backups.lookup
        (backupPath (startAt "t2" "a2")) = none ∧
      (ensureActiveAccount .unix (startAt "t2" "a2") (afterStart olderDatabase cutFirstRegistry) []).1 =
        .failed (.invalidRegistry "registry replacement artifacts exist but none is valid") := by
    decide
  have hreview : (afterStart unclearDatabase cutReview).backups.lookup
        (backupPath (startAt "t2" "a2")) = none ∧
      (ensureActiveAccount .unix (startAt "t2" "a2") (afterStart unclearDatabase cutReview) []).1 =
        .failed (.invalidRegistry "migration state has no target account") := by
    decide
  refine ⟨fun hsafe => ?_, fun hsafe => ?_, fun hsafe => ?_⟩
  · exact not_safe_of_failed (newAccountId_startAt _ _) hread.1 hread.2 hsafe.2.1
  · exact not_safe_of_failed (newAccountId_startAt _ _) hregistry.1 hregistry.2 hsafe.2.1
  · exact not_safe_of_failed (newAccountId_startAt _ _) hreview.1 hreview.2 hsafe.2.1

end Accounts

end ShishiTodo
