import ShishiTodo.Accounts.Loading
import ShishiTodo.Lib.Machine

/-!
# The first installation

Starts in a root without a legacy database, each under any faults, with database files that others put there in between. The marker of the installation stands from before the first file of the account is made until the account is complete.
-/

namespace ShishiTodo

namespace Accounts

open Lib

/-! ### The runs -/

/-- The root, and whether the database of the default account that is there was made by a start. -/
structure FreshWorld where
  disk : Disk
  own : Bool

inductive FreshEvent where
  | start (startup : Startup) (faults : List Fault)
  /-- Somebody else puts a database where none is. -/
  | place (id : String) (content : Option Database)

/-- Nothing lies under the name that was drawn for a file put aside. -/
def NewName (startup : Startup) (disk : Disk) : Prop := disk.backups.lookup (freshAside startup) = none

instance (startup : Startup) (disk : Disk) : Decidable (NewName startup disk) :=
  inferInstanceAs (Decidable (_ = none))

/-- Whether the database is one that a start made: it was put in the place of one that was put aside, or where none was. -/
def ownAfter (startup : Startup) (before after : Disk) (own : Bool) : Bool :=
  if (after.backups.lookup (freshAside startup)).isSome then
    (after.databases.lookup defaultAccountId).isSome
  else if (before.databases.lookup defaultAccountId).isSome then own
  else (after.databases.lookup defaultAccountId).isSome

def FreshWorld.step (platform : Platform) (world : FreshWorld) : FreshEvent → FreshWorld
  | .start startup faults =>
      if NewName startup world.disk then
        let after := (ensureActiveAccount platform startup world.disk faults).2.1
        ⟨after, ownAfter startup world.disk after world.own⟩
      else world
  | .place id content =>
      if (world.disk.databases.lookup id).isSome then world
      else ⟨world.disk.putDatabase id content, world.own && id != defaultAccountId⟩

def freshRuns (platform : Platform) : Machine FreshWorld FreshEvent Unit where
  step := FreshWorld.step platform
  emit _ _ := []

/-- A database that no start made. -/
def FreshWorld.Foreign (world : FreshWorld) (id : String) : Prop :=
  (world.disk.databases.lookup id).isSome = true ∧ (id = defaultAccountId → world.own = false)

/-- One registered account, active, with its database. -/
structure Installed (disk : Disk) : Prop where
  registry : ∃ registry, FirstRegistry registry ∧ disk.registry.target = some registry
  database : ∃ database, disk.databases.lookup defaultAccountId = some (some database)

/-- What is asked of every state: a start in which nothing goes wrong completes the installation where no file is in its way, and no start, whatever goes wrong, takes over or writes over a database that no start made. -/
structure InstallSafe (platform : Platform) (world : FreshWorld) : Prop where
  finishes : (∀ id, ¬ world.Foreign id) → ∀ startup, NewName startup world.disk →
    (ensureActiveAccount platform startup).Succeeds world.disk fun context next =>
      context.accountId = defaultAccountId ∧ Installed next ∧
        ownAfter startup world.disk next world.own = true
  spares : ∀ startup faults id content, NewName startup world.disk → world.Foreign id →
    world.disk.databases.lookup id = some content →
    (ensureActiveAccount platform startup).Meets world.disk faults fun ending next _ =>
      (next.databases.lookup id = some content ∨
        next.backups.lookup (freshAside startup) = some content) ∧
      (∀ context, ending = .done context → context.accountId = id →
        next.backups.lookup (freshAside startup) = some content) ∧
      ∀ name old, world.disk.backups.lookup name = some old → next.backups.lookup name = some old

/-- Files that an interrupted start left stop every start after it. -/
def Blocked (disk : Disk) : Prop :=
  AccountRegistry.Unreadable disk.registry ∨ disk.installation.Lost

/-- The marker stands, and the database of the default account can be read and is not its own. -/
def Adoptable (world : FreshWorld) : Prop :=
  world.disk.installation.current.isSome = true ∧ world.own = false ∧
    (∃ database, world.disk.databases.lookup defaultAccountId = some (some database)) ∧
    (∀ id, (world.disk.databases.lookup id).isSome = true → id = defaultAccountId) ∧
    ¬ AccountRegistry.Unreadable world.disk.registry

/-- The state that goes wrong. -/
def Unsafe (world : FreshWorld) : Prop :=
  (∀ id, ¬ world.Foreign id) ∧ Blocked world.disk ∨ Adoptable world

/-! ### The databases -/

/-- What the run of a start may do to databases: it makes or puts aside the one of the default account. -/
structure Spared (startup : Startup) (before next : Disk) : Prop where
  others : ∀ id, id ≠ defaultAccountId → next.databases.lookup id = before.databases.lookup id
  backups : ∀ name, name ≠ freshAside startup → next.backups.lookup name = before.backups.lookup name
  kept : ∀ content, before.databases.lookup defaultAccountId = some content →
    next.databases.lookup defaultAccountId = some content ∧
        next.backups.lookup (freshAside startup) = before.backups.lookup (freshAside startup) ∨
      next.backups.lookup (freshAside startup) = some content
  unused : before.databases.lookup defaultAccountId = none →
    next.backups.lookup (freshAside startup) = before.backups.lookup (freshAside startup)

/-- Nothing but databases and backups has changed. -/
structure SameState (disk next : Disk) : Prop where
  registry : next.registry = disk.registry
  migration : next.migration = disk.migration
  installation : next.installation = disk.installation
  legacy : next.legacy = disk.legacy

/-- Nothing but state files has changed. -/
structure SameData (disk next : Disk) : Prop where
  databases : next.databases = disk.databases
  backups : next.backups = disk.backups

section Databases

variable {clear : Prop} {startup : Startup} {disk before next : Disk}

theorem SameData.spared (h : SameData before next) : Spared startup before next where
  others := fun _ _ => by rw [h.databases]
  backups := fun _ _ => by rw [h.backups]
  kept := fun content hcontent => .inl ⟨by rw [h.databases, hcontent], by rw [h.backups]⟩
  unused := fun _ => by rw [h.backups]

theorem Spared.of_same {other : Disk} (h : Spared startup disk next) (hsame : SameData other disk) :
    Spared startup other next where
  others := fun id hid => (h.others id hid).trans (by rw [hsame.databases])
  backups := fun name hname => (h.backups name hname).trans (by rw [hsame.backups])
  kept := fun content hcontent => by
    rw [← hsame.databases] at hcontent
    rw [← hsame.backups]
    exact h.kept content hcontent
  unused := fun hnone => by
    rw [← hsame.databases] at hnone
    rw [← hsame.backups]
    exact h.unused hnone

theorem Spared.then_same {last : Disk} (h : Spared startup before next) (hsame : SameData next last) :
    Spared startup before last where
  others := fun id hid => by rw [hsame.databases, h.others id hid]
  backups := fun name hname => by rw [hsame.backups, h.backups name hname]
  kept := fun content hcontent => by
    rw [hsame.databases, hsame.backups]
    exact h.kept content hcontent
  unused := fun hnone => by rw [hsame.backups, h.unused hnone]

/-- A database that was put aside, and one in its place. -/
theorem spared_aside {content : Option Database}
    (hcontent : before.databases.lookup defaultAccountId = some content) :
    Spared startup before (before.putAside (freshAside startup) defaultAccountId) := by
  have haside : before.putAside (freshAside startup) defaultAccountId =
      { before with
        databases := before.databases.erase defaultAccountId
        backups := before.backups.insert (freshAside startup) content } := by
    rw [Disk.putAside, hcontent]
  rw [haside]
  refine ⟨fun _ hid => AList.lookup_erase_ne hid, fun _ hname => AList.lookup_insert_ne hname,
    fun found hfound => .inr ?_, fun hnone => ?_⟩
  · rw [hcontent] at hfound
    cases hfound
    exact AList.lookup_insert _
  · rw [hcontent] at hnone
    cases hnone

/-- A database made where the one before, if there was one, has been put aside. -/
theorem Spared.put (h : Spared startup before next)
    (hgone : ∀ content, before.databases.lookup defaultAccountId = some content →
      next.backups.lookup (freshAside startup) = some content) (content : Option Database) :
    Spared startup before (next.putDatabase defaultAccountId content) where
  others := fun id hid => (AList.lookup_insert_ne hid).trans (h.others id hid)
  backups := h.backups
  kept := fun found hfound => .inr (hgone found hfound)
  unused := h.unused

theorem SameState.refl (disk : Disk) : SameState disk disk := ⟨rfl, rfl, rfl, rfl⟩

theorem SameData.refl (disk : Disk) : SameData disk disk := ⟨rfl, rfl⟩

theorem SameState.put (h : SameState before next) (content : Option Database) :
    SameState before (next.putDatabase defaultAccountId content) :=
  ⟨h.registry, h.migration, h.installation, h.legacy⟩

theorem createFreshDatabase_sure (hstate : SameState before disk) (hspared : Spared startup before disk)
    (hgone : ∀ content, before.databases.lookup defaultAccountId = some content →
      disk.backups.lookup (freshAside startup) = some content) :
    (createFreshDatabase startup).Sure clear disk
      (fun next => SameState before next ∧ Spared startup before next)
      fun _ next => (SameState before next ∧ Spared startup before next) ∧
        ∃ database, next.databases.lookup defaultAccountId = some (some database) := by
  unfold createFreshDatabase
  apply Durably.sure_step_bind ⟨hstate, hspared⟩
  have hopened := hspared.put hgone none
  apply Durably.sure_step_bind ⟨hstate.put none, hopened⟩
  have hfilled := hopened.put hgone (some (Database.fresh startup.emptyFingerprint))
  apply Durably.sure_step
  · exact ⟨(hstate.put none).put _, hfilled⟩
  · exact ⟨⟨(hstate.put none).put _, hfilled⟩, _, AList.lookup_insert _⟩

/-- Reading leaves everything as it is, whatever comes of it. -/
theorem attempt_readSnapshot_sure (disk : Disk) (content : Option Database) :
    (Durably.attempt (readSnapshot (some content))).Sure clear disk (fun next => next = disk)
      fun result next => next = disk ∧
        ∀ snapshot, result = .ok snapshot → ∃ database, content = some database := by
  cases content with
  | none =>
      refine ⟨fun faults => ?_, fun _ => ⟨_, _, rfl, trivial⟩⟩
      rw [Durably.meets_attempt]
      apply Durably.meets_step_bind
      · exact fun _ _ => ⟨rfl, fun _ h => by cases h⟩
      · exact fun _ _ => ⟨rfl, fun _ h => by cases h⟩
      · exact fun _ _ => rfl
  | some database =>
      refine ⟨fun faults => ?_, fun _ => ⟨_, _, rfl, trivial⟩⟩
      rw [Durably.meets_attempt]
      apply Durably.meets_step_bind
      · exact fun _ _ => ⟨rfl, fun _ _ => ⟨database, rfl⟩⟩
      · exact fun _ _ => ⟨rfl, fun _ h => by cases h⟩
      · exact fun _ _ => rfl

theorem ensureFreshDatabase_sure (startup : Startup) (disk : Disk) :
    (ensureFreshDatabase startup).Sure clear disk
      (fun next => SameState disk next ∧ Spared startup disk next)
      fun _ next => (SameState disk next ∧ Spared startup disk next) ∧
        ∃ database, next.databases.lookup defaultAccountId = some (some database) := by
  have hsame : SameState disk disk ∧ Spared startup disk disk :=
    ⟨SameState.refl disk, (SameData.refl disk).spared⟩
  unfold ensureFreshDatabase
  apply Durably.sure_get_bind
  rcases hcontent : disk.databases.lookup defaultAccountId with _ | content
  · apply createFreshDatabase_sure hsame.1 hsame.2
    intro content hfound
    rw [hcontent] at hfound
    cases hfound
  · have hread : (Durably.attempt (readSnapshot (some content))).Sure clear disk
        (fun next => SameState disk next ∧ Spared startup disk next)
        fun result next => next = disk ∧
          ∀ snapshot, result = .ok snapshot → ∃ database, content = some database := by
      apply (attempt_readSnapshot_sure disk content).mono
      · rintro next rfl
        exact hsame
      · exact fun _ _ hnext => hnext
    apply hread.bind
    rintro result next ⟨rfl, hresult⟩
    cases result with
    | ok snapshot =>
        obtain ⟨database, rfl⟩ := hresult snapshot rfl
        exact Durably.sure_pure ⟨hsame, database, hcontent⟩
    | error _ =>
        have haside : Spared startup _ _ := spared_aside hcontent
        refine Durably.sure_step_bind hsame ?_
        apply createFreshDatabase_sure
        · rw [Disk.putAside, hcontent]
          exact ⟨rfl, rfl, rfl, rfl⟩
        · exact haside
        · intro found hfound
          rw [hcontent] at hfound
          cases hfound
          rw [Disk.putAside, hcontent]
          exact AList.lookup_insert _

/-- A database that can be read is left where it is. -/
theorem ensureFreshDatabase_keeps {database : Database}
    (hdatabase : disk.databases.lookup defaultAccountId = some (some database)) :
    (ensureFreshDatabase startup).Succeeds disk fun _ next => next = disk := by
  unfold ensureFreshDatabase
  apply Durably.succeeds_get_bind
  rw [hdatabase]
  exact ⟨_, _, rfl, rfl⟩

end Databases

/-! ### The state files -/

/-- The state files other than the registry, in a root without a legacy database. -/
structure FreshFiles (disk : Disk) : Prop where
  legacy : disk.legacy = none
  migration : disk.migration = .empty
  marker : disk.installation.Sound fun state => state.validate = .ok ()

/-- The marker stands, and the registry is on its way. -/
structure Underway (before : Disk) (registry : AccountRegistry) (next : Disk) : Prop where
  files : FreshFiles next
  marker : next.installation.current.isSome = true
  registry : registry.Coming next.registry
  data : SameData before next

section Files

variable {clear : Prop} {platform : Platform} {startup : Startup} {disk before : Disk}
  {registry : AccountRegistry}
  {faults : List Fault}

theorem load_noMigration (h : disk.migration = .empty) (faults : List Fault) :
    MigrationState.load platform disk faults = (.done none, disk, faults) := by
  obtain ⟨file, switch, migration, installation, databases, legacy, backups⟩ := disk
  cases h
  rfl

theorem guarded_load_noMigration {β : Type} {rest : Option MigrationState → Durably Disk AccountError β}
    {cut : Disk → Prop} {done : β → Disk → Prop} (h : disk.migration = .empty)
    (hrest : (rest none).Guarded disk cut done) :
    (MigrationState.load platform >>= rest).Guarded disk cut done := by
  intro faults
  rw [Durably.meets_bind]
  unfold Durably.Meets
  rw [load_noMigration h]
  exact hrest faults

theorem succeeds_load_noMigration {β : Type} {rest : Option MigrationState → Durably Disk AccountError β}
    {post : β → Disk → Prop} (h : disk.migration = .empty) (hrest : (rest none).Succeeds disk post) :
    (MigrationState.load platform >>= rest).Succeeds disk post := by
  have hload : (MigrationState.load platform).Succeeds disk fun found next =>
      found = none ∧ next = disk := ⟨_, _, load_noMigration h [], rfl, rfl⟩
  apply hload.bind
  rintro _ _ ⟨rfl, rfl⟩
  exact hrest

theorem saveMarker_sure (h : Underway before registry disk) {state : InstallationState}
    (hstate : state.validate = .ok ()) :
    (state.save platform).Sure clear disk (Underway before registry)
      fun _ next => Underway before registry next := by
  unfold InstallationState.save Disk.inInstallation
  apply Durably.Sure.zoom
  have hnext : ∀ file : StateFile InstallationState,
      file.Sound (fun state => state.validate = .ok ()) → file.current.isSome = true →
      Underway before registry { disk with installation := file } :=
    fun file hfile hcurrent => ⟨⟨h.files.legacy, h.files.migration, hfile⟩, hcurrent, h.registry,
      h.data.databases, h.data.backups⟩
  apply (h.files.marker.write_sure platform hstate).mono
  · rintro file ⟨hfile, hcurrent⟩
    apply hnext file hfile
    rcases hcurrent with hold | hnew
    · rw [hold]
      exact h.marker
    · rw [hnew]
      rfl
  · rintro _ file ⟨hfile, htarget⟩
    apply hnext file hfile
    rw [StateFile.current_of_target htarget]
    rfl

theorem saveFirstRegistry_sure (h : Underway before registry disk) (hregistry : FirstRegistry registry) :
    (saveRegistry platform registry).Sure clear disk (Underway before registry)
      fun _ next => Underway before registry next ∧ next.registry.target = some registry ∧
        registry.StandsIn next.registry := by
  unfold saveRegistry Disk.inRegistry
  apply Durably.Sure.zoom
  have hnext : ∀ file, registry.Coming file → Underway before registry { disk with registry := file } :=
    fun file hfile => ⟨⟨h.files.legacy, h.files.migration, h.files.marker⟩, h.marker, hfile,
      h.data.databases, h.data.backups⟩
  apply (h.registry.save platform hregistry.valid).mono
  · exact fun file hfile => hnext file hfile
  · exact fun _ file hfile => ⟨hnext file (.inr hfile.1), hfile.2, hfile.1⟩

/-- The installation as a start that came to its end leaves it. -/
structure Complete (before : Disk) (registry : AccountRegistry) (next : Disk) : Prop where
  files : FreshFiles next
  target : next.registry.target = some registry
  stands : registry.StandsIn next.registry
  data : SameData before next

theorem removeMarker_sure (h : Underway before registry disk) (htarget : disk.registry.target = some registry)
    (hstands : registry.StandsIn disk.registry) :
    InstallationState.remove.Sure clear disk (Underway before registry)
      fun _ next => Complete before registry next := by
  unfold InstallationState.remove
  apply Durably.sure_get_bind
  rcases disk.installation.target with _ | _
  · exact Durably.sure_pure ⟨h.files, htarget, hstands, h.data⟩
  · unfold Disk.inInstallation
    apply Durably.Sure.zoom
    apply Durably.sure_step
    · exact h
    · exact ⟨⟨h.files.legacy, h.files.migration, h.files.marker.remove⟩, htarget, hstands,
        h.data.databases, h.data.backups⟩

theorem validate_installation_touch (state : InstallationState) (now : String) (phase : InstallationPhase) :
    (state.touch now phase).validate = state.validate := rfl

theorem completeInstallation_sure (h : Underway before registry disk) (hregistry : FirstRegistry registry)
    {state : InstallationState} (hstate : state.validate = .ok ()) {database : Database}
    (hdatabase : before.databases.lookup defaultAccountId = some (some database)) :
    (completeInstallation platform startup state registry).Sure clear disk (Underway before registry)
      fun context next => context.accountId = defaultAccountId ∧ Complete before registry next := by
  unfold completeInstallation
  dsimp only
  generalize hcreated : (if state.phase = .prepared then
    state.touch startup.now .databaseCreated else state) = created
  have hvalid : created.validate = .ok () := by
    rw [← hcreated]
    split
    · exact hstate
    · exact hstate
  have hfirst : (Durably.when (state.phase = .prepared) (created.save platform)).Sure clear disk
      (Underway before registry) fun _ next => Underway before registry next :=
    Durably.sure_when (fun _ => saveMarker_sure h hvalid) fun _ => h
  apply hfirst.bind
  intro _ disk h
  have hsecond : (Durably.when (created.phase = .databaseCreated) do
      saveRegistry platform registry
      (created.touch startup.now .registryCommitted).save platform).Sure clear disk
        (Underway before registry) fun _ next => Underway before registry next := by
    refine Durably.sure_when (fun _ => ?_) fun _ => h
    apply (saveFirstRegistry_sure h hregistry).bind
    exact fun _ next hnext => saveMarker_sure hnext.1 hvalid
  apply hsecond.bind
  intro _ disk h
  apply (saveFirstRegistry_sure h hregistry).bind
  rintro _ disk ⟨h, htarget, hstands⟩
  apply Durably.sure_get_bind
  have hplace : ¬ (disk.databases.lookup defaultAccountId).isNone = true := by
    rw [h.data.databases, hdatabase]
    simp
  apply Durably.sure_check_bind (refuseIf_eq_ok_iff.mpr hplace)
  have hload : (Disk.inRegistry AccountRegistry.load).Sure clear disk (Underway before registry)
      fun found next => found = registry ∧ next = disk := by
    unfold Disk.inRegistry AccountRegistry.load
    apply Durably.Sure.zoom
    apply Durably.sure_get_bind
    rw [htarget]
    exact Durably.sure_ofExcept (AccountRegistry.readRegistryFile_of_valid hregistry.valid) ⟨rfl, rfl⟩
  apply hload.bind
  rintro _ _ ⟨rfl, rfl⟩
  apply Durably.sure_check_bind (refuseIf_eq_ok_iff.mpr (not_not.mpr hregistry.active))
  apply (removeMarker_sure h htarget hstands).bind
  intro _ last hlast
  obtain ⟨context, hcontext, hid⟩ := hregistry.context false
  exact Durably.sure_ofExcept hcontext ⟨hid, hlast⟩

end Files

/-! ### With the marker -/

/-- A start that was cut while the marker stood. -/
structure Interrupted (startup : Startup) (before next : Disk) : Prop where
  files : FreshFiles next
  marker : next.installation.current.isSome = true
  coming : ∃ registry, FirstRegistry registry ∧ registry.Coming next.registry
  spared : Spared startup before next

/-- A start that came to its end. -/
structure Finished (startup : Startup) (before next : Disk) : Prop where
  files : FreshFiles next
  registry : ∃ registry, FirstRegistry registry ∧ next.registry.target = some registry ∧
    registry.StandsIn next.registry
  database : ∃ database, next.databases.lookup defaultAccountId = some (some database)
  spared : Spared startup before next

section Marker

variable {clear : Prop} {platform : Platform} {startup : Startup} {disk : Disk}
  {state : InstallationState}
  {registry : Option AccountRegistry} {first : AccountRegistry}

theorem keys_any_iff : (disk.databases.keys.any fun id => id != defaultAccountId) = true ↔
    ¬ ∀ id, (disk.databases.lookup id).isSome = true → id = defaultAccountId := by
  rw [List.any_eq_true]
  push Not
  constructor
  · rintro ⟨id, hid, hother⟩
    exact ⟨id, AList.lookup_isSome.mpr hid, by simpa using hother⟩
  · rintro ⟨id, hid, hother⟩
    exact ⟨id, AList.lookup_isSome.mp hid, by simpa using hother⟩

/-- The database and the rest of the installation. -/
theorem install_sure (hfiles : FreshFiles disk) (hmarker : disk.installation.current.isSome = true)
    (hstate : state.validate = .ok ()) (hfirst : FirstRegistry first)
    (hcoming : first.Coming disk.registry) :
    (ensureFreshDatabase startup >>= fun _ => completeInstallation platform startup state first).Sure
      clear disk (Interrupted startup disk) fun context next =>
        context.accountId = defaultAccountId ∧ Finished startup disk next := by
  have hunderway : ∀ next, SameState disk next → Underway next first next := by
    intro next hnext
    refine ⟨⟨hnext.legacy.trans hfiles.legacy, hnext.migration.trans hfiles.migration, ?_⟩, ?_, ?_,
      SameData.refl next⟩
    · rw [hnext.installation]
      exact hfiles.marker
    · rw [hnext.installation]
      exact hmarker
    · rw [hnext.registry]
      exact hcoming
  have hcut : ∀ middle next, Spared startup disk middle → Underway middle first next →
      Interrupted startup disk next := fun middle next hspared hnext =>
    ⟨hnext.files, hnext.marker, ⟨first, hfirst, hnext.registry⟩, hspared.then_same hnext.data⟩
  have hmade : (ensureFreshDatabase startup).Sure clear disk (Interrupted startup disk) fun _ next =>
      (SameState disk next ∧ Spared startup disk next) ∧
        ∃ database, next.databases.lookup defaultAccountId = some (some database) :=
    (ensureFreshDatabase_sure startup disk).mono
      (fun next hnext => hcut next next hnext.2 (hunderway next hnext.1)) fun _ _ hnext => hnext
  apply hmade.bind
  rintro _ middle ⟨⟨hsame, hspared⟩, database, hdatabase⟩
  apply (completeInstallation_sure (hunderway middle hsame) hfirst hstate hdatabase).mono
  · exact fun next hnext => hcut middle next hspared hnext
  · rintro context next ⟨hid, hnext⟩
    exact ⟨hid, hnext.files, ⟨first, hfirst, hnext.target, hnext.stands⟩,
      ⟨database, hnext.data.databases ▸ hdatabase⟩, hspared.then_same hnext.data⟩

theorem resume_guarded (hfiles : FreshFiles disk) (hmarker : disk.installation.current.isSome = true)
    (hstate : state.validate = .ok ())
    (hregistry : registry.getD (AccountRegistry.newWithDefault startup.now) = first)
    (hfirst : FirstRegistry first) (hcoming : first.Coming disk.registry) :
    (resumeFreshInstallation platform startup state registry).Guarded disk (Interrupted startup disk)
      fun context next => context.accountId = defaultAccountId ∧ Finished startup disk next ∧
        ∀ id, (disk.databases.lookup id).isSome = true → id = defaultAccountId := by
  have hhere : Interrupted startup disk disk :=
    ⟨hfiles, hmarker, ⟨first, hfirst, hcoming⟩, (SameData.refl disk).spared⟩
  unfold resumeFreshInstallation
  apply guarded_load_noMigration hfiles.migration
  apply Durably.guarded_ofExcept_bind hhere
  intro _ _
  apply Durably.guarded_get_bind
  apply Durably.guarded_ofExcept_bind hhere
  intro _ _
  dsimp only
  rw [hregistry]
  apply Durably.guarded_ofExcept_bind hhere
  intro _ _
  apply Durably.guarded_ofExcept_bind hhere
  intro _ _
  apply Durably.guarded_ofExcept_bind hhere
  intro _ halone
  rw [refuseIf_eq_ok_iff, keys_any_iff, not_not] at halone
  have hinstall : (ensureFreshDatabase startup >>= fun _ =>
      completeInstallation platform startup state first).Sure True disk _ _ :=
    install_sure hfiles hmarker hstate hfirst hcoming
  apply hinstall.1.mono
  · exact fun _ hnext => hnext
  · exact fun _ _ hnext => ⟨hnext.1, hnext.2, halone⟩

theorem resume_succeeds (hfiles : FreshFiles disk) (hmarker : disk.installation.current.isSome = true)
    (hstate : state.validate = .ok ())
    (hregistry : registry.getD (AccountRegistry.newWithDefault startup.now) = first)
    (hfirst : FirstRegistry first) (hcoming : first.Coming disk.registry)
    (halone : ∀ id, (disk.databases.lookup id).isSome = true → id = defaultAccountId) :
    (resumeFreshInstallation platform startup state registry).Succeeds disk fun context next =>
      context.accountId = defaultAccountId ∧
        ((∃ database, disk.databases.lookup defaultAccountId = some (some database)) →
          next.backups = disk.backups) := by
  unfold resumeFreshInstallation
  apply succeeds_load_noMigration hfiles.migration
  apply Durably.succeeds_check_bind (refuseIf_eq_ok_iff.mpr (by simp))
  apply Durably.succeeds_get_bind
  apply Durably.succeeds_check_bind (refuseIf_eq_ok_iff.mpr (by simp [hfiles.legacy]))
  dsimp only
  rw [hregistry]
  apply Durably.succeeds_check_bind hfirst.valid
  apply Durably.succeeds_check_bind (refuseIf_eq_ok_iff.mpr (not_not.mpr hfirst.active))
  have hkeys : ¬ (disk.databases.keys.any fun id => id != defaultAccountId) = true := by
    rw [keys_any_iff, not_not]
    exact halone
  apply Durably.succeeds_check_bind (refuseIf_eq_ok_iff.mpr hkeys)
  by_cases hread : ∃ database, disk.databases.lookup defaultAccountId = some (some database)
  · obtain ⟨database, hdatabase⟩ := hread
    apply (ensureFreshDatabase_keeps hdatabase).bind
    rintro _ _ rfl
    have hunderway : ∀ disk : Disk, FreshFiles disk → disk.installation.current.isSome = true →
        first.Coming disk.registry → Underway disk first disk :=
      fun disk hfiles hmarker hcoming => ⟨hfiles, hmarker, hcoming, SameData.refl disk⟩
    exact ((completeInstallation_sure (hunderway _ hfiles hmarker hcoming) hfirst hstate
      hdatabase).succeeds trivial).mono fun _ next hnext => ⟨hnext.1, fun _ => hnext.2.data.backups⟩
  · exact ((install_sure hfiles hmarker hstate hfirst hcoming).succeeds trivial).mono
      fun _ _ hnext => ⟨hnext.1, fun hfound => absurd hfound hread⟩

end Marker

/-! ### One start -/

/-- What the starts leave between them: the marker stands, or nothing has been begun, or the account is complete and its database its own. -/
structure FreshInv (world : FreshWorld) : Prop where
  files : FreshFiles world.disk
  coming : ∃ registry, FirstRegistry registry ∧ registry.Coming world.disk.registry
  phase : world.disk.installation.current.isSome = true ∨
    (AccountRegistry.NoRegistry world.disk.registry ∧ world.own = false) ∨
    (∃ registry, FirstRegistry registry ∧ registry.StandsIn world.disk.registry) ∧ world.own = true ∧
      ∃ database, world.disk.databases.lookup defaultAccountId = some (some database)
  owned : world.own = true → (world.disk.databases.lookup defaultAccountId).isSome = true

/-- The invariant after the start, and what it did to databases. -/
def Kept (startup : Startup) (world : FreshWorld) (next : Disk) : Prop :=
  FreshInv ⟨next, ownAfter startup world.disk next world.own⟩ ∧ Spared startup world.disk next

section Start

variable {clear : Prop} {platform : Platform} {startup : Startup} {world : FreshWorld} {next : Disk}

theorem owned_after (hspared : Spared startup world.disk next)
    (howned : ownAfter startup world.disk next world.own = true) :
    (next.databases.lookup defaultAccountId).isSome = true := by
  unfold ownAfter at howned
  split at howned
  · exact howned
  · rename_i haside
    split at howned
    · rename_i hplace
      obtain ⟨content, hcontent⟩ := Option.isSome_iff_exists.mp hplace
      rcases hspared.kept content hcontent with ⟨hkept, -⟩ | hgone
      · rw [hkept]
        rfl
      · rw [hgone] at haside
        exact absurd rfl haside
    · exact howned

theorem ownAfter_same (h : FreshInv world) (hname : NewName startup world.disk)
    (hsame : SameData world.disk next) : ownAfter startup world.disk next world.own = world.own := by
  unfold ownAfter
  rw [hsame.databases, hsame.backups, hname]
  by_cases hplace : (world.disk.databases.lookup defaultAccountId).isSome = true
  · simp [hplace]
  · have hown : world.own = false := by
      by_contra howned
      exact hplace (h.owned (by simpa using howned))
    simp [hplace, hown]

theorem Interrupted.kept (hnext : Interrupted startup world.disk next) : Kept startup world next :=
  ⟨⟨hnext.files, hnext.coming, .inl hnext.marker, owned_after hnext.spared⟩, hnext.spared⟩

theorem Finished.kept (hnext : Finished startup world.disk next)
    (howned : ownAfter startup world.disk next world.own = true) : Kept startup world next := by
  obtain ⟨registry, hfirst, -, hstands⟩ := hnext.registry
  obtain ⟨database, hdatabase⟩ := hnext.database
  refine ⟨⟨hnext.files, ⟨registry, hfirst, .inr hstands⟩,
    .inr (.inr ⟨⟨registry, hfirst, hstands⟩, howned, database, hdatabase⟩), fun _ => ?_⟩, hnext.spared⟩
  rw [hdatabase]
  rfl

/-- Where the data are the same, the invariant is one of the state files. -/
theorem kept_same (h : FreshInv world) (hname : NewName startup world.disk)
    (hsame : SameData world.disk next) (hnext : FreshInv ⟨next, world.own⟩) : Kept startup world next := by
  unfold Kept
  rw [ownAfter_same h hname hsame]
  exact ⟨hnext, hsame.spared⟩

theorem Kept.of_same {disk : Disk} (hsame : SameData world.disk disk)
    (h : Kept startup ⟨disk, world.own⟩ next) : Kept startup world next := by
  have hown : ownAfter startup disk next world.own = ownAfter startup world.disk next world.own := by
    unfold ownAfter
    rw [hsame.databases]
  obtain ⟨hinv, hspared⟩ := h
  dsimp only at hinv
  rw [hown] at hinv
  exact ⟨hinv, hspared.of_same hsame⟩

/-- What a start that ends leaves: the database it goes on with is not one that no start made. -/
structure Ended (startup : Startup) (world : FreshWorld) (context : ActiveAccountContext) (next : Disk) :
    Prop where
  account : context.accountId = defaultAccountId
  finished : Finished startup world.disk next
  aside : ∀ content, world.own = false → world.disk.databases.lookup defaultAccountId = some content →
    next.backups.lookup (freshAside startup) = some content

theorem Ended.own {context : ActiveAccountContext} (h : Ended startup world context next) :
    ownAfter startup world.disk next world.own = true := by
  obtain ⟨database, hdatabase⟩ := h.finished.database
  unfold ownAfter
  rw [hdatabase]
  split
  · rfl
  · rename_i haside
    split
    · rename_i hplace
      obtain ⟨content, hcontent⟩ := Option.isSome_iff_exists.mp hplace
      by_contra hown
      rw [h.aside content (by simpa using hown) hcontent] at haside
      exact haside rfl
    · rfl

theorem Ended.of_same {context : ActiveAccountContext} {disk : Disk} (hsame : SameData world.disk disk)
    (h : Ended startup ⟨disk, world.own⟩ context next) : Ended startup world context next where
  account := h.account
  finished := ⟨h.finished.files, h.finished.registry, h.finished.database,
    h.finished.spared.of_same hsame⟩
  aside := fun content hown hcontent => h.aside content hown (hsame.databases ▸ hcontent)

/-- Loading the registry, whatever comes after it. -/
theorem guarded_loadRegistry {β : Type} {disk : Disk} {rest : Option AccountRegistry →
    Durably Disk AccountError β} {cut : Disk → Prop} {done : β → Disk → Prop}
    {cutFile : StateFile AccountRegistry → Prop}
    {doneFile : Option AccountRegistry → StateFile AccountRegistry → Prop}
    (hload : (AccountRegistry.loadWithRecovery platform).Guarded disk.registry cutFile doneFile)
    (hcut : ∀ file, cutFile file → cut { disk with registry := file })
    (hrest : ∀ found file, doneFile found file →
      (rest found).Guarded { disk with registry := file } cut done) :
    (loadRegistry platform >>= rest).Guarded disk cut done := by
  have hloaded : (loadRegistry platform).Guarded disk cut fun found next =>
      ∃ file, next = { disk with registry := file } ∧ doneFile found file := by
    unfold loadRegistry Disk.inRegistry
    apply Durably.Guarded.zoom
    exact hload.mono hcut fun found file hfile => ⟨file, rfl, hfile⟩
  apply hloaded.bind
  rintro found _ ⟨file, rfl, hfile⟩
  exact hrest found file hfile

/-- With the marker, a start goes on with the installation. -/
theorem start_underway_guarded (h : FreshInv world) {state : InstallationState}
    (hstate : world.disk.installation.current = some state) (hsafe : ¬ Adoptable world) :
    (startFrom platform startup none (some state)).Guarded world.disk (Kept startup world)
      fun context next => Ended startup world context next := by
  obtain ⟨registry, hfirst, hcoming⟩ := h.coming
  have hmarker : world.disk.installation.current.isSome = true := by
    rw [hstate]
    rfl
  have hvalid := h.files.marker.holds.of_current hstate
  have hfile : ∀ file, FreshFiles { world.disk with registry := file } :=
    fun file => ⟨h.files.legacy, h.files.migration, h.files.marker⟩
  unfold startFrom
  by_cases hread : AccountRegistry.Unreadable world.disk.registry
  · intro faults
    obtain ⟨text, htext⟩ := hcoming.load_of_unreadable platform hfirst.valid hread faults
    have hfailed : loadRegistry platform world.disk faults =
        (.failed (.invalidRegistry text), world.disk, faults) := by
      unfold loadRegistry Disk.inRegistry Durably.zoom
      rw [htext]
    have hhere : Interrupted startup world.disk world.disk :=
      ⟨h.files, hmarker, ⟨registry, hfirst, hcoming⟩, (SameData.refl _).spared⟩
    rw [Durably.meets_bind]
    unfold Durably.Meets
    rw [hfailed]
    exact hhere.kept
  · apply guarded_loadRegistry (hcoming.load platform hfirst.valid)
    · intro file hnext
      have hcut : Interrupted startup world.disk { world.disk with registry := file } :=
        ⟨hfile file, hmarker, ⟨registry, hfirst, hnext⟩, SameData.spared ⟨rfl, rfl⟩⟩
      exact hcut.kept
    · intro found file hfound
      have hgot : ∃ first, found.getD (AccountRegistry.newWithDefault startup.now) = first ∧
          FirstRegistry first ∧ first.Coming file := by
        rcases hfound with ⟨rfl, hstands⟩ | ⟨rfl, hnone⟩
        · exact ⟨registry, rfl, hfirst, .inr hstands⟩
        · exact ⟨_, rfl, firstRegistry_new _, .inl (hnone.draft _)⟩
      obtain ⟨first, hgot, hgotFirst, hgotComing⟩ := hgot
      apply Durably.Guarded.mono
        (resume_guarded (hfile file) hmarker hvalid hgot hgotFirst hgotComing)
      · intro next hnext
        exact Interrupted.kept ⟨hnext.files, hnext.marker, hnext.coming, hnext.spared.of_same ⟨rfl, rfl⟩⟩
      · rintro context next ⟨hid, hnext, halone⟩
        refine ⟨hid, ⟨hnext.files, hnext.registry, hnext.database, hnext.spared.of_same ⟨rfl, rfl⟩⟩, ?_⟩
        intro content hown hcontent
        rcases hnext.spared.kept content hcontent with ⟨hkept, -⟩ | haside
        · obtain ⟨database, hdatabase⟩ := hnext.database
          rw [hkept] at hdatabase
          cases hdatabase
          exact absurd ⟨hmarker, hown, ⟨database, hcontent⟩, halone, hread⟩ hsafe
        · exact haside

/-- A complete account is opened. -/
theorem start_complete_sure (h : FreshInv world) (hname : NewName startup world.disk)
    {registry : AccountRegistry} (hfirst : FirstRegistry registry)
    (hstands : registry.StandsIn world.disk.registry) (hown : world.own = true) {database : Database}
    (hdatabase : world.disk.databases.lookup defaultAccountId = some (some database)) :
    (startWithRegistry platform startup none registry).Sure clear world.disk (Kept startup world)
      fun context next => Ended startup world context next := by
  have hstanding : ∀ {registry : AccountRegistry}, FirstRegistry registry → ∀ file,
      registry.StandsIn file → Kept startup world { world.disk with registry := file } := by
    intro registry hfirst file hfile
    refine kept_same h hname ⟨rfl, rfl⟩ ⟨⟨h.files.legacy, h.files.migration, h.files.marker⟩,
      ⟨registry, hfirst, .inr hfile⟩, .inr (.inr ⟨⟨registry, hfirst, hfile⟩, hown, database, hdatabase⟩), ?_⟩
    exact h.owned
  unfold startWithRegistry
  dsimp only
  have hid : validateAccountId registry.activeAccountId = .ok () := by
    rw [hfirst.active]
    rfl
  apply Durably.sure_check_bind hid
  apply Durably.sure_get_bind
  have hplace : ¬ (world.disk.databases.lookup registry.activeAccountId).isNone = true := by
    rw [hfirst.active, hdatabase]
    simp
  apply Durably.sure_check_bind (refuseIf_eq_ok_iff.mpr hplace)
  have htouched := hfirst.touch startup.now
  have hsaved : (saveRegistry platform
      (registry.modify registry.activeAccountId (AccountRecord.touch startup.now))).Sure clear world.disk
        (Kept startup world) fun _ next => Finished startup world.disk next := by
    unfold saveRegistry Disk.inRegistry
    apply Durably.Sure.zoom
    refine ⟨fun faults => ?_, fun _ => (AccountRegistry.save_succeeds platform htouched.valid).mono
      fun _ _ _ => trivial⟩
    apply (hstands.save platform).mono
    intro ending file _ hfile
    have hcut : registry.StandsIn file ∨ AccountRegistry.StandsIn
        (registry.modify registry.activeAccountId (AccountRecord.touch startup.now)) file →
        Kept startup world { world.disk with registry := file } :=
      fun hfile => hfile.elim (hstanding hfirst file) (hstanding htouched file)
    cases ending with
    | done _ => exact ⟨⟨h.files.legacy, h.files.migration, h.files.marker⟩,
        ⟨_, htouched, hfile.2, hfile.1⟩, ⟨database, hdatabase⟩, SameData.spared ⟨rfl, rfl⟩⟩
    | failed _ => exact hcut hfile
    | crashed => exact hcut hfile
  unfold openActive
  dsimp only
  apply hsaved.bind
  intro _ next hnext
  obtain ⟨context, hcontext, hcontextId⟩ := htouched.context false
  refine Durably.sure_ofExcept hcontext ⟨hcontextId, hnext, fun _ hforeign => ?_⟩
  rw [hown] at hforeign
  cases hforeign

/-- Nothing has been begun: the marker is written first. -/
theorem initialize_guarded (h : FreshInv world) (hname : NewName startup world.disk)
    (hregistry : AccountRegistry.NoRegistry world.disk.registry) (hown : world.own = false)
    (hnone : world.disk.databases.lookup defaultAccountId = none) :
    (initializeFresh platform startup).Guarded world.disk (Kept startup world)
      fun context next => Ended startup world context next := by
  have hnew : (InstallationState.new startup.now).validate = .ok () := rfl
  unfold initializeFresh
  have hmarked : (InstallationState.save platform (InstallationState.new startup.now)).Guarded world.disk
      (Kept startup world) fun _ next => FreshFiles next ∧ SameData world.disk next ∧
        next.installation.current.isSome = true ∧ next.registry = world.disk.registry := by
    unfold InstallationState.save Disk.inInstallation
    apply Durably.Guarded.zoom
    apply (h.files.marker.write platform hnew).mono
    · rintro file ⟨hfile, hfound⟩
      refine kept_same h hname ⟨rfl, rfl⟩
        ⟨⟨h.files.legacy, h.files.migration, hfile⟩, h.coming, ?_, h.owned⟩
      rcases hfound with _ | hfound
      · exact .inr (.inl ⟨hregistry, hown⟩)
      · refine .inl ?_
        dsimp only
        rw [hfound]
        rfl
    · rintro _ file ⟨hfile, htarget⟩
      refine ⟨⟨h.files.legacy, h.files.migration, hfile⟩, ⟨rfl, rfl⟩, ?_, rfl⟩
      dsimp only
      rw [StateFile.current_of_target htarget]
      rfl
  apply hmarked.bind
  rintro _ marked ⟨hfiles, hsame, hmarker, hsameRegistry⟩
  have hdraft := (hsameRegistry ▸ hregistry : AccountRegistry.NoRegistry marked.registry).draft
    (AccountRegistry.newWithDefault startup.now)
  have hgot : (none : Option AccountRegistry).getD (AccountRegistry.newWithDefault startup.now) =
      AccountRegistry.newWithDefault startup.now := rfl
  apply Durably.Guarded.mono
    (resume_guarded hfiles hmarker hnew hgot (firstRegistry_new _) (.inl hdraft))
  · exact fun next hnext => Interrupted.kept ⟨hnext.files, hnext.marker, hnext.coming,
      hnext.spared.of_same hsame⟩
  · rintro context next ⟨hid, hnext, -⟩
    refine ⟨hid, ⟨hnext.files, hnext.registry, hnext.database, hnext.spared.of_same hsame⟩, ?_⟩
    intro content _ hcontent
    rw [hnone] at hcontent
    cases hcontent

/-- Without the marker, a start begins the installation or opens the complete account. -/
theorem start_idle_guarded (h : FreshInv world) (hname : NewName startup world.disk)
    (hcurrent : world.disk.installation.current = none) :
    (startFrom platform startup none none).Guarded world.disk (Kept startup world)
      fun context next => Ended startup world context next := by
  have hhere : Kept startup world world.disk := kept_same h hname (SameData.refl _) h
  unfold startFrom
  rcases h.phase with hmarker | ⟨hnone, hown⟩ | ⟨⟨registry, hfirst, hstands⟩, hown, database, hdatabase⟩
  · rw [hcurrent] at hmarker
    cases hmarker
  · have hload : (AccountRegistry.loadWithRecovery platform).Guarded world.disk.registry
        (fun file => file = world.disk.registry)
        fun found file => found = none ∧ file = world.disk.registry := by
      intro faults
      unfold Durably.Meets
      rw [hnone.load platform faults]
      exact ⟨rfl, rfl⟩
    apply guarded_loadRegistry hload
    · rintro _ rfl
      exact hhere
    · rintro _ _ ⟨rfl, rfl⟩
      unfold startWithoutRegistry
      apply Durably.guarded_get_bind
      dsimp only
      rw [if_neg (by simp [h.files.legacy])]
      apply Durably.guarded_ofExcept_bind hhere
      intro _ hkeys
      apply initialize_guarded h hname hnone hown
      rw [refuseIf_eq_ok_iff, not_not, List.isEmpty_iff] at hkeys
      rw [← Option.not_isSome_iff_eq_none, AList.lookup_isSome, AList.mem_keys, hkeys]
      exact List.not_mem_nil
  · have hload : (AccountRegistry.loadWithRecovery platform).Guarded world.disk.registry
        registry.StandsIn fun found file => found = some registry ∧ registry.StandsIn file := by
      intro faults
      apply (hstands.loadWithRecovery platform).mono
      intro ending file _ hfile
      cases ending with
      | done found => exact ⟨(hfile.2 found rfl).1, hfile.1⟩
      | failed _ => exact hfile.1
      | crashed => exact hfile.1
    have hstanding : ∀ file, registry.StandsIn file →
        FreshInv ⟨{ world.disk with registry := file }, world.own⟩ := fun file hfile =>
      ⟨⟨h.files.legacy, h.files.migration, h.files.marker⟩, ⟨registry, hfirst, .inr hfile⟩,
        .inr (.inr ⟨⟨registry, hfirst, hfile⟩, hown, database, hdatabase⟩), h.owned⟩
    apply guarded_loadRegistry hload
    · exact fun file hfile => kept_same h hname ⟨rfl, rfl⟩ (hstanding file hfile)
    · rintro _ file ⟨rfl, hfile⟩
      have hopened := (start_complete_sure (hstanding file hfile) hname hfirst hfile hown hdatabase :
        (startWithRegistry platform startup none registry).Sure True _ _ _)
      have hsame : SameData world.disk { world.disk with registry := file } := ⟨rfl, rfl⟩
      exact hopened.1.mono (fun _ hnext => Kept.of_same hsame hnext)
        fun _ _ hnext => Ended.of_same hsame hnext

theorem FreshInv.marked (h : FreshInv world) {file : StateFile InstallationState}
    (hfile : file.Sound fun state => state.validate = .ok ())
    (hcurrent : file.current = world.disk.installation.current) :
    FreshInv ⟨{ world.disk with installation := file }, world.own⟩ := by
  refine ⟨⟨h.files.legacy, h.files.migration, hfile⟩, h.coming, ?_, h.owned⟩
  dsimp only
  rw [hcurrent]
  exact h.phase

/-- A start keeps the invariant wherever it is cut, unless there is a database it may take over. -/
theorem ensure_guarded (h : FreshInv world) (hname : NewName startup world.disk)
    (hsafe : ¬ Adoptable world) :
    (ensureActiveAccount platform startup).Guarded world.disk (Kept startup world)
      fun context next => Ended startup world context next := by
  unfold ensureActiveAccount
  apply guarded_load_noMigration h.files.migration
  have hloaded : (InstallationState.load platform).Guarded world.disk (Kept startup world)
      fun found next => ∃ file, next = { world.disk with installation := file } ∧
        file.Sound (fun state => state.validate = .ok ()) ∧
        file.current = world.disk.installation.current ∧ found = world.disk.installation.current := by
    unfold InstallationState.load Disk.inInstallation
    apply Durably.Guarded.zoom
    apply (h.files.marker.load platform).mono
    · exact fun file hfile => kept_same h hname ⟨rfl, rfl⟩ (h.marked hfile.1 hfile.2)
    · exact fun found file hfile => ⟨file, rfl, hfile.1, hfile.2.1, hfile.2.2.1⟩
  apply hloaded.bind
  rintro found _ ⟨file, rfl, hfile, hcurrent, rfl⟩
  have hnext := h.marked hfile hcurrent
  have hsafeNext : ¬ Adoptable ⟨{ world.disk with installation := file }, world.own⟩ := by
    unfold Adoptable at hsafe ⊢
    rw [← hcurrent] at hsafe
    exact hsafe
  have hback : (startFrom platform startup none world.disk.installation.current).Guarded
      { world.disk with installation := file }
      (Kept startup ⟨{ world.disk with installation := file }, world.own⟩)
      fun context next => Ended startup ⟨{ world.disk with installation := file }, world.own⟩ context
        next := by
    rcases hstate : world.disk.installation.current with _ | state
    · exact start_idle_guarded hnext hname (hcurrent.trans hstate)
    · exact start_underway_guarded hnext (hcurrent.trans hstate) hsafeNext
  have hsame : SameData world.disk { world.disk with installation := file } := ⟨rfl, rfl⟩
  exact hback.mono (fun _ hlast => Kept.of_same hsame hlast) fun _ _ hlast => Ended.of_same hsame hlast

/-- Loading the registry where nothing goes wrong. -/
theorem succeeds_loadRegistry {β : Type} {disk : Disk} {rest : Option AccountRegistry →
    Durably Disk AccountError β} {post : β → Disk → Prop}
    {doneFile : Option AccountRegistry → StateFile AccountRegistry → Prop}
    (hload : (AccountRegistry.loadWithRecovery platform).Succeeds disk.registry doneFile)
    (hrest : ∀ found file, doneFile found file →
      (rest found).Succeeds { disk with registry := file } post) :
    (loadRegistry platform >>= rest).Succeeds disk post := by
  have hloaded : (loadRegistry platform).Succeeds disk fun found next =>
      ∃ file, next = { disk with registry := file } ∧ doneFile found file := by
    unfold loadRegistry Disk.inRegistry
    apply Durably.Succeeds.zoom
    exact hload.mono fun found file hfile => ⟨file, rfl, hfile⟩
  apply hloaded.bind
  rintro found _ ⟨file, rfl, hfile⟩
  exact hrest found file hfile

theorem start_underway_succeeds (h : FreshInv world) {state : InstallationState}
    (hstate : world.disk.installation.current = some state)
    (hread : ¬ AccountRegistry.Unreadable world.disk.registry)
    (halone : ∀ id, (world.disk.databases.lookup id).isSome = true → id = defaultAccountId) :
    (startFrom platform startup none (some state)).Succeeds world.disk fun context next =>
      context.accountId = defaultAccountId ∧
        ((∃ database, world.disk.databases.lookup defaultAccountId = some (some database)) →
          next.backups = world.disk.backups) := by
  obtain ⟨registry, hfirst, hcoming⟩ := h.coming
  have hmarker : world.disk.installation.current.isSome = true := by
    rw [hstate]
    rfl
  unfold startFrom
  apply succeeds_loadRegistry ((hcoming.load_succeeds platform hfirst.valid hread).guarded
    (hcoming.load platform hfirst.valid))
  rintro found file ⟨-, hfound⟩
  have hgot : ∃ first, found.getD (AccountRegistry.newWithDefault startup.now) = first ∧
      FirstRegistry first ∧ first.Coming file := by
    rcases hfound with ⟨rfl, hstands⟩ | ⟨rfl, hnone⟩
    · exact ⟨registry, rfl, hfirst, .inr hstands⟩
    · exact ⟨_, rfl, firstRegistry_new _, .inl (hnone.draft _)⟩
  obtain ⟨first, hgot, hgotFirst, hgotComing⟩ := hgot
  have hfiles : FreshFiles { world.disk with registry := file } :=
    ⟨h.files.legacy, h.files.migration, h.files.marker⟩
  exact resume_succeeds hfiles hmarker (h.files.marker.holds.of_current hstate) hgot hgotFirst hgotComing
    halone

theorem initialize_succeeds (h : FreshInv world)
    (hregistry : AccountRegistry.NoRegistry world.disk.registry)
    (halone : ∀ id, (world.disk.databases.lookup id).isSome = true → id = defaultAccountId) :
    (initializeFresh platform startup).Succeeds world.disk fun context _ =>
      context.accountId = defaultAccountId := by
  have hnew : (InstallationState.new startup.now).validate = .ok () := rfl
  unfold initializeFresh
  have hmarked : (InstallationState.save platform (InstallationState.new startup.now)).Succeeds world.disk
      fun _ next => FreshFiles next ∧ next.databases = world.disk.databases ∧
        next.installation.current.isSome = true ∧ next.registry = world.disk.registry := by
    unfold InstallationState.save Disk.inInstallation
    apply Durably.Succeeds.zoom
    apply ((h.files.marker.write_sure platform hnew).succeeds trivial).mono
    rintro _ file ⟨hfile, htarget⟩
    refine ⟨⟨h.files.legacy, h.files.migration, hfile⟩, rfl, ?_, rfl⟩
    dsimp only
    rw [StateFile.current_of_target htarget]
    rfl
  apply hmarked.bind
  rintro _ marked ⟨hfiles, hsame, hmarker, hsameRegistry⟩
  have hdraft := (hsameRegistry ▸ hregistry : AccountRegistry.NoRegistry marked.registry).draft
    (AccountRegistry.newWithDefault startup.now)
  have hgot : (none : Option AccountRegistry).getD (AccountRegistry.newWithDefault startup.now) =
      AccountRegistry.newWithDefault startup.now := rfl
  exact (resume_succeeds hfiles hmarker hnew hgot (firstRegistry_new _) (.inl hdraft)
    (hsame ▸ halone)).mono fun _ _ hnext => hnext.1

theorem start_idle_succeeds (h : FreshInv world) (hname : NewName startup world.disk)
    (hcurrent : world.disk.installation.current = none)
    (halone : ∀ id, (world.disk.databases.lookup id).isSome = true → id = defaultAccountId)
    (hown : (world.disk.databases.lookup defaultAccountId).isSome = true → world.own = true) :
    (startFrom platform startup none none).Succeeds world.disk fun context _ =>
      context.accountId = defaultAccountId := by
  unfold startFrom
  rcases h.phase with hmarker | ⟨hnone, hforeign⟩ |
    ⟨⟨registry, hfirst, hstands⟩, howned, database, hdatabase⟩
  · rw [hcurrent] at hmarker
    cases hmarker
  · have hload : (AccountRegistry.loadWithRecovery platform).Succeeds world.disk.registry
        fun found file => found = none ∧ file = world.disk.registry :=
      ⟨_, _, hnone.load platform [], rfl, rfl⟩
    apply succeeds_loadRegistry hload
    rintro _ _ ⟨rfl, rfl⟩
    unfold startWithoutRegistry
    apply Durably.succeeds_get_bind
    dsimp only
    rw [if_neg (by simp [h.files.legacy])]
    have hkeys : world.disk.databases.keys = [] := by
      rw [List.eq_nil_iff_forall_not_mem]
      intro id hid
      have hplace := AList.lookup_isSome.mpr (AList.mem_keys.mp hid)
      rw [halone id hplace] at hplace
      rw [hown hplace] at hforeign
      cases hforeign
    apply Durably.succeeds_check_bind (refuseIf_eq_ok_iff.mpr (by simp [hkeys]))
    exact initialize_succeeds h hnone halone
  · apply succeeds_loadRegistry (hstands.loadWithRecovery_succeeds platform)
    rintro _ file ⟨rfl, hfile⟩
    have hstanding : FreshInv ⟨{ world.disk with registry := file }, world.own⟩ :=
      ⟨⟨h.files.legacy, h.files.migration, h.files.marker⟩, ⟨registry, hfirst, .inr hfile⟩,
        .inr (.inr ⟨⟨registry, hfirst, hfile⟩, howned, database, hdatabase⟩), h.owned⟩
    have hopened : (startWithRegistry platform startup none registry).Sure True
        { world.disk with registry := file } _ fun context next => Ended startup _ context next :=
      start_complete_sure hstanding hname hfirst hfile howned hdatabase
    exact (hopened.succeeds trivial).mono fun _ _ hnext => hnext.account

/-- Where no foreign file is in its way, nor one that cannot be read, a start comes to its end. -/
theorem ensure_succeeds (h : FreshInv world) (hname : NewName startup world.disk)
    (hblocked : ¬ Blocked world.disk)
    (halone : ∀ id, (world.disk.databases.lookup id).isSome = true → id = defaultAccountId)
    (hown : world.disk.installation.current.isSome = true ∨
      ((world.disk.databases.lookup defaultAccountId).isSome = true → world.own = true)) :
    (ensureActiveAccount platform startup).Succeeds world.disk fun context next =>
      context.accountId = defaultAccountId ∧ (world.disk.installation.current.isSome = true →
        (∃ database, world.disk.databases.lookup defaultAccountId = some (some database)) →
        next.backups = world.disk.backups) := by
  obtain ⟨hread, hlost⟩ := not_or.mp hblocked
  unfold ensureActiveAccount
  apply succeeds_load_noMigration h.files.migration
  have hchecked : ∀ state : InstallationState, state.validate = .ok () → state.validate = .ok () :=
    fun _ h => h
  have hloaded : (InstallationState.load platform).Succeeds world.disk fun found next =>
      ∃ file, next = { world.disk with installation := file } ∧
        file.Sound (fun state => state.validate = .ok ()) ∧
        file.current = world.disk.installation.current ∧ found = world.disk.installation.current := by
    unfold InstallationState.load Disk.inInstallation
    apply Durably.Succeeds.zoom
    apply ((h.files.marker.load_succeeds platform hchecked hlost).guarded
      (h.files.marker.load platform)).mono
    rintro found file ⟨-, hfile⟩
    exact ⟨file, rfl, hfile.1, hfile.2.1, hfile.2.2.1⟩
  apply hloaded.bind
  rintro found _ ⟨file, rfl, hfile, hcurrent, rfl⟩
  have hnext := h.marked hfile hcurrent
  rcases hstate : world.disk.installation.current with _ | state
  · have hidle : (world.disk.databases.lookup defaultAccountId).isSome = true → world.own = true := by
      apply hown.resolve_left
      rw [hstate]
      simp
    exact (start_idle_succeeds hnext hname (hcurrent.trans hstate) halone hidle).mono
      fun _ _ hlast => ⟨hlast, fun hmarker => by cases hmarker⟩
  · exact (start_underway_succeeds hnext (hcurrent.trans hstate) hread halone).mono
      fun _ _ hlast => ⟨hlast.1, fun _ => hlast.2⟩

theorem exists_newName (disk : Disk) : ∃ startup, NewName startup disk := by
  refine ⟨⟨"", "", "", String.ofList
    (List.replicate ((disk.backups.keys.map String.length).sum + 1) 'a'), ""⟩, ?_⟩
  apply lookup_of_longer
  apply length_between
  rw [String.length_ofList, List.length_replicate]

theorem ensure_fails_of_blocked (h : FreshInv world) (hblocked : Blocked world.disk)
    {post : ActiveAccountContext → Disk → Prop} :
    ¬ (ensureActiveAccount platform startup).Succeeds world.disk post := by
  rintro ⟨context, next, hdone, -⟩
  have hrest : (InstallationState.load platform >>= startFrom platform startup none).Ends world.disk []
      fun _ _ _ => False := by
    by_cases hlost : world.disk.installation.Lost
    · obtain ⟨error, herror⟩ : ∃ error, loadState InstallationState.validate platform
          world.disk.installation [] = (.failed error, world.disk.installation, []) :=
        StateFile.load_of_lost platform hlost []
      have hload : InstallationState.load platform world.disk [] = (.failed error, world.disk, []) := by
        unfold InstallationState.load Disk.inInstallation Durably.zoom
        rw [herror]
      unfold Durably.Ends
      rw [Durably.meets_bind]
      unfold Durably.Meets
      rw [hload]
      exact fun _ hvalue => by cases hvalue
    · have hread := hblocked.resolve_right hlost
      obtain ⟨registry, hfirst, hcoming⟩ := h.coming
      have hkept : (InstallationState.load platform).Keeps fun disk =>
          disk.registry = world.disk.registry := fun _ _ hsame => hsame
      refine (hkept.ends rfl).bind ?_
      intro found next left hsame
      obtain ⟨text, htext⟩ := hcoming.load_of_unreadable platform hfirst.valid hread left
      rw [← hsame] at htext
      have hload : loadRegistry platform next left = (.failed (.invalidRegistry text), next, left) := by
        unfold loadRegistry Disk.inRegistry Durably.zoom
        rw [htext]
      unfold startFrom Durably.Ends
      rw [Durably.meets_bind]
      unfold Durably.Meets
      rw [hload]
      exact fun _ hvalue => by cases hvalue
  have hfails : (ensureActiveAccount platform startup).Ends world.disk [] fun _ _ _ => False := by
    unfold ensureActiveAccount Durably.Ends
    rw [Durably.meets_bind]
    unfold Durably.Meets
    rw [load_noMigration h.files.migration]
    exact hrest
  exact hfails context (by rw [hdone])

theorem installSafe_iff (h : FreshInv world) : InstallSafe platform world ↔ ¬ Unsafe world := by
  constructor
  · rintro hsafe (⟨halone, hblocked⟩ | hadoptable)
    · obtain ⟨startup, hname⟩ := exists_newName world.disk
      exact ensure_fails_of_blocked h hblocked (hsafe.finishes halone startup hname)
    · obtain ⟨startup, hname⟩ := exists_newName world.disk
      obtain ⟨hmarker, hforeign, ⟨database, hdatabase⟩, halone, hread⟩ := hadoptable
      have hblocked : ¬ Blocked world.disk := by
        rintro (hunreadable | ⟨htarget, -, hcandidates⟩)
        · exact hread hunreadable
        · rw [StateFile.current, htarget, hcandidates] at hmarker
          cases hmarker
      have hsucceeds : (ensureActiveAccount platform startup).Succeeds world.disk _ :=
        ensure_succeeds h hname hblocked halone (.inl hmarker)
      obtain ⟨context, next, hdone, haccount, hkept⟩ := hsucceeds
      have hspared := hsafe.spares startup [] defaultAccountId (some database) hname
        ⟨by rw [hdatabase]; rfl, fun _ => hforeign⟩ hdatabase
      unfold Durably.Meets at hspared
      rw [hdone] at hspared
      have haside := hspared.2.1 context rfl haccount
      rw [hkept hmarker ⟨database, hdatabase⟩] at haside
      rw [hname] at haside
      cases haside
  · intro hsafe
    obtain ⟨hfree, hadoptable⟩ := not_or.mp hsafe
    refine ⟨fun halone startup hname => ?_, fun startup faults id content hname hforeign hcontent => ?_⟩
    · have hown : ∀ id, (world.disk.databases.lookup id).isSome = true →
          id = defaultAccountId ∧ world.own = true := by
        intro id hplace
        have hnot := halone id
        unfold FreshWorld.Foreign at hnot
        push Not at hnot
        simpa using hnot hplace
      have hsucceeds : (ensureActiveAccount platform startup).Succeeds world.disk _ :=
        ensure_succeeds h hname (fun hblocked => hfree ⟨halone, hblocked⟩)
          (fun id hplace => (hown id hplace).1) (.inr fun hplace => (hown _ hplace).2)
      apply (hsucceeds.guarded (ensure_guarded h hname hadoptable)).mono
      rintro context next ⟨-, hended⟩
      obtain ⟨registry, hfirst, htarget, -⟩ := hended.finished.registry
      exact ⟨hended.account, ⟨⟨registry, hfirst, htarget⟩, hended.finished.database⟩, hended.own⟩
    · apply (ensure_guarded h hname hadoptable faults).mono
      have hparts : ∀ next, Spared startup world.disk next →
          (next.databases.lookup id = some content ∨
            next.backups.lookup (freshAside startup) = some content) ∧
          ∀ name old, world.disk.backups.lookup name = some old →
            next.backups.lookup name = some old := by
        intro next hspared
        refine ⟨?_, fun name old hold => ?_⟩
        · by_cases hid : id = defaultAccountId
          · subst hid
            exact (hspared.kept content hcontent).imp_left And.left
          · exact .inl ((hspared.others id hid).trans hcontent)
        · have hother : name ≠ freshAside startup := by
            rintro rfl
            rw [hname] at hold
            cases hold
          exact (hspared.backups name hother).trans hold
      intro ending next _ hnext
      cases ending with
      | done context =>
          obtain ⟨hplace, hbackups⟩ := hparts next hnext.finished.spared
          refine ⟨hplace, fun found hfound haccount => ?_, hbackups⟩
          cases hfound
          obtain rfl := haccount.symm.trans hnext.account
          exact hnext.aside content (hforeign.2 rfl) hcontent
      | failed _ =>
          obtain ⟨hplace, hbackups⟩ := hparts next hnext.2
          exact ⟨hplace, fun _ hfound => (by cases hfound), hbackups⟩
      | crashed =>
          obtain ⟨hplace, hbackups⟩ := hparts next hnext.2
          exact ⟨hplace, fun _ hfound => (by cases hfound), hbackups⟩

theorem fresh_step_inv (h : FreshInv world) (hsafe : ¬ Unsafe world) (event : FreshEvent) :
    FreshInv (world.step platform event) := by
  cases event with
  | start startup faults =>
      by_cases hname : NewName startup world.disk
      · simp only [FreshWorld.step, if_pos hname]
        have hguarded : (ensureActiveAccount platform startup).Guarded world.disk _ _ :=
          ensure_guarded h hname (not_or.mp hsafe).2
        replace hguarded := hguarded faults
        unfold Durably.Meets at hguarded
        rcases hrun : ensureActiveAccount platform startup world.disk faults with ⟨ending, next, left⟩
        rw [hrun] at hguarded
        cases ending with
        | done context => exact (hguarded.finished.kept hguarded.own).1
        | failed _ => exact hguarded.1
        | crashed => exact hguarded.1
      · simp only [FreshWorld.step, if_neg hname]
        exact h
  | place id content =>
      by_cases hfree : (world.disk.databases.lookup id).isSome = true
      · simp only [FreshWorld.step, if_pos hfree]
        exact h
      · simp only [FreshWorld.step, if_neg hfree]
        have hown : world.own = true → id ≠ defaultAccountId := by
          rintro howned rfl
          exact hfree (h.owned howned)
        have hkept : id ≠ defaultAccountId →
            (world.disk.putDatabase id content).databases.lookup defaultAccountId =
              world.disk.databases.lookup defaultAccountId := fun hid =>
          AList.lookup_insert_ne fun heq => hid heq.symm
        refine ⟨⟨h.files.legacy, h.files.migration, h.files.marker⟩, h.coming, ?_, ?_⟩
        · rcases h.phase with hmarker | ⟨hnone, hforeign⟩ | ⟨hregistry, howned, database, hdatabase⟩
          · exact .inl hmarker
          · exact .inr (.inl ⟨hnone, by simp [hforeign]⟩)
          · exact .inr (.inr ⟨hregistry, by simpa [howned] using hown howned, database,
              (hkept (hown howned)).trans hdatabase⟩)
        · intro howned
          rw [Bool.and_eq_true, bne_iff_ne] at howned
          dsimp only
          rw [hkept howned.2]
          exact h.owned howned.1

end Start

/-! ### Every run -/

/-- A root in which nothing has been installed; databases may lie there already. -/
structure FreshRoot (disk : Disk) : Prop where
  registry : disk.registry = .empty
  migration : disk.migration = .empty
  installation : disk.installation = .empty
  legacy : disk.legacy = none

theorem FreshRoot.inv {disk : Disk} (h : FreshRoot disk) : FreshInv ⟨disk, false⟩ where
  files :=
    { legacy := h.legacy
      migration := h.migration
      marker := by
        dsimp only
        rw [h.installation]
        exact StateFile.sound_empty }
  coming := by
    refine ⟨_, firstRegistry_new "", .inl ?_⟩
    dsimp only
    rw [h.registry]
    exact AccountRegistry.draft_empty _
  phase := by
    dsimp only
    rw [h.registry]
    exact .inr (.inl ⟨⟨rfl, rfl, rfl⟩, rfl⟩)
  owned := fun howned => by cases howned

/-- In a run of starts from a fresh root, each under any faults, with databases of others put there in between: every state is safe exactly when no state is one in which the leftover files of an interrupted start stop every start, or the marker stands over a readable database that no start made. -/
theorem fresh_installation_safe_iff (platform : Platform) {disk : Disk} (hdisk : FreshRoot disk)
    (events : List FreshEvent) :
    (freshRuns platform).Along (fun world _ => InstallSafe platform world) ⟨disk, false⟩ events ↔
      (freshRuns platform).Along (fun world _ => ¬ Unsafe world) ⟨disk, false⟩ events := by
  apply (freshRuns platform).along_congr FreshInv
  · exact fun world event h hsafe => fresh_step_inv h hsafe event
  · exact fun world event h => installSafe_iff h
  · exact hdisk.inv

/-! A root with nothing in it, and starts that are cut there. -/

def emptyRoot : Disk := ⟨.empty, .empty, .empty, .empty, ∅, none, ∅⟩

theorem emptyRoot_fresh : FreshRoot emptyRoot := ⟨rfl, rfl, rfl, rfl⟩

def startAt (now asideId : String) : Startup :=
  ⟨now, now, "0198a9d2-0000-7000-8000-000000000009", asideId, "e"⟩

/-- The state before an event of a run from the empty root. -/
def freshAfter (platform : Platform) (events : List FreshEvent) : FreshWorld :=
  (freshRuns platform).run ⟨emptyRoot, false⟩ events

instance (file : StateFile AccountRegistry) : Decidable (AccountRegistry.Unreadable file) :=
  inferInstanceAs (Decidable (_ ∧ _ ∧ _))

instance (file : StateFile InstallationState) : Decidable file.Lost :=
  inferInstanceAs (Decidable (_ ∧ _ ∧ _))

instance (disk : Disk) : Decidable (Blocked disk) := inferInstanceAs (Decidable (_ ∨ _))

theorem not_unsafe_of_own {world : FreshWorld} (hblocked : ¬ Blocked world.disk)
    (hown : world.own = true ∨ world.disk.databases.lookup defaultAccountId = none) : ¬ Unsafe world := by
  rintro (⟨-, hfound⟩ | ⟨-, hforeign, ⟨database, hdatabase⟩, -, -⟩)
  · exact hblocked hfound
  · rcases hown with hown | hnone
    · rw [hforeign] at hown
      cases hown
    · rw [hnone] at hdatabase
      cases hdatabase

/-- Cut while SQLite creates the database. -/
def cutDatabase : FreshEvent := .start (startAt "t1" "a1") (List.replicate 6 .none ++ [.crash])

/-- A start that is cut while the database is made, and the next, which puts the half-made file aside. -/
theorem cut_database_safe :
    (freshRuns .unix).Along (fun world _ => InstallSafe .unix world) ⟨emptyRoot, false⟩
      [cutDatabase, .start (startAt "t2" "a2") [], .start (startAt "t3" "a3") []] := by
  apply (fresh_installation_safe_iff .unix emptyRoot_fresh _).mpr
  refine ⟨?_, ?_, ?_, trivial⟩
  · exact not_unsafe_of_own (by decide) (.inr (by decide))
  · exact not_unsafe_of_own (by decide) (.inl (by decide))
  · exact not_unsafe_of_own (by decide) (.inl (by decide))

/-- Cut while the first accounts.json is written. -/
def cutRegistry : List FreshEvent :=
  [.start (startAt "t1" "a1") (List.replicate 14 .none ++ [.crash])]

/-- `ReplaceFileW` is rejected, and the start is cut while the sidecar journal of the marker is written; the next start comes to its end. -/
def cutJournal : List FreshEvent :=
  [.start (startAt "t1" "a1") (List.replicate 12 .none ++ [.fail, .none, .crash]),
    .start (startAt "t2" "a2") []]

def olderDatabase : Database :=
  ⟨⟨[("local_tasks", 3)], some "phone", none, none, "o"⟩, none, [], 0⟩

/-- Cut once the marker stands, and then somebody puts a database where the account's is to be. -/
def cutMarker : List FreshEvent :=
  [.start (startAt "t1" "a1") (List.replicate 5 .none ++ [.crash]),
    .place defaultAccountId (some olderDatabase)]

theorem alone_of_keys {world : FreshWorld} (hkeys : world.disk.databases.keys = [defaultAccountId])
    (hown : world.own = true) (id : String) : ¬ world.Foreign id := by
  rintro ⟨hplace, hforeign⟩
  have hmem : id ∈ world.disk.databases.keys := AList.mem_keys.mpr (AList.lookup_isSome.mp hplace)
  rw [hkeys, List.mem_singleton] at hmem
  rw [hforeign hmem] at hown
  cases hown

/-- A start fails, with nothing in its way and nothing going wrong. -/
theorem not_finishes {platform : Platform} {world : FreshWorld} {startup : Startup} {error : AccountError}
    (hkeys : world.disk.databases.keys = [defaultAccountId]) (hown : world.own = true)
    (hname : NewName startup world.disk)
    (hfailed : (ensureActiveAccount platform startup world.disk []).1 = .failed error) :
    ¬ InstallSafe platform world := by
  intro hsafe
  obtain ⟨context, next, hdone, -⟩ := hsafe.finishes (alone_of_keys hkeys hown) startup hname
  rw [hdone] at hfailed
  cases hfailed

/-- Leftover files that stop every start: the half-written first registry, and the half-written sidecar journal of a marker that is long gone. And a database of somebody else that is taken over. -/
theorem interrupted_installation_unsafe :
    (¬ (freshRuns .unix).Along (fun world _ => InstallSafe .unix world) ⟨emptyRoot, false⟩
        (cutRegistry ++ [.start (startAt "t3" "a3") []])) ∧
      (¬ (freshRuns .windows).Along (fun world _ => InstallSafe .windows world) ⟨emptyRoot, false⟩
        (cutJournal ++ [.start (startAt "t3" "a3") []])) ∧
      ¬ (freshRuns .unix).Along (fun world _ => InstallSafe .unix world) ⟨emptyRoot, false⟩
        (cutMarker ++ [.start (startAt "t3" "a3") []]) := by
  have hregistry : (freshAfter .unix cutRegistry).disk.databases.keys = [defaultAccountId] ∧
      (freshAfter .unix cutRegistry).own = true ∧
      NewName (startAt "t3" "a3") (freshAfter .unix cutRegistry).disk ∧
      (ensureActiveAccount .unix (startAt "t3" "a3") (freshAfter .unix cutRegistry).disk []).1 =
        .failed (.invalidRegistry "registry replacement artifacts exist but none is valid") := by
    decide
  have hjournal : (freshAfter .windows cutJournal).disk.databases.keys = [defaultAccountId] ∧
      (freshAfter .windows cutJournal).own = true ∧
      NewName (startAt "t3" "a3") (freshAfter .windows cutJournal).disk ∧
      (ensureActiveAccount .windows (startAt "t3" "a3") (freshAfter .windows cutJournal).disk []).1 =
        .failed (.invalidRegistry "state journal has no backup") := by
    decide
  have hmarker : NewName (startAt "t3" "a3") (freshAfter .unix cutMarker).disk ∧
      (freshAfter .unix cutMarker).own = false ∧
      (freshAfter .unix cutMarker).disk.databases.lookup defaultAccountId = some (some olderDatabase) ∧
      (ensureActiveAccount .unix (startAt "t3" "a3") (freshAfter .unix cutMarker).disk []).1 =
        .done ⟨defaultAccountId, .anonymous, none, none, false⟩ ∧
      (ensureActiveAccount .unix (startAt "t3" "a3") (freshAfter .unix cutMarker).disk
        []).2.1.backups.lookup (freshAside (startAt "t3" "a3")) = none := by
    decide
  refine ⟨fun hsafe => ?_, fun hsafe => ?_, fun hsafe => ?_⟩
  · obtain ⟨hkeys, hown, hname, hfailed⟩ := hregistry
    exact not_finishes hkeys hown hname hfailed hsafe.2.1
  · obtain ⟨hkeys, hown, hname, hfailed⟩ := hjournal
    exact not_finishes hkeys hown hname hfailed hsafe.2.2.1
  · obtain ⟨hname, hforeign, hdatabase, hdone, haside⟩ := hmarker
    have hstate : InstallSafe .unix (freshAfter .unix cutMarker) := hsafe.2.2.1
    have hspared := hstate.spares (startAt "t3" "a3") [] defaultAccountId (some olderDatabase) hname
      ⟨by rw [hdatabase]; rfl, fun _ => hforeign⟩ hdatabase
    have hmoved := hspared.2.1 _ hdone rfl
    rw [haside] at hmoved
    cases hmoved

end Accounts

end ShishiTodo
