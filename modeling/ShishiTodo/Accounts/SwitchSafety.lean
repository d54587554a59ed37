import ShishiTodo.Accounts.SwitchRuns

/-!
# The switch is safe against crashes

In every run the active account is the source or the target of the journal, it becomes the target only in a recovery that found the target in order, and a switch is finished only then. A failed switch gives the source back at the next recovery, unless the replacement of the journal by its failed form was torn while the target was active.
-/

namespace ShishiTodo

namespace Accounts

open Lib

/-- The files, whether the application is down, and the account that was last found in order since a switch was prepared. -/
structure SwitchWorld where
  disk : Disk
  down : Bool
  passed : Option String

inductive SwitchEvent where
  /-- The account databases change: the application writes to them, or something else does. -/
  | databases (databases : Table String (Option Database))
  | crash
  | call (op : SwitchOp) (faults : List Fault)

def SwitchEvent.isRecover : SwitchEvent → Bool
  | .call op _ => op.isRecover
  | _ => false

/-- Which account is known to be in order after the operation. -/
def passedAfter (before : Disk) (op : SwitchOp) (after : Disk) (passed : Option String) : Option String :=
  match op, before.switch.target with
  | .recover _, some journal =>
      if journal.Requested ∧ targetPasses before journal = true then some journal.toAccountId else passed
  | .prepare _ _ _, _ => if after.switch.target = before.switch.target then passed else none
  | _, _ => passed

/-- One operation. While the application is down nothing runs but the recovery of the next start. -/
def SwitchWorld.call (platform : Platform) (world : SwitchWorld) (op : SwitchOp) (faults : List Fault) :
    SwitchWorld :=
  if world.down && !op.isRecover then world
  else
    let result := op.program platform world.disk faults
    { disk := result.2.1
      down := match result.1 with
        | .done _ => false
        | .failed _ => world.down
        | .crashed => true
      passed := passedAfter world.disk op result.2.1 world.passed }

def SwitchWorld.step (platform : Platform) (world : SwitchWorld) : SwitchEvent → SwitchWorld
  | .databases databases => { world with disk := { world.disk with databases := databases } }
  | .crash => { world with down := true }
  | .call op faults => world.call platform op faults

def switchRuns (platform : Platform) : Machine SwitchWorld SwitchEvent Unit where
  step := SwitchWorld.step platform
  emit _ _ := []

/-- The files after starts that were interrupted, failed or ended, one after the other. -/
def restarts (platform : Platform) (disk : Disk) : List (String × List Fault) → Disk
  | [] => disk
  | (now, faults) :: rest => restarts platform (recoverPendingSwitch platform now disk faults).2.1 rest

/-- After any number of interrupted starts, a recovery that ends makes the account active, and one in which nothing goes wrong does end. -/
def Restores (platform : Platform) (disk : Disk) (account : String) : Prop :=
  ∀ attempts now,
    (recoverPendingSwitch platform now).Succeeds (restarts platform disk attempts) (fun _ _ => True) ∧
    ∀ faults, (recoverPendingSwitch platform now).Meets (restarts platform disk attempts) faults
      fun ending next _ => ∀ recovery, ending = .done recovery → activeAccount next = some account

/-- The operation is a failure of the switch: it is rolled back, or its target is found not to be in order. -/
def failsSwitch (disk : Disk) (op : SwitchOp) : Bool :=
  match disk.switch.target, op with
  | some _, .rollback _ _ => true
  | some journal, .recover _ => decide journal.Requested && targetFails disk journal
  | _, _ => false

/-- What is asked of a state and of the step taken from it. -/
structure StepSafe (platform : Platform) (world : SwitchWorld) (event : SwitchEvent) : Prop where
  between : ∀ journal, world.disk.switch.target = some journal →
    activeAccount world.disk = some journal.fromAccountId ∨
      activeAccount world.disk = some journal.toAccountId
  moved : ∀ account, activeAccount (world.step platform event).disk = some account →
    activeAccount world.disk ≠ some account →
    ∃ journal, (world.step platform event).disk.switch.target = some journal ∧
      (event.isRecover = true ∧ journal.phase = .verifyingTarget ∧ account = journal.toAccountId ∨
        journal.phase = .failed ∧ account = journal.fromAccountId)
  failed : ∀ journal, world.disk.switch.target = some journal → journal.phase = .failed →
    Restores platform world.disk journal.fromAccountId
  rejected : ∀ op faults journal, event = .call op faults →
    world.disk.switch.target = some journal → failsSwitch world.disk op = true →
    (world.step platform event).disk.switch.target ≠ some journal →
    Restores platform (world.step platform event).disk journal.fromAccountId
  finished : ∀ faults journal, event = .call .finish faults →
    world.disk.switch.target = some journal →
    (world.step platform event).disk.switch.target = none →
    activeAccount world.disk = some journal.toAccountId ∧
      world.passed = some journal.toAccountId

/-- The step that goes wrong: the journal of a failed switch is to be replaced by its failed form while the target is active, and the replacement is torn. -/
def losesFailure (platform : Platform) (world : SwitchWorld) : SwitchEvent → Bool
  | .call op faults =>
      (op.isRecover || !world.down && world.disk.registry.target.isSome) &&
        failsSwitch world.disk op &&
        world.disk.switch.target.any (fun journal =>
          activeAccount world.disk == some journal.toAccountId) &&
        StateFile.tearsSwap platform (journalFaults platform world.disk faults op)
  | _ => false

/-! ### The invariant -/

/-- What the journal says of the registry. -/
structure Journaled (registry : AccountRegistry) (passed : Option String)
    (journal : PendingAccountSwitch) : Prop where
  between : registry.activeAccountId = journal.fromAccountId ∨
    registry.activeAccountId = journal.toAccountId
  source : journal.phase = .prepared ∨ journal.phase = .restartRequired →
    registry.activeAccountId = journal.fromAccountId
  registered : journal.fromAccountId ∈ registry.ids
  passed : journal.phase = .verifyingTarget → passed = some journal.toAccountId

structure SwitchInv (registry : AccountRegistry) (world : SwitchWorld) : Prop where
  readable : Readable registry world.disk
  journaled : ∀ journal, world.disk.switch.target = some journal →
    Journaled registry world.passed journal

section Invariant

variable {platform : Platform} {registry : AccountRegistry} {world : SwitchWorld} {disk : Disk}
  {faults : List Fault}

theorem validate_touch (journal : PendingAccountSwitch) (now : String) (phase : SwitchPhase) :
    (journal.touch now phase).validate = journal.validate := rfl

theorem validate_failedWith (journal : PendingAccountSwitch) (now code : String) :
    (journal.failedWith now code).validate = journal.validate := rfl

theorem activeAccount_eq (h : registry.StandsIn disk.registry) :
    activeAccount disk = some registry.activeAccountId := by
  rw [activeAccount, h.current]
  rfl

theorem validate_prepared (h : registry.Valid) {targetId : String} (hid : validateAccountId targetId = .ok ())
    (hother : registry.activeAccountId ≠ targetId) (generation : Nat) (now : String) :
    PendingAccountSwitch.validate ⟨switchStateVersion, .prepared, registry.activeAccountId, targetId,
      generation, now, now, none⟩ = .ok () := by
  have hactive := h.validateAccountId h.active_mem
  simp [PendingAccountSwitch.validate, hactive, hid, refuseIf, hother, bind, Except.bind]

/-- A journal that stays is still one the invariant speaks of. -/
theorem Journaled.mono {next : AccountRegistry} {passed later : Option String}
    {journal : PendingAccountSwitch} (h : Journaled registry passed journal)
    (hactive : next.activeAccountId = registry.activeAccountId) (hids : registry.ids ⊆ next.ids)
    (hlater : later = passed ∨ later = some journal.toAccountId) : Journaled next later journal where
  between := hactive ▸ h.between
  source := fun hphase => hactive.trans (h.source hphase)
  registered := hids h.registered
  passed := fun hphase => hlater.elim (fun heq => heq.trans (h.passed hphase)) id

theorem passedAfter_of_same {before after : Disk} {op : SwitchOp} {passed : Option String}
    {journal : PendingAccountSwitch} (hbefore : before.switch.target = some journal)
    (hsame : after.switch.target = before.switch.target) :
    passedAfter before op after passed = passed ∨
      passedAfter before op after passed = some journal.toAccountId := by
  cases op with
  | recover now =>
      simp only [passedAfter, hbefore]
      split
      · exact .inr rfl
      · exact .inl rfl
  | prepare now generation targetId =>
      simp only [passedAfter, if_pos hsame]
      exact .inl trivial
  | _ => exact .inl rfl

/-- The journal an operation leaves passes its check, and the invariant speaks of it. -/
theorem effect_journaled {op : SwitchOp} {after : Disk} {next : AccountRegistry}
    (h : SwitchInv registry world)
    (heffect : SwitchEffect platform world.disk registry faults op after.switch.target next)
    {journal : PendingAccountSwitch} (hjournal : after.switch.target = some journal) :
    journal.validate = .ok () ∧
      Journaled next (passedAfter world.disk op after world.passed) journal := by
  generalize htarget : after.switch.target = target at heffect
  rw [hjournal] at htarget
  cases heffect with
  | kept op next hactive hids =>
      have hbefore : world.disk.switch.target = some journal := htarget.symm
      exact ⟨h.readable.valid journal hbefore, (h.journaled journal hbefore).mono hactive hids
        (passedAfter_of_same hbefore (hjournal.trans htarget))⟩
  | prepared now generation targetId hid hother hexisting =>
      cases htarget
      exact ⟨validate_prepared h.readable.stands.valid hid hother generation now, .inl rfl, fun _ => rfl,
        h.readable.stands.valid.active_mem, fun hphase => by cases hphase⟩
  | requested now targetId generation existing hexisting hphase =>
      cases htarget
      have hold := h.journaled existing hexisting
      exact ⟨h.readable.valid existing hexisting, hold.between, fun _ => hold.source (.inl hphase),
        hold.registered, fun hphase => by cases hphase⟩
  | dropped op existing hop hexisting hphase => cases htarget
  | finished existing hexisting hphase hactive => cases htarget
  | lost op hop htears => cases htarget
  | passed now existing next hexisting hrequested hpasses hnext =>
      cases htarget
      have hold := h.journaled existing hexisting
      refine ⟨h.readable.valid existing hexisting, ?_, fun hphase => ?_, ?_, fun _ => ?_⟩
      · rcases hnext with rfl | rfl
        · exact hold.between
        · exact .inr rfl
      · rcases hphase with hphase | hphase <;> cases hphase
      · rcases hnext with rfl | rfl <;> exact hold.registered
      · simp only [passedAfter, hexisting, if_pos (And.intro hrequested hpasses)]
        rfl
  | rejected now code op existing next hop hexisting hnext =>
      cases htarget
      have hold := h.journaled existing hexisting
      refine ⟨h.readable.valid existing hexisting, ?_, fun hphase => ?_, ?_, fun hphase => ?_⟩
      · rcases hnext with rfl | rfl
        · exact hold.between
        · exact .inl rfl
      · rcases hphase with hphase | hphase <;> cases hphase
      · rcases hnext with rfl | rfl <;> exact hold.registered
      · cases hphase
  | repaired now existing hexisting hphase =>
      cases htarget
      have hold := h.journaled journal hexisting
      exact ⟨h.readable.valid journal hexisting, .inl rfl, fun _ => rfl, hold.registered,
        fun hverifying => by rw [hphase] at hverifying; cases hverifying⟩

theorem call_inv (h : SwitchInv registry world) (op : SwitchOp) (faults : List Fault) :
    ∃ next, SwitchInv next (world.call platform op faults) := by
  unfold SwitchWorld.call
  split
  · exact ⟨registry, h⟩
  · have hleaves : (op.program platform).Meets world.disk faults fun _ next _ =>
        Leaves platform world.disk registry faults op next := program_leaves h.readable op
    obtain ⟨hnamed, next, hstands, heffect⟩ := hleaves
    exact ⟨next, ⟨hstands, hnamed, fun journal hjournal => (effect_journaled h heffect hjournal).1⟩,
      fun journal hjournal => (effect_journaled h heffect hjournal).2⟩

theorem step_inv (h : SwitchInv registry world) (event : SwitchEvent) :
    ∃ next, SwitchInv next (world.step platform event) := by
  cases event with
  | databases databases =>
      exact ⟨registry, ⟨h.readable.stands, h.readable.named, h.readable.valid⟩, h.journaled⟩
  | crash => exact ⟨registry, h.readable, h.journaled⟩
  | call op faults => exact call_inv h op faults

/-! ### A failed switch is undone -/

/-- What a recovery that ends makes of these files: the account is active. -/
structure Restoring (account : String) (registry : AccountRegistry) (disk : Disk) : Prop where
  readable : Readable registry disk
  registered : account ∈ registry.ids
  journal : disk.switch.target = none ∧ registry.activeAccountId = account ∨
    ∃ journal, disk.switch.target = some journal ∧ journal.phase = .failed ∧
      journal.fromAccountId = account ∧
      (registry.activeAccountId = account ∨ registry.activeAccountId = journal.toAccountId)

/-- Putting the source back ends, where nothing goes wrong, with the source active. -/
theorem restoreSource_meets (h : registry.StandsIn disk.registry) (journal : PendingAccountSwitch)
    (hbetween : registry.activeAccountId = journal.fromAccountId ∨
      registry.activeAccountId = journal.toAccountId) :
    (restoreSource platform journal registry).Meets disk faults fun ending next _ =>
      next.switch = disk.switch ∧
      ∃ after, AccountRegistry.StandsIn after next.registry ∧ after.ids = registry.ids ∧
        (after.activeAccountId = journal.fromAccountId ∨
          after.activeAccountId = journal.toAccountId) ∧
        (ending = .done () → after.activeAccountId = journal.fromAccountId) := by
  unfold restoreSource
  by_cases hactive : registry.activeAccountId = journal.toAccountId
  · rw [if_pos hactive]
    unfold saveRegistry Disk.inRegistry
    rw [Durably.meets_zoom]
    apply (h.save platform).mono
    intro ending file _ hfile
    have hcut : registry.StandsIn file ∨ AccountRegistry.StandsIn
        { registry with activeAccountId := journal.fromAccountId } file → ∃ after,
        AccountRegistry.StandsIn after file ∧ after.ids = registry.ids ∧
        (after.activeAccountId = journal.fromAccountId ∨
          after.activeAccountId = journal.toAccountId) := by
      rintro (hold | hnew)
      · exact ⟨registry, hold, rfl, hbetween⟩
      · exact ⟨_, hnew, rfl, .inl rfl⟩
    cases ending with
    | done _ => exact ⟨rfl, _, hfile.1, rfl, .inl rfl, fun _ => rfl⟩
    | failed _ =>
        obtain ⟨after, hafter, hids, hboth⟩ := hcut hfile
        exact ⟨rfl, after, hafter, hids, hboth, fun h => by cases h⟩
    | crashed =>
        obtain ⟨after, hafter, hids, hboth⟩ := hcut hfile
        exact ⟨rfl, after, hafter, hids, hboth, fun h => by cases h⟩
  · rw [if_neg hactive]
    have hsource := hbetween.resolve_right hactive
    exact ⟨rfl, registry, h, rfl, hbetween, fun _ => hsource⟩

/-- The same journal with a registry that has all of its accounts. -/
theorem Restoring.moved {account : String} {journal : PendingAccountSwitch} {after : AccountRegistry}
    {next : Disk} (h : Restoring account registry disk) (hjournal : disk.switch.target = some journal)
    (hfailed : journal.phase = .failed) (hfrom : journal.fromAccountId = account)
    (hswitch : next.switch = disk.switch) (hstands : after.StandsIn next.registry)
    (hids : after.ids = registry.ids)
    (hbetween : after.activeAccountId = journal.fromAccountId ∨
      after.activeAccountId = journal.toAccountId) : Restoring account after next where
  readable := ⟨hstands, hswitch ▸ h.readable.named, hswitch ▸ h.readable.valid⟩
  registered := hids ▸ h.registered
  journal := .inr ⟨journal, hswitch ▸ hjournal, hfailed, hfrom, hfrom ▸ hbetween⟩

theorem restoring_recover {account : String} (h : Restoring account registry disk) (now : String) :
    (recoverPendingSwitch platform now).Meets disk faults fun ending next _ =>
      (∃ after, Restoring account after next) ∧
        ∀ recovery, ending = .done recovery → activeAccount next = some account := by
  unfold recoverPendingSwitch
  apply meets_load_journal h.readable
  rcases h.journal with ⟨hnone, hactive⟩ | ⟨journal, hjournal, hfailed, hfrom, hbetween⟩
  · rw [hnone]
    exact ⟨⟨registry, h⟩, fun _ _ => (activeAccount_eq h.readable.stands).trans (congrArg _ hactive)⟩
  · rw [← hfrom] at hbetween
    simp only [hjournal, hfailed]
    unfold repairFailed loadRegistry Disk.inRegistry
    rw [Durably.meets_bind, Durably.meets_zoom]
    apply (h.readable.stands.loadWithRecovery platform).mono
    intro ending file left hfile
    have hloaded : Restoring account registry { disk with registry := file } :=
      h.moved hjournal hfailed hfrom rfl hfile.1 rfl hbetween
    cases ending with
    | failed _ => exact ⟨⟨registry, hloaded⟩, fun _ hending => by cases hending⟩
    | crashed => exact ⟨⟨registry, hloaded⟩, fun _ hending => by cases hending⟩
    | done found =>
        obtain ⟨rfl, -⟩ := hfile.2 found rfl
        apply Durably.meets_ofExcept_bind
        · intro _ _
          rw [Durably.meets_bind]
          have hstands : registry.StandsIn ({ disk with registry := file } : Disk).registry := hfile.1
          apply (restoreSource_meets hstands journal hbetween).mono
          rintro ending next left ⟨hswitch, after, hafter, hids, hboth, hdone⟩
          have hnext : Restoring account after next :=
            h.moved hjournal hfailed hfrom hswitch hafter hids hboth
          cases ending with
          | failed _ => exact ⟨⟨after, hnext⟩, fun _ hending => by cases hending⟩
          | crashed => exact ⟨⟨after, hnext⟩, fun _ hending => by cases hending⟩
          | done _ =>
              have hactive := (activeAccount_eq hafter).trans (congrArg some ((hdone rfl).trans hfrom))
              exact ⟨⟨after, hnext⟩, fun _ _ => hactive⟩
        · exact fun _ _ => ⟨⟨registry, hloaded⟩, fun _ hending => by cases hending⟩

theorem restoring_restarts {account : String} (attempts : List (String × List Fault))
    (h : ∃ registry, Restoring account registry disk) :
    ∃ registry, Restoring account registry (restarts platform disk attempts) := by
  induction attempts generalizing disk with
  | nil => exact h
  | cons attempt rest ih =>
      obtain ⟨registry, hdisk⟩ := h
      have hnext : (recoverPendingSwitch platform attempt.1).Meets disk attempt.2
          fun ending next _ => (∃ after, Restoring account after next) ∧
            ∀ recovery, ending = .done recovery → activeAccount next = some account :=
        restoring_recover hdisk attempt.1
      exact ih hnext.1

theorem succeeds_load_journal {β : Type} (h : Readable registry disk)
    {rest : Option PendingAccountSwitch → Durably Disk AccountError β} {post : β → Disk → Prop}
    (hrest : (rest disk.switch.target).Succeeds disk post) :
    (PendingAccountSwitch.load >>= rest).Succeeds disk post := by
  have hload : PendingAccountSwitch.load.Succeeds disk fun found next =>
      found = disk.switch.target ∧ next = disk := ⟨_, _, load_journal h, rfl, rfl⟩
  apply hload.bind
  rintro _ _ ⟨rfl, rfl⟩
  exact hrest

theorem loadRegistry_succeeds (h : registry.StandsIn disk.registry) :
    (loadRegistry platform).Succeeds disk fun found next =>
      found = some registry ∧ registry.StandsIn next.registry ∧ next.switch = disk.switch ∧
        next.databases = disk.databases := by
  unfold loadRegistry Disk.inRegistry
  apply Durably.Succeeds.zoom
  apply (h.loadWithRecovery_succeeds platform).mono
  exact fun found file hfound => ⟨hfound.1, hfound.2, rfl, rfl⟩

/-- Where nothing goes wrong the recovery of a failed switch ends. -/
theorem restoring_succeeds {account : String} (h : Restoring account registry disk) (now : String) :
    (recoverPendingSwitch platform now).Succeeds disk fun _ _ => True := by
  unfold recoverPendingSwitch
  apply succeeds_load_journal h.readable
  rcases h.journal with ⟨hnone, -⟩ | ⟨journal, hjournal, hfailed, hfrom, hbetween⟩
  · rw [hnone]
    exact Durably.succeeds_pure trivial
  · simp only [hjournal, hfailed]
    unfold repairFailed
    apply (loadRegistry_succeeds h.readable.stands).bind
    rintro _ next ⟨rfl, hstands, -⟩
    have hrestored : ∀ disk : Disk,
        (restoreSource platform journal registry).Succeeds disk fun _ _ => True := by
      intro disk
      unfold restoreSource
      by_cases hactive : registry.activeAccountId = journal.toAccountId
      · rw [if_pos hactive]
        unfold saveRegistry Disk.inRegistry
        apply Durably.Succeeds.zoom
        have hvalid := h.readable.stands.valid.activate (hfrom ▸ h.registered)
        exact (AccountRegistry.save_succeeds platform hvalid).mono fun _ _ _ => trivial
      · rw [if_neg hactive]
        exact Durably.succeeds_pure trivial
    have hone : ¬ (registry.activeAccountId ≠ journal.fromAccountId ∧
        registry.activeAccountId ≠ journal.toAccountId) := by
      rw [not_and_or, not_not, not_not, hfrom]
      exact hbetween
    exact Durably.succeeds_ofExcept_bind (refuseIf_eq_ok_iff.mpr hone : _ = Except.ok ())
      ((hrestored next).bind fun _ _ _ => Durably.succeeds_pure trivial)

theorem restoring_restores {account : String} (h : Restoring account registry disk) :
    Restores platform disk account := by
  intro attempts now
  have hrestarted : ∃ after, Restoring account after (restarts platform disk attempts) :=
    restoring_restarts attempts ⟨registry, h⟩
  obtain ⟨after, hafter⟩ := hrestarted
  exact ⟨restoring_succeeds hafter now, fun faults => (restoring_recover hafter now).mono
    fun _ _ _ hnext => hnext.2⟩

/-! ### One step -/

theorem targetFails_of_passes {journal : PendingAccountSwitch} (h : targetPasses disk journal = true) :
    targetFails disk journal = false := by
  unfold targetPasses targetFails at *
  cases htarget : targetRecord disk journal with
  | none => rfl
  | some target =>
      rw [htarget, Option.any_some] at h
      simp [h]

theorem requested_of_failsSwitch {op : SwitchOp} {journal : PendingAccountSwitch}
    (hjournal : disk.switch.target = some journal) (hfails : failsSwitch disk op = true)
    (hrecover : op.isRecover = true) : journal.Requested ∧ targetFails disk journal = true := by
  cases op with
  | recover now => simpa [failsSwitch, hjournal] using hfails
  | _ => cases hrecover

/-- What a failure of the switch leaves can be undone, unless the journal was lost with the target active. -/
theorem failure_restoring {op : SwitchOp} {next : Disk} {journal : PendingAccountSwitch}
    (h : SwitchInv registry world) (hleaves : Leaves platform world.disk registry faults op next)
    (hjournal : world.disk.switch.target = some journal) (hfails : failsSwitch world.disk op = true)
    (hchanged : next.switch.target ≠ some journal)
    (hkept : registry.activeAccountId = journal.toAccountId →
      StateFile.tearsSwap platform (journalFaults platform world.disk faults op) = false) :
    ∃ after, Restoring journal.fromAccountId after next := by
  obtain ⟨hnamed, after, hstands, heffect⟩ := hleaves
  have hold := h.journaled journal hjournal
  have hreadable : Readable after next :=
    ⟨hstands, hnamed, fun found hfound => (effect_journaled h heffect hfound).1⟩
  refine ⟨after, ?_⟩
  generalize htarget : next.switch.target = target at heffect hchanged
  cases heffect with
  | kept op next hactive hids => exact absurd hjournal hchanged
  | prepared => simp [failsSwitch, hjournal] at hfails
  | requested => simp [failsSwitch, hjournal] at hfails
  | finished => simp [failsSwitch, hjournal] at hfails
  | dropped op existing hop hexisting hphase =>
      rw [hjournal] at hexisting
      cases hexisting
      rcases hop with rfl | hrecover
      · simp [failsSwitch, hjournal] at hfails
      · have hrequested := (requested_of_failsSwitch hjournal hfails hrecover).1
        simp [PendingAccountSwitch.Requested, hphase] at hrequested
  | lost op hop htears =>
      have hactive : registry.activeAccountId = journal.fromAccountId := by
        apply hold.between.resolve_right
        intro htarget
        rw [hkept htarget] at htears
        cases htears
      exact ⟨hreadable, hold.registered, .inl ⟨htarget, hactive⟩⟩
  | passed now existing next hexisting hrequested hpasses hnext =>
      rw [hjournal] at hexisting
      cases hexisting
      have hfound := (requested_of_failsSwitch hjournal hfails rfl).2
      rw [targetFails_of_passes hpasses] at hfound
      cases hfound
  | rejected now code op existing next hop hexisting hnext =>
      rw [hjournal] at hexisting
      cases hexisting
      refine ⟨hreadable, ?_, .inr ⟨_, htarget, rfl, rfl, ?_⟩⟩
      · rcases hnext with rfl | rfl <;> exact hold.registered
      · rcases hnext with rfl | rfl
        · exact hold.between
        · exact .inl rfl
  | repaired now existing hexisting hphase =>
      have hrequested := (requested_of_failsSwitch hjournal hfails rfl).1
      rw [hjournal] at hexisting
      cases hexisting
      simp [PendingAccountSwitch.Requested, hphase] at hrequested

/-- Where the active account moves, a recovery moved it to a target that passed, or a failed switch gave it back. -/
theorem effect_moved {op : SwitchOp} {target : Option PendingAccountSwitch} {next : AccountRegistry}
    (heffect : SwitchEffect platform disk registry faults op target next)
    (hmoved : next.activeAccountId ≠ registry.activeAccountId) :
    ∃ journal, target = some journal ∧
      (op.isRecover = true ∧ journal.phase = .verifyingTarget ∧
          next.activeAccountId = journal.toAccountId ∨
        journal.phase = .failed ∧ next.activeAccountId = journal.fromAccountId) := by
  cases heffect with
  | kept op next hactive hids => exact absurd hactive hmoved
  | prepared => exact absurd rfl hmoved
  | requested => exact absurd rfl hmoved
  | dropped => exact absurd rfl hmoved
  | finished => exact absurd rfl hmoved
  | lost => exact absurd rfl hmoved
  | passed now journal next hjournal hrequested hpasses hnext =>
      obtain rfl := hnext.resolve_left fun heq => hmoved (heq ▸ rfl)
      exact ⟨_, rfl, .inl ⟨rfl, rfl, rfl⟩⟩
  | rejected now code op journal next hop hjournal hnext =>
      obtain rfl := hnext.resolve_left fun heq => hmoved (heq ▸ rfl)
      exact ⟨_, rfl, .inr ⟨rfl, rfl⟩⟩
  | repaired now journal hjournal hphase => exact ⟨_, rfl, .inr ⟨hphase, rfl⟩⟩

/-- A finished switch had its target active and found in order. -/
theorem effect_finished {next : Disk} {journal : PendingAccountSwitch} (h : SwitchInv registry world)
    (hleaves : Leaves platform world.disk registry faults .finish next)
    (hjournal : world.disk.switch.target = some journal) (hnone : next.switch.target = none) :
    registry.activeAccountId = journal.toAccountId ∧ world.passed = some journal.toAccountId := by
  obtain ⟨-, after, -, heffect⟩ := hleaves
  rw [hnone] at heffect
  generalize htarget : (none : Option PendingAccountSwitch) = target at heffect
  cases heffect with
  | kept op next hactive hids =>
      rw [hjournal] at htarget
      cases htarget
  | dropped op existing hop hexisting hphase => rcases hop with hop | hop <;> cases hop
  | finished existing hexisting hphase hactive =>
      rw [hjournal] at hexisting
      cases hexisting
      exact ⟨hactive, (h.journaled journal hjournal).passed hphase⟩
  | lost op hop htears => exact absurd rfl hop
  | rejected now code op existing next hop hexisting hnext => cases htarget

/-- Without a registry in place there is no rollback. -/
theorem rollback_missing (h : Readable registry disk) (hmissing : disk.registry.target = none)
    (now code : String) :
    (rollbackPendingSwitch platform now code).Meets disk faults fun _ next _ => next = disk := by
  unfold rollbackPendingSwitch
  apply meets_load_journal h
  rcases disk.switch.target with _ | journal
  · exact rfl
  · apply meets_readRegistry h.stands
    · intro htarget
      rw [hmissing] at htarget
      cases htarget
    · exact fun _ => rfl

/-- A failure that runs and changes the journal is torn only where the step loses it. -/
theorem tears_of_losesFailure {op : SwitchOp} {journal : PendingAccountSwitch}
    (h : SwitchInv registry world) (hruns : ¬ (world.down && !op.isRecover) = true)
    (hjournal : world.disk.switch.target = some journal) (hfails : failsSwitch world.disk op = true)
    (hchanged : (op.program platform world.disk faults).2.1.switch.target ≠ some journal)
    (hactive : registry.activeAccountId = journal.toAccountId) :
    losesFailure platform world (.call op faults) =
      StateFile.tearsSwap platform (journalFaults platform world.disk faults op) := by
  have hto : world.disk.switch.target.any (fun journal =>
      activeAccount world.disk == some journal.toAccountId) = true := by
    rw [hjournal, activeAccount_eq h.readable.stands]
    simp [hactive]
  have henabled : (op.isRecover || !world.down && world.disk.registry.target.isSome) = true := by
    by_cases hrecover : op.isRecover = true
    · rw [hrecover, Bool.true_or]
    · have hup : world.down = false := by
        rw [Bool.not_eq_true] at hrecover
        simpa [hrecover] using hruns
      cases op with
      | rollback now code =>
          rcases htarget : world.disk.registry.target with _ | found
          · have hmissing : ((rollbackPendingSwitch platform now code).void).Meets world.disk faults
                fun _ next _ => next = world.disk :=
              (rollback_missing h.readable htarget now code).void
            have hsame : ((SwitchOp.rollback now code).program platform world.disk faults).2.1 =
                world.disk := hmissing
            rw [hsame] at hchanged
            exact absurd hjournal hchanged
          · simp [hup]
      | recover now => exact absurd rfl hrecover
      | _ => simp [failsSwitch, hjournal] at hfails
  simp [losesFailure, henabled, hfails, hto]

theorem stepSafe_of_kept {event : SwitchEvent} (h : SwitchInv registry world)
    (hkept : losesFailure platform world event = false) : StepSafe platform world event where
  between := by
    intro journal hjournal
    rw [activeAccount_eq h.readable.stands]
    exact (h.journaled journal hjournal).between.imp (congrArg some) (congrArg some)
  moved := by
    intro account hnext hbefore
    cases event with
    | databases databases => exact absurd hnext hbefore
    | crash => exact absurd hnext hbefore
    | call op faults =>
        simp only [SwitchWorld.step, SwitchWorld.call] at hnext ⊢
        split at hnext
        · exact absurd hnext hbefore
        · rename_i hruns
          rw [if_neg hruns]
          have hleaves : (op.program platform).Meets world.disk faults fun _ next _ =>
            Leaves platform world.disk registry faults op next := program_leaves h.readable op
          obtain ⟨-, after, hstands, heffect⟩ := hleaves
          rw [activeAccount_eq hstands] at hnext
          rw [activeAccount_eq h.readable.stands] at hbefore
          cases hnext
          exact effect_moved heffect fun heq => hbefore (congrArg some heq.symm)
  failed := by
    intro journal hjournal hphase
    have hold := h.journaled journal hjournal
    exact restoring_restores ⟨h.readable, hold.registered,
      .inr ⟨journal, hjournal, hphase, rfl, hold.between⟩⟩
  rejected := by
    rintro op faults journal rfl hjournal hfails hchanged
    simp only [SwitchWorld.step, SwitchWorld.call] at hchanged ⊢
    split at hchanged
    · exact absurd hjournal hchanged
    · rename_i hruns
      rw [if_neg hruns]
      have hleaves : (op.program platform).Meets world.disk faults fun _ next _ =>
        Leaves platform world.disk registry faults op next := program_leaves h.readable op
      have hnot : registry.activeAccountId = journal.toAccountId →
          StateFile.tearsSwap platform (journalFaults platform world.disk faults op) = false :=
        fun hactive => (tears_of_losesFailure h hruns hjournal hfails hchanged hactive).symm.trans hkept
      obtain ⟨after, hafter⟩ := failure_restoring h hleaves hjournal hfails hchanged hnot
      exact restoring_restores hafter
  finished := by
    rintro faults journal rfl hjournal hnone
    simp only [SwitchWorld.step, SwitchWorld.call] at hnone
    split at hnone
    · rw [hjournal] at hnone
      cases hnone
    · have hleaves : (SwitchOp.finish.program platform).Meets world.disk faults fun _ next _ =>
        Leaves platform world.disk registry faults .finish next := program_leaves h.readable .finish
      obtain ⟨hactive, hpassed⟩ := effect_finished h hleaves hjournal hnone
      exact ⟨(activeAccount_eq h.readable.stands).trans (congrArg some hactive), hpassed⟩

/-! ### The torn failure -/

theorem saveJournal_torn {β : Type} {journal old : PendingAccountSwitch}
    {rest : Unit → Durably Disk AccountError β} (hold : disk.switch.target = some old)
    (hvalid : journal.validate = .ok ()) (htears : StateFile.tearsSwap platform faults = true) :
    (journal.save platform >>= rest).Meets disk faults fun _ next _ =>
      next.switch.target = none ∧ next.registry = disk.registry := by
  unfold PendingAccountSwitch.save Disk.inSwitch
  rw [hvalid, Durably.bind_assoc]
  apply Durably.meets_ofExcept_bind
  · intro _ _
    rw [Durably.meets_bind, Durably.meets_zoom]
    apply (StateFile.writeJsonAtomic_torn hold htears).mono
    intro ending file left hfile
    cases ending with
    | done value => exact absurd rfl hfile.1
    | failed _ => exact ⟨hfile.2, rfl⟩
    | crashed => exact ⟨hfile.2, rfl⟩
  · intro error herror
    cases herror

theorem rollback_torn (h : Readable registry disk) {journal : PendingAccountSwitch}
    (hjournal : disk.switch.target = some journal) (htarget : disk.registry.target.isSome = true)
    (htears : StateFile.tearsSwap platform faults = true) (now code : String) :
    (rollbackPendingSwitch platform now code).Meets disk faults fun _ next _ =>
      next.switch.target = none ∧ registry.StandsIn next.registry := by
  unfold rollbackPendingSwitch
  apply meets_load_journal h
  rw [hjournal]
  apply meets_readRegistry h.stands
  · intro _
    have hvalid := (validate_failedWith journal now code).trans (h.valid journal hjournal)
    apply (saveJournal_torn hjournal hvalid htears).mono
    exact fun _ next _ hnext => ⟨hnext.1, hnext.2 ▸ h.stands⟩
  · intro hmissing
    rw [hmissing] at htarget
    cases htarget

theorem recover_torn (h : Readable registry disk) {journal : PendingAccountSwitch}
    (hjournal : disk.switch.target = some journal) (hrequested : journal.Requested)
    (hfails : targetFails disk journal = true)
    (hactive : registry.activeAccountId = journal.toAccountId)
    (htears : StateFile.tearsSwap platform (loadedFaults platform disk faults) = true) (now : String) :
    (recoverPendingSwitch platform now).Meets disk faults fun _ next _ =>
      next.switch.target = none ∧ registry.StandsIn next.registry := by
  have hbranch : (recoverRequested platform now journal).Meets disk faults fun _ next _ =>
      next.switch.target = none ∧ registry.StandsIn next.registry := by
    unfold recoverRequested
    apply meets_requireRegistry h.stands
    · intro file hfile _
      apply Durably.meets_ofExcept_bind
      · intro _ _
        unfold targetFails at hfails
        rw [targetRecord_eq h.stands] at hfails
        rcases htarget : registry.account journal.toAccountId with _ | target
        · rw [htarget] at hfails
          cases hfails
        · rw [htarget, Option.any_some] at hfails
          apply Durably.meets_get_bind
          have hverify : verifyTargetIdentity { disk with registry := file } target =
              verifyTargetIdentity disk target := rfl
          rcases hcheck : verifyTargetIdentity disk target with error | _
          · simp only [hverify, hcheck]
            have hvalid := (validate_failedWith journal now "TARGET_INVALID").trans
              (h.valid journal hjournal)
            have hold : ({ disk with registry := file } : Disk).switch.target = some journal := hjournal
            apply (saveJournal_torn hold hvalid htears).mono
            exact fun _ next _ hnext => ⟨hnext.1, hnext.2 ▸ hfile⟩
          · rw [hcheck] at hfails
            cases hfails
      · intro error herror
        rw [refuseIf, if_neg (not_and_or.mpr (.inr (not_not.mpr hactive)))] at herror
        cases herror
    · intro file _ hnothing
      rw [hnothing] at htears
      cases htears
  unfold recoverPendingSwitch
  apply meets_load_journal h
  rw [hjournal]
  rcases hrequested with hphase | hphase
  · simp only [hphase]
    exact hbranch
  · simp only [hphase]
    exact hbranch

/-- After a torn failure the next recovery finds no journal, and the target stays active. -/
theorem not_restores_of_none {next : Disk} {account : String} (hnone : next.switch.target = none)
    (hstands : registry.StandsIn next.registry) (hother : registry.activeAccountId ≠ account) :
    ¬ Restores platform next account := by
  intro hrestores
  have hdone : (recoverPendingSwitch platform "") next [] = (.done ⟨false, none⟩, next, []) := by
    unfold recoverPendingSwitch PendingAccountSwitch.load
    rw [Durably.bind_assoc]
    change Durably.bind Durably.get _ next [] = _
    simp only [Durably.bind, Durably.get, hnone]
    rfl
  have hactive := (hrestores [] "").2 []
  unfold Durably.Meets at hactive
  simp only [restarts, hdone] at hactive
  rw [activeAccount_eq hstands] at hactive
  exact hother (Option.some.inj (hactive _ rfl))

theorem not_stepSafe_of_loses {event : SwitchEvent} (h : SwitchInv registry world)
    (hloses : losesFailure platform world event = true) : ¬ StepSafe platform world event := by
  intro hsafe
  cases event with
  | databases databases => cases hloses
  | crash => cases hloses
  | call op faults =>
      simp only [losesFailure, Bool.and_eq_true, Bool.or_eq_true] at hloses
      obtain ⟨⟨⟨henabled, hfails⟩, hto⟩, htears⟩ := hloses
      rcases hjournal : world.disk.switch.target with _ | journal
      · rw [hjournal] at hto
        cases hto
      · rw [hjournal, Option.any_some, activeAccount_eq h.readable.stands, beq_iff_eq] at hto
        have hactive := Option.some.inj hto
        have hruns : ¬ (world.down && !op.isRecover) = true := by
          rcases henabled with hrecover | ⟨hup, -⟩
          · simp [hrecover]
          · simpa using fun hdown => absurd hdown (by simpa using hup)
        have htorn : (op.program platform).Meets world.disk faults fun _ next _ =>
            next.switch.target = none ∧ registry.StandsIn next.registry := by
          cases op with
          | recover now =>
              obtain ⟨hrequested, htarget⟩ := requested_of_failsSwitch hjournal hfails rfl
              exact (recover_torn h.readable hjournal hrequested htarget hactive htears now).void
          | rollback now code =>
              have hplace := (henabled.resolve_left (by simp [SwitchOp.isRecover])).2
              exact (rollback_torn h.readable hjournal hplace htears now code).void
          | _ => simp [failsSwitch, hjournal] at hfails
        obtain ⟨hnone, hstands⟩ := htorn
        have hrejected := hsafe.rejected op faults journal rfl hjournal hfails
        simp only [SwitchWorld.step, SwitchWorld.call, if_neg hruns] at hrejected
        have hother : registry.activeAccountId ≠ journal.fromAccountId := by
          have hvalid := h.readable.valid journal hjournal
          unfold PendingAccountSwitch.validate at hvalid
          obtain ⟨_, -, hvalid⟩ := bind_eq_ok_iff.mp hvalid
          obtain ⟨_, -, hvalid⟩ := bind_eq_ok_iff.mp hvalid
          obtain ⟨_, -, hvalid⟩ := bind_eq_ok_iff.mp hvalid
          rw [hactive]
          exact fun heq => refuseIf_eq_ok_iff.mp hvalid heq.symm
        exact not_restores_of_none hnone hstands hother
          (hrejected fun hsome => by rw [hnone] at hsome; cases hsome)

end Invariant

/-! ### Every run -/

/-- A run of switch operations, started with a registry and without a journal, is safe in all of its steps exactly when no step loses the journal of a failed switch. -/
theorem account_switch_safe_iff (platform : Platform) {registry : AccountRegistry} {disk : Disk}
    (hdisk : Readable registry disk) (hnone : disk.switch.target = none) (events : List SwitchEvent) :
    (switchRuns platform).Along (StepSafe platform) ⟨disk, false, none⟩ events ↔
      (switchRuns platform).Along (fun world event => losesFailure platform world event = false)
        ⟨disk, false, none⟩ events := by
  have hstart : SwitchInv registry ⟨disk, false, none⟩ :=
    ⟨hdisk, fun journal hjournal => by rw [hnone] at hjournal; cases hjournal⟩
  apply (switchRuns platform).along_congr fun world => ∃ registry, SwitchInv registry world
  · rintro world event ⟨registry, h⟩ _
    exact step_inv h event
  · rintro world event ⟨registry, h⟩
    constructor
    · intro hsafe
      rw [← Bool.not_eq_true]
      exact fun hloses => not_stepSafe_of_loses h hloses hsafe
    · exact stepSafe_of_kept h
  · exact ⟨registry, hstart⟩

/-! A registry with two accounts, each with its database. -/

def workId : String := "0198a9d2-0000-7000-8000-000000000001"

def workRecord : AccountRecord :=
  ⟨workId, .cloud, some "anna@example.com", some "https://todo.example", false, "t0", 1, "t0"⟩

def workDatabase : Database :=
  ⟨⟨[], some "phone", some "anna@example.com", some "https://todo.example", "w"⟩, none, [], 0⟩

def twoAccounts : AccountRegistry :=
  ⟨1, defaultAccountId, [AccountRecord.anonymousAt "t0", workRecord]⟩

def twoDatabases : Table String (Option Database) :=
  AList.insert workId (some workDatabase) (AList.insert defaultAccountId (some (Database.fresh "e")) ∅)

def twoAccountDisk : Disk :=
  ⟨.settled twoAccounts, .empty, .empty, .empty, twoDatabases, none, ∅⟩

theorem twoAccountDisk_readable : Readable twoAccounts twoAccountDisk where
  stands :=
    { named := fun _ _ h => by cases h
      holds := by
        refine ⟨fun registry h => ?_, fun registry h => ?_⟩
        · cases h
          exact (show twoAccounts.validate = .ok () by decide)
        · cases h
      current := rfl }
  named := fun _ _ h => by cases h
  valid := fun journal h => by cases h

/-- Prepared, requested, and carried out by the next start. -/
def switchToWork : List SwitchEvent :=
  [.call (.prepare "t1" 7 workId) [], .call (.request "t2" workId 7) [], .crash,
    .call (.recover "t3") []]

/-- The database of the target is gone at the start after, and the application dies between the two renames that mark the switch as failed. -/
def tornFailure : List SwitchEvent :=
  [.databases (AList.insert defaultAccountId (some (Database.fresh "e")) ∅), .crash,
    .call (.recover "t4") [.none, .none, .none, .none, .fail, .none, .none, .none, .none, .crash]]

/-- A switch that is prepared, requested, cut by a crash, recovered and finished is safe in every step. -/
theorem switch_to_work_safe :
    (switchRuns .windows).Along (StepSafe .windows) ⟨twoAccountDisk, false, none⟩
      (switchToWork ++ [.call .finish []]) :=
  (account_switch_safe_iff .windows twoAccountDisk_readable rfl _).mpr (by decide)

/-- Before the failure is recorded: the switch was carried out, and the target has lost its database. -/
def beforeTorn : SwitchWorld :=
  (switchRuns .windows).run ⟨twoAccountDisk, false, none⟩ (switchToWork ++ tornFailure.take 2)

/-- The recovery that dies between the two renames. -/
def tornRecovery : SwitchEvent :=
  .call (.recover "t4") [.none, .none, .none, .none, .fail, .none, .none, .none, .none, .crash]

/-- A torn failure: the start after it knows of no switch, and goes on with the account that did not pass. -/
theorem torn_failure_keeps_target :
    (failsSwitch beforeTorn.disk (.recover "t4") = true ∧
      activeAccount (recoverPendingSwitch .windows "t5"
        (beforeTorn.step .windows tornRecovery).disk []).2.1 = some workId) ∧
      ¬ (switchRuns .windows).Along (StepSafe .windows) ⟨twoAccountDisk, false, none⟩
        (switchToWork ++ tornFailure) := by
  have hfacts : (failsSwitch beforeTorn.disk (.recover "t4") = true ∧
      activeAccount (recoverPendingSwitch .windows "t5"
        (beforeTorn.step .windows tornRecovery).disk []).2.1 = some workId) ∧
      (recoverPendingSwitch .windows "t5" (beforeTorn.step .windows tornRecovery).disk []).1 =
        .done ⟨false, none⟩ ∧
      (beforeTorn.step .windows tornRecovery).disk.switch.target = none ∧
      beforeTorn.disk.switch.target.map PendingAccountSwitch.fromAccountId =
        some defaultAccountId := by
    decide
  obtain ⟨hfails, hdone, hlost, hsource⟩ := hfacts
  refine ⟨hfails, fun hsafe => ?_⟩
  have hstep : StepSafe .windows beforeTorn tornRecovery := hsafe.2.2.2.2.2.2.1
  obtain ⟨journal, hjournal, hfrom⟩ := Option.map_eq_some_iff.mp hsource
  have hchanged : (beforeTorn.step .windows tornRecovery).disk.switch.target ≠ some journal := by
    rw [hlost]
    exact fun h => by cases h
  have hrestores := hstep.rejected _ _ journal rfl hjournal hfails.1 hchanged
  have hactive := (hrestores [] "t5").2 [] ⟨false, none⟩ hdone
  rw [hfrom] at hactive
  exact absurd (hfails.2.symm.trans hactive) (by decide)

end Accounts

end ShishiTodo
