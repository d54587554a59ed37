import ShishiTodo.Accounts.Switch
import ShishiTodo.Lib.Machine

/-!
# Runs of the switch

Switch operations in any order, each under any faults, with a restart after every crash. What one operation can do to the journal and to the registry is said once, in `SwitchEffect`.
-/

namespace ShishiTodo

namespace Accounts

open Lib

inductive SwitchOp where
  | prepare (now : String) (generation : Nat) (targetId : String)
  | request (now targetId : String) (generation : Nat)
  | abort
  | finish
  | recover (now : String)
  | rollback (now errorCode : String)
  | status
  | createCloud (now id fingerprint email apiUrl : String)
  | markVerified (now : String)
  deriving DecidableEq, Repr

def SwitchOp.isRecover : SwitchOp → Bool
  | .recover _ => true
  | _ => false

def SwitchOp.program (platform : Platform) : SwitchOp → Durably Disk AccountError Unit
  | .prepare now generation targetId => (prepareAccountSwitch platform now generation targetId).void
  | .request now targetId generation => (requestAccountSwitch platform now targetId generation).void
  | .abort => abortPreparedSwitch.void
  | .finish => finishPendingSwitch
  | .recover now => (recoverPendingSwitch platform now).void
  | .rollback now errorCode => (rollbackPendingSwitch platform now errorCode).void
  | .status => (switchStatus platform).void
  | .createCloud now id fingerprint email apiUrl =>
      (createPendingCloudAccount platform now id fingerprint email apiUrl).void
  | .markVerified now => (markAccountVerified platform now).void

/-- The account a restart finds active. -/
def activeAccount (disk : Disk) : Option String :=
  disk.registry.current.map AccountRegistry.activeAccountId

/-- The target of the journal, as the registry has it. -/
def targetRecord (disk : Disk) (journal : PendingAccountSwitch) : Option AccountRecord :=
  disk.registry.current.bind fun registry => registry.account journal.toAccountId

def targetPasses (disk : Disk) (journal : PendingAccountSwitch) : Bool :=
  (targetRecord disk journal).any fun target => (verifyTargetIdentity disk target).toBool

def targetFails (disk : Disk) (journal : PendingAccountSwitch) : Bool :=
  (targetRecord disk journal).any fun target => !(verifyTargetIdentity disk target).toBool

/-- A switch that recovery is to carry on. -/
def PendingAccountSwitch.Requested (journal : PendingAccountSwitch) : Prop :=
  journal.phase = .restartRequired ∨ journal.phase = .verifyingTarget

instance (journal : PendingAccountSwitch) : Decidable journal.Requested :=
  inferInstanceAs (Decidable (_ ∨ _))

/-- What is undecided once a registry was loaded; nothing where loading did not come to its end. -/
def loadedFaults (platform : Platform) (disk : Disk) (faults : List Fault) : List Fault :=
  match loadRegistry platform disk faults with
  | (.done _, _, left) => left
  | _ => []

/-- What is undecided when the operation comes to writing the journal. -/
def journalFaults (platform : Platform) (disk : Disk) (faults : List Fault) : SwitchOp → List Fault
  | .rollback _ _ => faults
  | .request _ _ _ => faults
  | _ => loadedFaults platform disk faults

/-- What an operation, interrupted or not, leaves of the journal and of the registry. -/
inductive SwitchEffect (platform : Platform) (disk : Disk) (registry : AccountRegistry)
    (faults : List Fault) : SwitchOp → Option PendingAccountSwitch → AccountRegistry → Prop
  /-- The journal stays, and so does the active account. -/
  | kept (op : SwitchOp) (next : AccountRegistry)
      (hactive : next.activeAccountId = registry.activeAccountId) (hids : registry.ids ⊆ next.ids) :
      SwitchEffect platform disk registry faults op disk.switch.target next
  | prepared (now : String) (generation : Nat) (targetId : String)
      (hid : validateAccountId targetId = .ok ()) (hother : registry.activeAccountId ≠ targetId)
      (hjournal : ∀ existing, disk.switch.target = some existing → existing.toAccountId = targetId ∧
        existing.phase ≠ .prepared ∧ existing.phase ≠ .restartRequired) :
      SwitchEffect platform disk registry faults (.prepare now generation targetId)
        (some ⟨switchStateVersion, .prepared, registry.activeAccountId, targetId, generation, now, now,
          none⟩) registry
  | requested (now targetId : String) (generation : Nat) (journal : PendingAccountSwitch)
      (hjournal : disk.switch.target = some journal) (hphase : journal.phase = .prepared) :
      SwitchEffect platform disk registry faults (.request now targetId generation)
        (some (journal.touch now .restartRequired)) registry
  /-- A journal that was only prepared is removed. -/
  | dropped (op : SwitchOp) (journal : PendingAccountSwitch)
      (hop : op = .abort ∨ op.isRecover = true)
      (hjournal : disk.switch.target = some journal) (hphase : journal.phase = .prepared) :
      SwitchEffect platform disk registry faults op none registry
  | finished (journal : PendingAccountSwitch) (hjournal : disk.switch.target = some journal)
      (hphase : journal.phase = .verifyingTarget)
      (hactive : registry.activeAccountId = journal.toAccountId) :
      SwitchEffect platform disk registry faults .finish none registry
  /-- The replacement of the journal was torn. -/
  | lost (op : SwitchOp) (hop : op ≠ .finish)
      (htears : StateFile.tearsSwap platform (journalFaults platform disk faults op) = true) :
      SwitchEffect platform disk registry faults op none registry
  | passed (now : String) (journal : PendingAccountSwitch) (next : AccountRegistry)
      (hjournal : disk.switch.target = some journal) (hrequested : journal.Requested)
      (hpasses : targetPasses disk journal = true)
      (hnext : next = registry ∨ next = { registry with activeAccountId := journal.toAccountId }) :
      SwitchEffect platform disk registry faults (.recover now)
        (some (journal.touch now .verifyingTarget)) next
  | rejected (now code : String) (op : SwitchOp) (journal : PendingAccountSwitch)
      (next : AccountRegistry) (hop : op = .recover now ∨ op = .rollback now code)
      (hjournal : disk.switch.target = some journal)
      (hnext : next = registry ∨ next = { registry with activeAccountId := journal.fromAccountId }) :
      SwitchEffect platform disk registry faults op (some (journal.failedWith now code)) next
  | repaired (now : String) (journal : PendingAccountSwitch)
      (hjournal : disk.switch.target = some journal) (hphase : journal.phase = .failed) :
      SwitchEffect platform disk registry faults (.recover now) (some journal)
        { registry with activeAccountId := journal.fromAccountId }

/-- The files after an operation: a registry still stands, and it and the journal are as the operation may leave them. -/
def Leaves (platform : Platform) (disk : Disk) (registry : AccountRegistry) (faults : List Fault)
    (op : SwitchOp) (next : Disk) : Prop :=
  next.switch.Named ∧ ∃ after, AccountRegistry.StandsIn after next.registry ∧
    SwitchEffect platform disk registry faults op next.switch.target after

/-! ### The parts of an operation -/

section Parts

variable {platform : Platform} {disk : Disk} {registry : AccountRegistry} {faults : List Fault}

/-- A registry stands on disk, and the journal passes its own check. -/
structure Readable (registry : AccountRegistry) (disk : Disk) : Prop where
  stands : registry.StandsIn disk.registry
  named : disk.switch.Named
  valid : ∀ journal, disk.switch.target = some journal → journal.validate = .ok ()

theorem load_journal (h : Readable registry disk) :
    PendingAccountSwitch.load disk faults = (.done disk.switch.target, disk, faults) := by
  unfold PendingAccountSwitch.load
  change Durably.bind Durably.get _ disk faults = _
  rcases hjournal : disk.switch.target with _ | journal
  · simp only [Durably.bind, Durably.get, hjournal]
    rfl
  · simp only [Durably.bind, Durably.get, hjournal, h.valid journal hjournal]
    rfl

/-- Every operation but loading a registry starts from the journal on disk. -/
theorem meets_load_journal {β : Type} (h : Readable registry disk)
    {rest : Option PendingAccountSwitch → Durably Disk AccountError β}
    {post : Ending AccountError β → Disk → List Fault → Prop}
    (hrest : (rest disk.switch.target).Meets disk faults post) :
    (PendingAccountSwitch.load >>= rest).Meets disk faults post := by
  rw [Durably.meets_bind]
  unfold Durably.Meets
  rw [load_journal h]
  exact hrest

section Sequence

variable {β : Type} {P : Disk → Prop}

theorem meets_loadRegistry (h : registry.StandsIn disk.registry)
    {rest : Option AccountRegistry → Durably Disk AccountError β}
    (hdone : ∀ file, registry.StandsIn file → file.target = some registry →
      (rest (some registry)).Meets { disk with registry := file } (loadedFaults platform disk faults)
        fun _ next _ => P next)
    (hcut : ∀ file, registry.StandsIn file → loadedFaults platform disk faults = [] →
      P { disk with registry := file }) :
    (loadRegistry platform >>= rest).Meets disk faults fun _ next _ => P next := by
  have hload : (AccountRegistry.loadWithRecovery platform).Meets disk.registry faults
      fun ending left _ => registry.StandsIn left ∧
        ∀ found, ending = .done found → found = some registry ∧ left.target = some registry :=
    h.loadWithRecovery platform
  rw [Durably.meets_bind]
  unfold loadRegistry Disk.inRegistry
  rw [Durably.meets_zoom]
  unfold Durably.Meets at hload ⊢
  rcases hending : AccountRegistry.loadWithRecovery platform disk.registry faults with
    ⟨_ | _ | _, file, left⟩
  · rename_i found
    have hloaded : loadedFaults platform disk faults = left := by
      simp only [loadedFaults, loadRegistry, Disk.inRegistry, Durably.zoom, hending]
    rw [hending] at hload
    obtain ⟨rfl, htarget⟩ := hload.2 found rfl
    have hrest := hdone file hload.1 htarget
    rw [hloaded] at hrest
    exact hrest
  · rw [hending] at hload
    exact hcut file hload.1 (by simp only [loadedFaults, loadRegistry, Disk.inRegistry, Durably.zoom, hending])
  · rw [hending] at hload
    exact hcut file hload.1 (by simp only [loadedFaults, loadRegistry, Disk.inRegistry, Durably.zoom, hending])

theorem meets_requireRegistry (h : registry.StandsIn disk.registry) {text : String}
    {rest : AccountRegistry → Durably Disk AccountError β}
    (hdone : ∀ file, registry.StandsIn file → file.target = some registry →
      (rest registry).Meets { disk with registry := file } (loadedFaults platform disk faults)
        fun _ next _ => P next)
    (hcut : ∀ file, registry.StandsIn file → loadedFaults platform disk faults = [] →
      P { disk with registry := file }) :
    (requireRegistry platform text >>= rest).Meets disk faults fun _ next _ => P next := by
  unfold requireRegistry
  rw [Durably.bind_assoc]
  exact meets_loadRegistry h hdone hcut

theorem meets_saveRegistry {next : AccountRegistry} (h : registry.StandsIn disk.registry)
    {rest : Unit → Durably Disk AccountError β}
    (hdone : ∀ file left, next.StandsIn file →
      (rest ()).Meets { disk with registry := file } left fun _ next _ => P next)
    (hcut : ∀ file, registry.StandsIn file ∨ next.StandsIn file → P { disk with registry := file }) :
    (saveRegistry platform next >>= rest).Meets disk faults fun _ next _ => P next := by
  rw [Durably.meets_bind]
  unfold saveRegistry Disk.inRegistry
  rw [Durably.meets_zoom]
  apply (h.save platform).mono
  intro ending file left hfile
  cases ending with
  | done _ => exact hdone file left hfile.1
  | failed _ => exact hcut file hfile
  | crashed => exact hcut file hfile

theorem meets_saveJournal {journal : PendingAccountSwitch} (h : disk.switch.Named)
    {rest : Unit → Durably Disk AccountError β}
    (hdone : ∀ file left, file.Named → file.target = some journal →
      (rest ()).Meets { disk with switch := file } left fun _ next _ => P next)
    (hcut : ∀ file, file.Named → file.target = disk.switch.target ∨ file.target = some journal ∨
      file.target = none ∧ StateFile.tearsSwap platform faults = true → P { disk with switch := file }) :
    (journal.save platform >>= rest).Meets disk faults fun _ next _ => P next := by
  unfold PendingAccountSwitch.save Disk.inSwitch
  rw [Durably.bind_assoc]
  apply Durably.meets_ofExcept_bind
  · intro _ _
    rw [Durably.meets_bind, Durably.meets_zoom]
    apply (StateFile.writeJsonAtomic_meets platform journal faults h).mono
    intro ending file left hfile
    cases ending with
    | done _ => exact hdone file left hfile.1 hfile.2
    | failed _ => exact hcut file hfile.1 hfile.2.target
    | crashed => exact hcut file hfile.1 hfile.2.target
  · exact fun _ _ => hcut disk.switch h (.inl rfl)

theorem meets_statusFromJournal (h : registry.StandsIn disk.registry)
    (journal : Option PendingAccountSwitch)
    (hkept : ∀ file, registry.StandsIn file → P { disk with registry := file }) :
    (statusFromJournal platform journal).Meets disk faults fun _ next _ => P next := by
  unfold statusFromJournal
  apply meets_loadRegistry h _ fun file hfile _ => hkept file hfile
  intro file hfile _
  apply Durably.meets_get_bind
  cases journal with
  | none => exact hkept file hfile
  | some journal => exact hkept file hfile

end Sequence

/-! ### What each operation leaves -/

variable {op : SwitchOp} {next : Disk}

theorem leaves_kept (hnamed : next.switch.Named) (hstands : registry.StandsIn next.registry)
    (hjournal : next.switch.target = disk.switch.target) :
    Leaves platform disk registry faults op next := by
  refine ⟨hnamed, registry, hstands, ?_⟩
  rw [hjournal]
  exact .kept op registry rfl (List.Subset.refl _)

/-- The journal after it was written: the one that was to be written, the one before, or none. -/
theorem leaves_written {journal : PendingAccountSwitch} (hnamed : next.switch.Named)
    (hstands : registry.StandsIn next.registry) (hop : op ≠ .finish)
    (hwritten : SwitchEffect platform disk registry faults op (some journal) registry)
    (hjournal : next.switch.target = disk.switch.target ∨ next.switch.target = some journal ∨
      next.switch.target = none ∧
        StateFile.tearsSwap platform (journalFaults platform disk faults op) = true) :
    Leaves platform disk registry faults op next := by
  rcases hjournal with hold | hnew | ⟨hnone, htears⟩
  · exact leaves_kept hnamed hstands hold
  · exact ⟨hnamed, registry, hstands, hnew ▸ hwritten⟩
  · exact ⟨hnamed, registry, hstands, hnone ▸ .lost op hop htears⟩

theorem prepare_leaves (h : Readable registry disk) (now : String) (generation : Nat)
    (targetId : String) :
    (prepareAccountSwitch platform now generation targetId).Meets disk faults fun _ next _ =>
      Leaves platform disk registry faults (.prepare now generation targetId) next := by
  have hkept : ∀ file, registry.StandsIn file → Leaves platform disk registry faults
      (.prepare now generation targetId) { disk with registry := file } :=
    fun file hfile => leaves_kept h.named hfile rfl
  have hwrite : ∀ file, registry.StandsIn file → validateAccountId targetId = .ok () →
      registry.activeAccountId ≠ targetId → (∀ existing, disk.switch.target = some existing → existing.toAccountId = targetId ∧
        existing.phase ≠ .prepared ∧ existing.phase ≠ .restartRequired) →
      (writePrepared platform now generation registry.activeAccountId targetId).Meets
        { disk with registry := file } (loadedFaults platform disk faults) fun _ next _ =>
          Leaves platform disk registry faults (.prepare now generation targetId) next := by
    intro file hfile hid hother hjournal
    have hprepared : SwitchEffect platform disk registry faults (.prepare now generation targetId)
        (some ⟨switchStateVersion, .prepared, registry.activeAccountId, targetId, generation, now, now,
          none⟩) registry := .prepared now generation targetId hid hother hjournal
    unfold writePrepared
    apply Durably.meets_get_bind
    refine meets_saveJournal ?_ ?_ ?_
    · exact h.named
    · exact fun written _ hnamed hwritten =>
        leaves_written hnamed hfile (by simp) hprepared (.inr (.inl hwritten))
    · exact fun written hnamed hwritten => leaves_written hnamed hfile (by simp) hprepared hwritten
  unfold prepareAccountSwitch
  apply Durably.meets_ofExcept_bind _ fun _ _ => hkept disk.registry h.stands
  intro _ hid
  apply meets_requireRegistry h.stands _ fun file hfile _ => hkept file hfile
  intro file hfile _
  apply Durably.meets_ofExcept_bind _ fun _ _ => hkept file hfile
  intro _ hactive
  have hother : registry.activeAccountId ≠ targetId := refuseIf_eq_ok_iff.mp hactive
  rcases registry.account targetId with _ | target
  · exact hkept file hfile
  · apply Durably.meets_get_bind
    apply Durably.meets_ofExcept_bind _ fun _ _ => hkept file hfile
    intro _ _
    have hreadable : Readable registry { disk with registry := file } := ⟨hfile, h.named, h.valid⟩
    apply meets_load_journal hreadable
    rcases hjournal : disk.switch.target with _ | existing
    · exact hwrite file hfile hid hother fun existing hexisting => by
        rw [hjournal] at hexisting
        cases hexisting
    · apply Durably.meets_ofExcept_bind _ fun _ _ => hkept file hfile
      intro _ hsame
      by_cases hphase : existing.phase = .prepared ∨ existing.phase = .restartRequired
      · rw [if_pos hphase]
        exact meets_statusFromJournal hfile _ fun again hagain => hkept again hagain
      · rw [if_neg hphase]
        apply hwrite file hfile hid hother
        intro found hfound
        rw [hjournal] at hfound
        cases hfound
        exact ⟨not_not.mp (refuseIf_eq_ok_iff.mp hsame), not_or.mp hphase⟩

theorem request_leaves (h : Readable registry disk) (now targetId : String) (generation : Nat) :
    (requestAccountSwitch platform now targetId generation).Meets disk faults fun _ next _ =>
      Leaves platform disk registry faults (.request now targetId generation) next := by
  have hkept : Leaves platform disk registry faults (.request now targetId generation) disk :=
    leaves_kept h.named h.stands rfl
  unfold requestAccountSwitch
  apply meets_load_journal h
  rcases hjournal : disk.switch.target with _ | journal
  · exact hkept
  · apply Durably.meets_ofExcept_bind _ fun _ _ => hkept
    intro _ _
    cases hphase : journal.phase with
    | prepared =>
        have hrequested : SwitchEffect platform disk registry faults
            (.request now targetId generation) (some (journal.touch now .restartRequired)) registry :=
          .requested now targetId generation journal hjournal hphase
        refine meets_saveJournal ?_ ?_ ?_
        · exact h.named
        · intro written left hnamed hwritten
          have hstands : registry.StandsIn ({ disk with switch := written } : Disk).registry := h.stands
          apply meets_statusFromJournal hstands
          exact fun file hfile =>
            leaves_written hnamed hfile (by simp) hrequested (.inr (.inl hwritten))
        · exact fun written hnamed hwritten =>
            leaves_written hnamed h.stands (by simp) hrequested hwritten
    | restartRequired =>
        exact meets_statusFromJournal h.stands _ fun file hfile => leaves_kept h.named hfile rfl
    | verifyingTarget => exact hkept
    | failed => exact hkept

/-- Removing the journal, where the operation may. -/
theorem meets_remove (h : Readable registry disk) {journal : PendingAccountSwitch}
    (hjournal : disk.switch.target = some journal)
    (hremoved : SwitchEffect platform disk registry faults op none registry) {left : List Fault} :
    PendingAccountSwitch.remove.Meets disk left fun _ next _ =>
      Leaves platform disk registry faults op next := by
  have hkept : Leaves platform disk registry faults op disk := leaves_kept h.named h.stands rfl
  unfold PendingAccountSwitch.remove
  apply Durably.meets_get_bind
  simp only [hjournal]
  unfold Disk.inSwitch
  rw [Durably.meets_zoom]
  apply Durably.meets_step
  · exact fun _ _ => ⟨h.named, registry, h.stands, hremoved⟩
  · exact fun _ _ => hkept
  · exact fun _ _ => hkept

theorem abort_leaves (h : Readable registry disk) :
    abortPreparedSwitch.Meets disk faults fun _ next _ =>
      Leaves platform disk registry faults .abort next := by
  have hkept : Leaves platform disk registry faults .abort disk := leaves_kept h.named h.stands rfl
  unfold abortPreparedSwitch
  apply meets_load_journal h
  rcases hjournal : disk.switch.target with _ | journal
  · exact hkept
  · by_cases hphase : journal.phase = .prepared
    · simp only [if_pos hphase]
      apply Durably.Meets.bind
      · exact meets_remove h hjournal (.dropped _ journal (.inl rfl) hjournal hphase)
      · exact fun _ _ _ hnext => hnext
    · simp only [if_neg hphase]
      exact hkept

/-- Reading the registry without recovery. It has to be in place. -/
theorem meets_readRegistry {β : Type} {P : Disk → Prop} (h : registry.StandsIn disk.registry)
    {rest : AccountRegistry → Durably Disk AccountError β}
    (hdone : disk.registry.target = some registry →
      (rest registry).Meets disk faults fun _ next _ => P next)
    (hmissing : disk.registry.target = none → P disk) :
    (Disk.inRegistry AccountRegistry.load >>= rest).Meets disk faults fun _ next _ => P next := by
  unfold Disk.inRegistry AccountRegistry.load
  rw [Durably.meets_bind, Durably.meets_zoom]
  apply Durably.meets_get_bind
  rcases htarget : disk.registry.target with _ | found
  · exact hmissing htarget
  · obtain rfl := h.eq_of_target htarget
    rw [Durably.meets_ofExcept, AccountRegistry.readRegistryFile_of_valid h.valid]
    exact hdone htarget

theorem finish_leaves (h : Readable registry disk) :
    finishPendingSwitch.Meets disk faults fun _ next _ =>
      Leaves platform disk registry faults .finish next := by
  have hkept : Leaves platform disk registry faults .finish disk := leaves_kept h.named h.stands rfl
  unfold finishPendingSwitch
  apply meets_load_journal h
  rcases hjournal : disk.switch.target with _ | journal
  · exact hkept
  · apply Durably.meets_ofExcept_bind _ fun _ _ => hkept
    intro _ hphase
    apply meets_readRegistry h.stands _ fun _ => hkept
    intro _
    apply Durably.meets_ofExcept_bind _ fun _ _ => hkept
    intro _ hactive
    exact meets_remove h hjournal (.finished journal hjournal
      (not_not.mp (refuseIf_eq_ok_iff.mp hphase)) (not_not.mp (refuseIf_eq_ok_iff.mp hactive)))

/-- Putting the source back, where what is left either way is allowed. -/
theorem meets_restoreSource {β : Type} {P : Disk → Prop} (h : registry.StandsIn disk.registry)
    (journal : PendingAccountSwitch) {value : β}
    (hkept : ∀ file, registry.StandsIn file → P { disk with registry := file })
    (hrestored : ∀ file,
      AccountRegistry.StandsIn { registry with activeAccountId := journal.fromAccountId } file →
      registry.activeAccountId = journal.toAccountId → P { disk with registry := file }) :
    (restoreSource platform journal registry >>= fun _ => pure value).Meets disk faults
      fun _ next _ => P next := by
  unfold restoreSource
  by_cases hactive : registry.activeAccountId = journal.toAccountId
  · rw [if_pos hactive]
    apply meets_saveRegistry h
    · exact fun file left hfile => hrestored file hfile hactive
    · exact fun file hfile => hfile.elim (hkept file) fun hnew => hrestored file hnew hactive
  · rw [if_neg hactive]
    exact hkept disk.registry h

theorem rollback_leaves (h : Readable registry disk) (now errorCode : String) :
    (rollbackPendingSwitch platform now errorCode).Meets disk faults fun _ next _ =>
      Leaves platform disk registry faults (.rollback now errorCode) next := by
  have hkept : Leaves platform disk registry faults (.rollback now errorCode) disk :=
    leaves_kept h.named h.stands rfl
  unfold rollbackPendingSwitch
  apply meets_load_journal h
  rcases hjournal : disk.switch.target with _ | journal
  · exact hkept
  · apply meets_readRegistry h.stands _ fun _ => hkept
    intro _
    have hrejected : ∀ next, next = registry ∨
        next = { registry with activeAccountId := journal.fromAccountId } →
        SwitchEffect platform disk registry faults (.rollback now errorCode)
          (some (journal.failedWith now errorCode)) next :=
      fun next hnext => .rejected now errorCode _ journal next (.inr rfl) hjournal hnext
    refine meets_saveJournal ?_ ?_ ?_
    · exact h.named
    · intro written left hnamed hwritten
      have hstands : registry.StandsIn ({ disk with switch := written } : Disk).registry := h.stands
      apply meets_restoreSource hstands
      · exact fun file hfile =>
          leaves_written hnamed hfile (by simp) (hrejected registry (.inl rfl)) (.inr (.inl hwritten))
      · exact fun file hfile _ => ⟨hnamed, _, hfile, hwritten ▸ hrejected _ (.inr rfl)⟩
    · exact fun written hnamed hwritten =>
        leaves_written hnamed h.stands (by simp) (hrejected registry (.inl rfl)) hwritten

theorem targetRecord_eq (h : registry.StandsIn disk.registry) (journal : PendingAccountSwitch) :
    targetRecord disk journal = registry.account journal.toAccountId := by
  rw [targetRecord, h.current]
  rfl

theorem recoverRequested_leaves (h : Readable registry disk) (now : String)
    {journal : PendingAccountSwitch} (hjournal : disk.switch.target = some journal)
    (hrequested : journal.Requested) :
    (recoverRequested platform now journal).Meets disk faults fun _ next _ =>
      Leaves platform disk registry faults (.recover now) next := by
  have hkept : ∀ file, registry.StandsIn file →
      Leaves platform disk registry faults (.recover now) { disk with registry := file } :=
    fun file hfile => leaves_kept h.named hfile rfl
  unfold recoverRequested
  apply meets_requireRegistry h.stands _ fun file hfile _ => hkept file hfile
  intro file hfile _
  apply Durably.meets_ofExcept_bind _ fun _ _ => hkept file hfile
  intro _ _
  have hrecord := targetRecord_eq h.stands journal
  rcases htarget : registry.account journal.toAccountId with _ | target
  · exact hkept file hfile
  · apply Durably.meets_get_bind
    have hverify : verifyTargetIdentity { disk with registry := file } target =
        verifyTargetIdentity disk target := rfl
    rcases hcheck : verifyTargetIdentity disk target with error | _
    · have hrejected : ∀ next, next = registry ∨
          next = { registry with activeAccountId := journal.fromAccountId } →
          SwitchEffect platform disk registry faults (.recover now)
            (some (journal.failedWith now "TARGET_INVALID")) next :=
        fun next hnext => .rejected now _ _ journal next (.inl rfl) hjournal hnext
      simp only [hverify, hcheck]
      unfold rejectTarget
      refine meets_saveJournal ?_ ?_ ?_
      · exact h.named
      · intro written left hnamed hwritten
        have hstands : registry.StandsIn
            ({ disk with registry := file, switch := written } : Disk).registry := hfile
        apply meets_restoreSource hstands
        · exact fun file hfile =>
            leaves_written hnamed hfile (by simp) (hrejected registry (.inl rfl)) (.inr (.inl hwritten))
        · exact fun file hfile _ => ⟨hnamed, _, hfile, hwritten ▸ hrejected _ (.inr rfl)⟩
      · exact fun written hnamed hwritten =>
          leaves_written hnamed hfile (by simp) (hrejected registry (.inl rfl)) hwritten
    · have hpasses : targetPasses disk journal = true := by
        simp [targetPasses, hrecord, htarget, hcheck, Except.toBool]
      have hpassed : ∀ next, next = registry ∨
          next = { registry with activeAccountId := journal.toAccountId } →
          SwitchEffect platform disk registry faults (.recover now)
            (some (journal.touch now .verifyingTarget)) next :=
        fun next hnext => .passed now journal next hjournal hrequested hpasses hnext
      simp only [hverify, hcheck]
      unfold commitTarget
      refine meets_saveJournal ?_ ?_ ?_
      · exact h.named
      · intro written left hnamed hwritten
        have hstands : registry.StandsIn
            ({ disk with registry := file, switch := written } : Disk).registry := hfile
        have hstay : ∀ file, registry.StandsIn file → Leaves platform disk registry faults
            (.recover now) { disk with registry := file, switch := written } := fun file hfile =>
          leaves_written hnamed hfile (by simp) (hpassed registry (.inl rfl)) (.inr (.inl hwritten))
        have hmoved : ∀ file, AccountRegistry.StandsIn
            { registry with activeAccountId := journal.toAccountId } file →
            Leaves platform disk registry faults (.recover now)
              { disk with registry := file, switch := written } :=
          fun file hfile => ⟨hnamed, _, hfile, hwritten ▸ hpassed _ (.inr rfl)⟩
        by_cases hactive : registry.activeAccountId ≠ journal.toAccountId
        · rw [if_pos hactive]
          apply meets_saveRegistry hstands
          · exact fun file _ hfile => hmoved file hfile
          · exact fun file hfile => hfile.elim (hstay file) (hmoved file)
        · rw [if_neg hactive]
          exact hstay file hfile
      · exact fun written hnamed hwritten =>
          leaves_written hnamed hfile (by simp) (hpassed registry (.inl rfl)) hwritten

theorem repairFailed_leaves (h : Readable registry disk) (now : String)
    {journal : PendingAccountSwitch} (hjournal : disk.switch.target = some journal)
    (hphase : journal.phase = .failed) :
    (repairFailed platform journal).Meets disk faults fun _ next _ =>
      Leaves platform disk registry faults (.recover now) next := by
  have hkept : ∀ file, registry.StandsIn file →
      Leaves platform disk registry faults (.recover now) { disk with registry := file } :=
    fun file hfile => leaves_kept h.named hfile rfl
  unfold repairFailed
  apply meets_loadRegistry h.stands _ fun file hfile _ => hkept file hfile
  intro file hfile _
  apply Durably.meets_ofExcept_bind _ fun _ _ => hkept file hfile
  intro _ _
  have hstands : registry.StandsIn ({ disk with registry := file } : Disk).registry := hfile
  apply meets_restoreSource hstands
  · exact fun file hfile => hkept file hfile
  · intro file hfile _
    exact ⟨h.named, _, hfile, hjournal ▸ .repaired now journal hjournal hphase⟩

theorem recover_leaves (h : Readable registry disk) (now : String) :
    (recoverPendingSwitch platform now).Meets disk faults fun _ next _ =>
      Leaves platform disk registry faults (.recover now) next := by
  have hkept : Leaves platform disk registry faults (.recover now) disk :=
    leaves_kept h.named h.stands rfl
  unfold recoverPendingSwitch
  apply meets_load_journal h
  rcases hjournal : disk.switch.target with _ | journal
  · exact hkept
  · cases hphase : journal.phase with
    | failed =>
        simp only [hphase]
        exact repairFailed_leaves h now hjournal hphase
    | prepared =>
        simp only [hphase]
        apply Durably.Meets.bind
        · exact meets_remove h hjournal (.dropped _ journal (.inr rfl) hjournal hphase)
        · exact fun _ _ _ hnext => hnext
    | restartRequired =>
        simp only [hphase]
        exact recoverRequested_leaves h now hjournal (.inl hphase)
    | verifyingTarget =>
        simp only [hphase]
        exact recoverRequested_leaves h now hjournal (.inr hphase)

/-- A registry with the same active account and no account less may be saved by any operation. -/
theorem meets_saveAccounts {β : Type} {next : AccountRegistry} {reached : Disk} {left : List Fault}
    (h : Readable registry disk) (hswitch : reached.switch = disk.switch)
    (hstands : registry.StandsIn reached.registry)
    (hactive : next.activeAccountId = registry.activeAccountId) (hids : registry.ids ⊆ next.ids)
    {rest : Unit → Durably Disk AccountError β}
    (hrest : ∀ disk left, ∃ ending, (rest ()) disk left = (ending, disk, left)) :
    (saveRegistry platform next >>= rest).Meets reached left fun _ after _ =>
      Leaves platform disk registry faults op after := by
  have hkept : ∀ saved file, (saved = registry ∨ saved = next) → AccountRegistry.StandsIn saved file →
      Leaves platform disk registry faults op { reached with registry := file } := by
    intro saved file hsaved hfile
    refine ⟨hswitch ▸ h.named, saved, hfile, ?_⟩
    rw [hswitch]
    rcases hsaved with rfl | rfl
    · exact .kept op saved rfl (List.Subset.refl _)
    · exact .kept op saved hactive hids
  apply meets_saveRegistry hstands
  · intro file left hfile
    obtain ⟨ending, hending⟩ := hrest { reached with registry := file } left
    unfold Durably.Meets
    rw [hending]
    exact hkept next file (.inr rfl) hfile
  · exact fun file hfile => hfile.elim (hkept registry file (.inl rfl)) (hkept next file (.inr rfl))

theorem createCloud_leaves (h : Readable registry disk) (now id fingerprint email apiUrl : String) :
    (createPendingCloudAccount platform now id fingerprint email apiUrl).Meets disk faults
      fun _ next _ => Leaves platform disk registry faults
        (.createCloud now id fingerprint email apiUrl) next := by
  have hkept : ∀ next : Disk, next.switch = disk.switch → registry.StandsIn next.registry →
      Leaves platform disk registry faults (.createCloud now id fingerprint email apiUrl) next :=
    fun next hswitch hstands => leaves_kept (hswitch ▸ h.named) hstands (by rw [hswitch])
  have hdisk := hkept disk rfl h.stands
  have hfiles := fun file hfile => hkept { disk with registry := file } rfl hfile
  unfold createPendingCloudAccount
  apply Durably.meets_ofExcept_bind _ fun _ _ => hdisk
  intro _ _
  apply meets_load_journal h
  apply Durably.meets_ofExcept_bind _ fun _ _ => hdisk
  intro _ _
  apply Durably.meets_ofExcept_bind _ fun _ _ => hdisk
  intro apiUrl _
  apply meets_requireRegistry h.stands _ fun file hfile _ => hfiles file hfile
  intro file hfile _
  rcases registry.findCloudByIdentity (normalizeEmail email) apiUrl with _ | existing
  · apply Durably.meets_ofExcept_bind _ fun _ _ => hfiles file hfile
    intro _ _
    apply Durably.meets_ofExcept_bind _ fun _ _ => hfiles file hfile
    intro record _
    apply Durably.meets_ofExcept_bind _ fun _ _ => hfiles file hfile
    intro _ _
    have hcreate : (ensurePendingDatabase id fingerprint).Meets { disk with registry := file }
        (loadedFaults platform disk faults) fun _ next _ =>
          next.switch = disk.switch ∧ registry.StandsIn next.registry := by
      unfold ensurePendingDatabase
      apply Durably.meets_get_bind
      rcases disk.databases.lookup id with _ | _ | database
      · exact Durably.meets_step (fun _ _ => ⟨rfl, hfile⟩) (fun _ _ => ⟨rfl, hfile⟩) fun _ _ =>
          ⟨rfl, hfile⟩
      · exact ⟨rfl, hfile⟩
      · rw [Durably.meets_ofExcept]
        split <;> exact ⟨rfl, hfile⟩
    rw [Durably.meets_bind]
    apply hcreate.mono
    rintro ending reached left ⟨hswitch, hstands⟩
    cases ending with
    | failed _ => exact hkept reached hswitch hstands
    | crashed => exact hkept reached hswitch hstands
    | done _ =>
        apply Durably.meets_ofExcept_bind _ fun _ _ => hkept reached hswitch hstands
        intro next hnext
        obtain ⟨hactive, hids⟩ := AccountRegistry.upsert_keeps hnext
        apply meets_saveAccounts h hswitch hstands hactive hids
        intro final left
        rcases next.account id with _ | added
        · exact ⟨_, rfl⟩
        · exact ⟨_, rfl⟩
  · exact hfiles file hfile

theorem markVerified_leaves (h : Readable registry disk) (now : String) :
    (markAccountVerified platform now).Meets disk faults fun _ next _ =>
      Leaves platform disk registry faults (.markVerified now) next := by
  have hkept : Leaves platform disk registry faults (.markVerified now) disk :=
    leaves_kept h.named h.stands rfl
  unfold markAccountVerified
  apply meets_readRegistry h.stands _ fun _ => hkept
  intro _
  dsimp only
  rcases registry.account registry.activeAccountId with _ | active
  · exact hkept
  · by_cases hpending : ¬ active.pending
    · simp only [if_pos hpending]
      exact hkept
    · simp only [if_neg hpending]
      apply Durably.meets_ofExcept_bind _ fun _ _ => hkept
      intro _ _
      rcases active.email with _ | email
      · exact hkept
      · rcases active.apiUrl with _ | apiUrl
        · exact hkept
        · apply Durably.meets_get_bind
          apply Durably.meets_ofExcept_bind _ fun _ _ => hkept
          intro _ _
          have hids : (registry.modify registry.activeAccountId fun record =>
              { record with pending := false }.touch now).ids = registry.ids :=
            AccountRegistry.ids_modify fun _ hid => hid
          apply meets_saveAccounts h rfl h.stands
          · rfl
          · exact hids.symm ▸ List.Subset.refl _
          · intro final left
            generalize AccountRegistry.account (AccountRegistry.modify _ _ _) _ = found
            cases found with
            | none => exact ⟨_, rfl⟩
            | some record => exact ⟨_, rfl⟩

theorem status_leaves (h : Readable registry disk) :
    (switchStatus platform).Meets disk faults fun _ next _ =>
      Leaves platform disk registry faults .status next := by
  unfold switchStatus
  apply meets_load_journal h
  exact meets_statusFromJournal h.stands _ fun file hfile => leaves_kept h.named hfile rfl

/-- The one inversion lemma: every operation, under whatever faults, leaves a registry that stands and one of the effects. -/
theorem program_leaves (h : Readable registry disk) (op : SwitchOp) :
    (op.program platform).Meets disk faults fun _ next _ =>
      Leaves platform disk registry faults op next := by
  have hvoid : ∀ {α : Type} {op : SwitchOp} {program : Durably Disk AccountError α},
      program.Meets disk faults (fun _ next _ => Leaves platform disk registry faults op next) →
      program.void.Meets disk faults fun _ next _ => Leaves platform disk registry faults op next :=
    fun h => Durably.Meets.void h
  unfold SwitchOp.program
  cases op with
  | prepare now generation targetId => exact hvoid (prepare_leaves h now generation targetId)
  | request now targetId generation => exact hvoid (request_leaves h now targetId generation)
  | abort => exact hvoid (abort_leaves h)
  | finish => exact finish_leaves h
  | recover now => exact hvoid (recover_leaves h now)
  | rollback now errorCode => exact hvoid (rollback_leaves h now errorCode)
  | status => exact hvoid (status_leaves h)
  | createCloud now id fingerprint email apiUrl =>
      exact hvoid (createCloud_leaves h now id fingerprint email apiUrl)
  | markVerified now => exact hvoid (markVerified_leaves h now)

end Parts

end Accounts

end ShishiTodo
