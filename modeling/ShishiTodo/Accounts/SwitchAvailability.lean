import ShishiTodo.Accounts.SwitchSafety

/-!
# What a failed switch leaves behind

Nothing removes the journal of a switch that failed: it stands in the way of every switch but one to the same account.
-/

namespace ShishiTodo

namespace Accounts

open Lib

section Availability

variable {platform : Platform} {registry : AccountRegistry} {disk : Disk} {faults : List Fault}

/-! ### Preparing another switch -/

theorem inRegistry_keeps {α : Type} (program : Durably (StateFile AccountRegistry) AccountError α)
    (switch : StateFile PendingAccountSwitch) :
    (Disk.inRegistry program).Keeps fun disk => disk.switch = switch :=
  fun _ _ h => h

theorem requireRegistry_keeps (text : String) (switch : StateFile PendingAccountSwitch) :
    (requireRegistry platform text).Keeps fun disk => disk.switch = switch := by
  apply (inRegistry_keeps _ switch).bind
  intro found
  cases found with
  | none => exact Durably.keeps_throw _
  | some registry => exact Durably.keeps_pure _

/-- A journal to another account stands in the way of a preparation. -/
theorem prepare_blocked {journal : PendingAccountSwitch}
    (hjournal : disk.switch.target = some journal) {targetId : String}
    (hother : journal.toAccountId ≠ targetId) (now : String) (generation : Nat) :
    (prepareAccountSwitch platform now generation targetId).Ends disk faults fun _ _ _ => False := by
  unfold prepareAccountSwitch
  refine Durably.ends_ofExcept_bind fun _ _ => ?_
  refine ((requireRegistry_keeps _ disk.switch).ends rfl).bind ?_
  intro registry next left hnext
  refine Durably.ends_ofExcept_bind fun _ _ => ?_
  rcases registry.account targetId with _ | target
  · exact Durably.ends_throw
  · refine Durably.meets_get_bind ?_
    refine Durably.ends_ofExcept_bind fun _ _ => ?_
    unfold PendingAccountSwitch.load
    rw [Durably.bind_assoc]
    refine Durably.meets_get_bind ?_
    simp only [hnext, hjournal]
    rw [Durably.bind_assoc]
    refine Durably.ends_ofExcept_bind fun _ _ => ?_
    refine Durably.ends_ofExcept_bind fun _ hsame => ?_
    exact absurd hother (refuseIf_eq_ok_iff.mp hsame)

theorem prepare_not_succeeds {journal : PendingAccountSwitch}
    (hjournal : disk.switch.target = some journal) {targetId : String}
    (hother : journal.toAccountId ≠ targetId) {now : String} {generation : Nat}
    {post : SwitchStatus → Disk → Prop} :
    ¬ (prepareAccountSwitch platform now generation targetId).Succeeds disk post := by
  rintro ⟨status, next, hdone, -⟩
  have hblocked : (prepareAccountSwitch platform now generation targetId).Ends disk [] fun _ _ _ =>
      False := prepare_blocked hjournal hother now generation
  exact hblocked status (by rw [hdone])

/-- The journal says that a switch to the account can be requested. -/
def Prepared (targetId : String) (disk : Disk) : Prop :=
  ∃ journal, disk.switch.target = some journal ∧ journal.toAccountId = targetId ∧
    (journal.phase = .prepared ∨ journal.phase = .restartRequired)

theorem writePrepared_succeeds {targetId : String} (h : registry.Valid)
    (hid : validateAccountId targetId = .ok ()) (hother : registry.activeAccountId ≠ targetId)
    (now : String) (generation : Nat) :
    (writePrepared platform now generation registry.activeAccountId targetId).Succeeds disk
      fun _ next => Prepared targetId next := by
  unfold writePrepared
  apply Durably.succeeds_get_bind
  have hsaved : (PendingAccountSwitch.save platform ⟨switchStateVersion, .prepared,
      registry.activeAccountId, targetId, generation, now, now, none⟩).Succeeds disk
        fun _ next => Prepared targetId next := by
    unfold PendingAccountSwitch.save Disk.inSwitch
    apply Durably.succeeds_ofExcept_bind (validate_prepared h hid hother generation now)
    apply Durably.Succeeds.zoom
    exact (StateFile.writeJsonAtomic_succeeds platform _ disk.switch).mono
      fun _ file hfile => ⟨_, hfile, rfl, .inl rfl⟩
  exact hsaved.bind fun _ _ hnext => Durably.succeeds_pure hnext

theorem prepare_succeeds (h : Readable registry disk) {target : AccountRecord}
    (htarget : registry.account target.id = some target)
    (hother : registry.activeAccountId ≠ target.id) (hvalid : verifyTargetIdentity disk target = .ok ())
    (hfree : ∀ journal, disk.switch.target = some journal → journal.toAccountId = target.id)
    (now : String) (generation : Nat) :
    (prepareAccountSwitch platform now generation target.id).Succeeds disk
      fun _ next => Prepared target.id next := by
  have hid : validateAccountId target.id = .ok () := by
    apply h.stands.valid.validateAccountId
    rw [← AccountRegistry.isSome_account_iff, htarget]
    rfl
  unfold prepareAccountSwitch
  apply Durably.succeeds_ofExcept_bind hid
  have hloaded : (requireRegistry platform "accounts.json is missing").Succeeds disk
      fun found next => found = registry ∧ registry.StandsIn next.registry ∧
        next.switch = disk.switch ∧ next.databases = disk.databases := by
    unfold requireRegistry
    apply (loadRegistry_succeeds h.stands).bind
    rintro _ next ⟨rfl, hnext⟩
    exact Durably.succeeds_pure ⟨rfl, hnext⟩
  apply hloaded.bind
  rintro found next ⟨hfound, hstands, hswitch, hdatabases⟩
  rw [hfound]
  apply Durably.succeeds_ofExcept_bind (refuseIf_eq_ok_iff.mpr hother : _ = Except.ok ())
  simp only [htarget]
  apply Durably.succeeds_get_bind
  have hverified : verifyTargetIdentity next target = .ok () := by
    rw [← hvalid, verifyTargetIdentity, verifyTargetIdentity, hdatabases]
  apply Durably.succeeds_ofExcept_bind hverified
  have hnext : Readable registry next := ⟨hstands, hswitch ▸ h.named, hswitch ▸ h.valid⟩
  apply succeeds_load_journal hnext
  rw [hswitch]
  rcases hjournal : disk.switch.target with _ | existing
  · exact writePrepared_succeeds h.stands.valid hid hother now generation
  · have hsame := hfree existing hjournal
    apply Durably.succeeds_ofExcept_bind (refuseIf_eq_ok_iff.mpr (not_not.mpr hsame) : _ = Except.ok ())
    by_cases hphase : existing.phase = .prepared ∨ existing.phase = .restartRequired
    · rw [if_pos hphase]
      unfold statusFromJournal
      apply (loadRegistry_succeeds hstands).bind
      rintro found last ⟨-, -, hlast, -⟩
      apply Durably.succeeds_get_bind
      exact Durably.succeeds_pure ⟨existing, by rw [hlast, hswitch, hjournal], hsame, hphase⟩
    · rw [if_neg hphase]
      exact writePrepared_succeeds h.stands.valid hid hother now generation

end Availability

/-! ### Every run -/

theorem run_inv (platform : Platform) {registry : AccountRegistry} {disk : Disk}
    (hdisk : Readable registry disk) (hnone : disk.switch.target = none) (events : List SwitchEvent) :
    ∃ registry, SwitchInv registry ((switchRuns platform).run ⟨disk, false, none⟩ events) := by
  apply (switchRuns platform).invariant fun world _ => ∃ registry, SwitchInv registry world
  · rintro world _ event ⟨_, h⟩
    exact step_inv h event
  · exact ⟨registry, hdisk, fun journal hjournal => by rw [hnone] at hjournal; cases hjournal⟩

/-- In every state with no switch in progress, a switch to a registered account in order other than the active one can be prepared exactly when no failed switch to another account has left its journal. -/
theorem switch_available_iff (platform : Platform) {registry : AccountRegistry} {disk : Disk}
    (hdisk : Readable registry disk) (hnone : disk.switch.target = none) (events : List SwitchEvent)
    {after : Disk} (hafter : ((switchRuns platform).run ⟨disk, false, none⟩ events).disk = after)
    (hidle : ∀ journal, after.switch.target = some journal → journal.phase = .failed)
    {target : AccountRecord}
    (hregistered : (after.registry.current.bind fun registry => registry.account target.id) = some target)
    (hother : activeAccount after ≠ some target.id) (hvalid : verifyTargetIdentity after target = .ok ())
    (now : String) (generation : Nat) :
    (prepareAccountSwitch platform now generation target.id).Succeeds after
        (fun _ next => Prepared target.id next) ↔
      ¬ ∃ journal, after.switch.target = some journal ∧ journal.toAccountId ≠ target.id := by
  obtain ⟨registry, h⟩ := run_inv platform hdisk hnone events
  subst hafter
  constructor
  · rintro hsucceeds ⟨journal, hjournal, hblocks⟩
    exact prepare_not_succeeds hjournal hblocks hsucceeds
  · intro hfree
    rw [h.readable.stands.current, Option.bind_some] at hregistered
    rw [activeAccount_eq h.readable.stands] at hother
    apply prepare_succeeds h.readable hregistered (fun heq => hother (congrArg some heq)) hvalid
    intro journal hjournal
    by_contra hblocks
    exact hfree ⟨journal, hjournal, hblocks⟩

/-! A third account, and a switch to the second that fails. -/

def clubId : String := "0198a9d2-0000-7000-8000-000000000002"

def clubRecord : AccountRecord :=
  ⟨clubId, .cloud, some "anna@club.example", some "https://todo.example", false, "t0", 1, "t0"⟩

def clubDatabase : Database :=
  ⟨⟨[], some "phone", some "anna@club.example", some "https://todo.example", "c"⟩, none, [], 0⟩

def threeAccounts : AccountRegistry :=
  ⟨1, defaultAccountId, [AccountRecord.anonymousAt "t0", workRecord, clubRecord]⟩

def threeAccountDisk : Disk :=
  { twoAccountDisk with
    registry := .settled threeAccounts
    databases := AList.insert clubId (some clubDatabase) twoDatabases }

theorem threeAccountDisk_readable : Readable threeAccounts threeAccountDisk where
  stands :=
    { named := fun _ _ h => by cases h
      holds := by
        refine ⟨fun registry h => ?_, fun registry h => ?_⟩
        · cases h
          exact (show threeAccounts.validate = .ok () by decide +kernel)
        · cases h
      current := rfl }
  named := fun _ _ h => by cases h
  valid := fun journal h => by cases h

/-- A switch that was carried out and finished leaves the way free for the next. -/
theorem club_available_after_work :
    (prepareAccountSwitch .unix "t5" 8 clubRecord.id).Succeeds
      ((switchRuns .unix).run ⟨threeAccountDisk, false, none⟩ (switchToWork ++ [.call .finish []])).disk
      fun _ next => Prepared clubRecord.id next := by
  have hstate : ((switchRuns .unix).run ⟨threeAccountDisk, false, none⟩
        (switchToWork ++ [.call .finish []])).disk.switch.target = none ∧
      (((switchRuns .unix).run ⟨threeAccountDisk, false, none⟩
        (switchToWork ++ [.call .finish []])).disk.registry.current.bind fun registry =>
          registry.account clubRecord.id) = some clubRecord ∧
      activeAccount ((switchRuns .unix).run ⟨threeAccountDisk, false, none⟩
        (switchToWork ++ [.call .finish []])).disk ≠ some clubRecord.id ∧
      verifyTargetIdentity ((switchRuns .unix).run ⟨threeAccountDisk, false, none⟩
        (switchToWork ++ [.call .finish []])).disk clubRecord = .ok () := by
    decide +kernel
  obtain ⟨hnone, hregistered, hother, hvalid⟩ := hstate
  apply (switch_available_iff .unix threeAccountDisk_readable rfl _ rfl _ hregistered hother hvalid
    "t5" 8).mpr
  · rintro ⟨journal, hjournal, -⟩
    rw [hnone] at hjournal
    cases hjournal
  · intro journal hjournal
    rw [hnone] at hjournal
    cases hjournal

/-- The database of the target is gone when the start comes to the requested switch. -/
def failedSwitch : List SwitchEvent :=
  [.call (.prepare "t1" 7 workId) [], .call (.request "t2" workId 7) [],
    .databases (AList.erase workId threeAccountDisk.databases), .crash, .call (.recover "t3") []]

/-- After the failed switch, and then an operation. -/
def afterFailure (op : SwitchOp) : SwitchWorld :=
  (switchRuns .unix).run ⟨threeAccountDisk, false, none⟩ (failedSwitch ++ [.call op []])

/-- The switch has failed and been undone, the third account is in order, and a switch to it is refused. -/
def ClubBlocked (disk : Disk) : Prop :=
  disk.switch.target.map PendingAccountSwitch.phase = some .failed ∧
    (disk.registry.current.bind fun registry => registry.account clubId) = some clubRecord ∧
    activeAccount disk = some defaultAccountId ∧
    verifyTargetIdentity disk clubRecord = .ok () ∧
    (prepareAccountSwitch .unix "t5" 9 clubId disk []).1 =
      .failed (.invalidRegistry "another account switch is already pending")

instance (disk : Disk) : Decidable (ClubBlocked disk) := inferInstanceAs (Decidable (_ ∧ _ ∧ _ ∧ _ ∧ _))

/-- The journal of the failed switch stays, whatever is tried next. -/
theorem failed_switch_blocks_club :
    ClubBlocked (afterFailure .status).disk ∧ ClubBlocked (afterFailure (.recover "t4")).disk ∧
      ClubBlocked (afterFailure .abort).disk ∧ ClubBlocked (afterFailure .finish).disk ∧
      ClubBlocked (afterFailure (.prepare "t4" 8 workId)).disk ∧
      ClubBlocked (afterFailure (.request "t4" workId 7)).disk := by
  decide +kernel

end Accounts

end ShishiTodo
