import ShishiTodo.Lib.Durably
import ShishiTodo.Lib.Table

/-!
# State files

How the native client keeps a small JSON state on disk (`paths.rs`): a temporary file in the same directory, written and synced, then moved over the target. On Unix the move is one rename. On Windows `ReplaceFileW` is tried first; where the file system or a virus scanner rejects it, the old file is moved aside and the new one moved in, with a sidecar journal that names both for a restart that falls between the two renames.
-/

namespace ShishiTodo

namespace Accounts

open Lib

inductive AccountError where
  | io (operation : String)
  | json
  | sqlite
  | invalidRegistry (text : String)
  | invalidAccountId (id : String)
  | unsafePath (text : String)
  | activeAccountMissing (id : String)
  | needsReview (reason : String)
  | integrity
  | migrationFailed (error : AccountError)
  | verificationMismatch (text : String)
  deriving DecidableEq, Repr

inductive Platform where
  | unix
  | windows
  deriving DecidableEq, Repr

/-- A state file with the files that lie beside it. -/
structure StateFile (α : Type) where
  target : Option α
  /-- Temporary files and backups moved aside; `none` where the writing did not get to its end. -/
  pieces : Table Nat (Option α)
  /-- The sidecar journal of a replacement, the new file and the backup it names; `none` inside where the writing did not get to its end. -/
  journal : Option (Option (Nat × Nat))
  /-- Names from here on are new, as those from `Uuid::now_v7` are. -/
  names : Nat

namespace StateFile

variable {α : Type}

def empty : StateFile α := ⟨none, ∅, none, 0⟩

/-- The file as it is after a write with nothing left behind. -/
def settled (value : α) : StateFile α := ⟨some value, ∅, none, 0⟩

def create (file : StateFile α) : StateFile α :=
  { file with pieces := file.pieces.insert file.names none, names := file.names + 1 }

def fill (name : Nat) (value : α) (file : StateFile α) : StateFile α :=
  { file with pieces := file.pieces.insert name (some value) }

def discard (name : Nat) (file : StateFile α) : StateFile α :=
  { file with pieces := file.pieces.erase name }

/-- The rename of a piece onto the target. -/
def publish (name : Nat) (value : α) (file : StateFile α) : StateFile α :=
  { file with target := some value, pieces := file.pieces.erase name }

def openJournal (file : StateFile α) : StateFile α :=
  { file with journal := some none, names := file.names + 1 }

def fillJournal (source backup : Nat) (file : StateFile α) : StateFile α :=
  { file with journal := some (some (source, backup)) }

def removeJournal (file : StateFile α) : StateFile α := { file with journal := none }

/-- The rename of the target to a backup. -/
def moveAside (backup : Nat) (value : α) (file : StateFile α) : StateFile α :=
  { file with target := none, pieces := file.pieces.insert backup (some value) }

def remove (file : StateFile α) : StateFile α := { file with target := none }

/-! ### Writing -/

/-- `write_replace_journal`. -/
def writeReplaceJournal (source backup : Nat) : Durably (StateFile α) AccountError Unit := do
  .step openJournal (.io "write journal")
  .step (fillJournal source backup) (.io "write journal")
  .step id (.io "sync journal")

/-- The two renames of the fallback. A new file that cannot be moved in is answered by putting the old one back. -/
def swapFiles (source backup : Nat) (value old : α) : Durably (StateFile α) AccountError Unit := do
  .step (moveAside backup old) (.io "rename")
  match ← Durably.attempt (.step (publish source value) (.io "rename")) with
  | .ok () =>
      .ignore (.step (discard backup) (.io "remove"))
      .ignore (.step removeJournal (.io "remove"))
  | .error error =>
      match ← Durably.attempt (.step (publish backup old) (.io "rename")) with
      | .ok () =>
          .ignore (.step removeJournal (.io "remove"))
          .throw error
      | .error _ => .throw error

def replaceInTwoSteps (source : Nat) (value old : α) : Durably (StateFile α) AccountError Unit := do
  let file ← .get
  let backup := file.names
  writeReplaceJournal source backup
  swapFiles source backup value old

/-- `ReplaceFileW`, and the fallback where it is rejected. -/
def replaceExisting (source : Nat) (value old : α) : Durably (StateFile α) AccountError Unit := do
  match ← Durably.attempt (.step (publish source value) (.io "ReplaceFileW")) with
  | .ok () => pure ()
  | .error _ => replaceInTwoSteps source value old

def replaceFile (platform : Platform) (source : Nat) (value : α) :
    Durably (StateFile α) AccountError Unit := do
  let file ← .get
  match platform, file.target with
  | .windows, some old => replaceExisting source value old
  | _, _ => .step (publish source value) (.io "rename")

/-- The temporary file, written and synced. A step that fails leaves what is there. -/
def writeTemp (temp : Nat) (value : α) : Durably (StateFile α) AccountError Unit := do
  .step create (.io "open temp")
  .step (fill temp value) (.io "write temp")
  .step id (.io "write newline")
  .step id (.io "sync temp")

def writeJsonAtomic (platform : Platform) (value : α) : Durably (StateFile α) AccountError Unit := do
  let file ← .get
  let temp := file.names
  writeTemp temp value
  match ← Durably.attempt (replaceFile platform temp value) with
  | .ok () => pure ()
  | .error _ =>
      .ignore (.step (discard temp) (.io "remove"))
      .throw (.io "atomic replace")

/-! ### What a restart finds -/

/-- The readable files a sidecar journal names, the new one first. -/
def candidates (file : StateFile α) : List α :=
  match file.journal with
  | some (some (source, backup)) =>
      [source, backup].filterMap fun name => (file.pieces.lookup name).join
  | _ => []

/-- The target, or what its sidecar journal leads to. -/
def current (file : StateFile α) : Option α := file.target.or file.candidates.head?

/-- The sidecar journal names files that were there before. -/
def Named (file : StateFile α) : Prop :=
  ∀ source backup, file.journal = some (some (source, backup)) →
    source < file.names ∧ backup < file.names

/-- Every value that can be read from the file or from one beside it. -/
def Holds (P : α → Prop) (file : StateFile α) : Prop :=
  (∀ value ∈ file.target, P value) ∧ ∀ value, some value ∈ file.pieces.values → P value

@[simp] theorem current_of_target {file : StateFile α} {value : α} (h : file.target = some value) :
    file.current = some value := by
  simp [current, h]

section Holds

variable {P : α → Prop} {file : StateFile α} {name : Nat} {value : α}

theorem Holds.create (h : file.Holds P) : file.create.Holds P := by
  refine ⟨h.1, fun found hfound => ?_⟩
  rcases Table.mem_values_insert hfound with hnew | hold
  · cases hnew
  · exact h.2 found hold

theorem Holds.fill (hvalue : P value) (h : file.Holds P) : (file.fill name value).Holds P := by
  refine ⟨h.1, fun found hfound => ?_⟩
  rcases Table.mem_values_insert hfound with hnew | hold
  · cases hnew
    exact hvalue
  · exact h.2 found hold

theorem Holds.discard (h : file.Holds P) : (file.discard name).Holds P :=
  ⟨h.1, fun found hfound => h.2 found (Table.mem_values_erase hfound)⟩

theorem Holds.publish (hvalue : P value) (h : file.Holds P) : (file.publish name value).Holds P := by
  refine ⟨fun found hfound => ?_, fun found hfound => h.2 found (Table.mem_values_erase hfound)⟩
  cases hfound
  exact hvalue

theorem Holds.moveAside (hvalue : P value) (h : file.Holds P) :
    (file.moveAside name value).Holds P := by
  refine ⟨fun found hfound => (by cases hfound), fun found hfound => ?_⟩
  rcases Table.mem_values_insert hfound with hnew | hold
  · cases hnew
    exact hvalue
  · exact h.2 found hold

theorem step_publish_holds (name : Nat) (error : AccountError) (hvalue : P value) :
    (Durably.step (StateFile.publish name value) error).Keeps (Holds P) :=
  Durably.keeps_step error fun _ => Holds.publish hvalue

theorem swapFiles_holds {source backup : Nat} {old : α} (hvalue : P value) (hold : P old) :
    (swapFiles source backup value old).Keeps (Holds P) := by
  have hdrop : ∀ error : AccountError, (Durably.step removeJournal error).Keeps (Holds P) :=
    fun error => Durably.keeps_step error fun _ h => h
  unfold swapFiles
  apply Durably.Keeps.bind
  · exact Durably.keeps_step _ fun _ => Holds.moveAside hold
  intro _
  apply Durably.Keeps.bind
  · exact (step_publish_holds source _ hvalue).attempt
  intro moved
  cases moved with
  | ok _ =>
      apply Durably.Keeps.bind
      · exact (Durably.keeps_step _ fun _ => Holds.discard).ignore
      · exact fun _ => (hdrop _).ignore
  | error error =>
      apply Durably.Keeps.bind
      · exact (step_publish_holds backup _ hold).attempt
      intro restored
      cases restored with
      | ok _ => exact (hdrop _).ignore.bind fun _ => Durably.keeps_throw error
      | error _ => exact Durably.keeps_throw error

theorem writeReplaceJournal_holds (source backup : Nat) :
    (writeReplaceJournal source backup).Keeps (Holds P) := by
  unfold writeReplaceJournal
  apply Durably.Keeps.bind
  · exact Durably.keeps_step _ fun _ h => h
  intro _
  apply Durably.Keeps.bind
  · exact Durably.keeps_step _ fun _ h => h
  · exact fun _ => Durably.keeps_step _ fun _ h => h

theorem replaceFile_holds (platform : Platform) {source : Nat} (hvalue : P value) :
    (replaceFile platform source value).Keeps (Holds P) := by
  apply Durably.keeps_get_bind
  intro file hfile
  rcases htarget : file.target with _ | old
  · cases platform <;> exact step_publish_holds source _ hvalue
  · cases platform with
    | unix => exact step_publish_holds source _ hvalue
    | windows =>
        apply (step_publish_holds source _ hvalue).attempt.bind
        intro replaced
        cases replaced with
        | ok _ => exact Durably.keeps_pure _
        | error _ =>
            apply Durably.keeps_get_bind
            intro _ _
            apply (writeReplaceJournal_holds _ _).bind
            exact fun _ => swapFiles_holds hvalue (hfile.1 old htarget)

theorem writeTemp_holds (temp : Nat) (hvalue : P value) : (writeTemp temp value).Keeps (Holds P) := by
  unfold writeTemp
  apply Durably.Keeps.bind
  · exact Durably.keeps_step _ fun _ => Holds.create
  intro _
  apply Durably.Keeps.bind
  · exact Durably.keeps_step _ fun _ => Holds.fill hvalue
  intro _
  apply Durably.Keeps.bind
  · exact Durably.keeps_step _ fun _ h => h
  · exact fun _ => Durably.keeps_step _ fun _ h => h

/-- A write brings nothing to be read but its own value. -/
theorem writeJsonAtomic_holds (platform : Platform) (hvalue : P value) :
    (writeJsonAtomic platform value).Keeps (Holds P) := by
  apply Durably.keeps_get_bind
  intro file _
  apply (writeTemp_holds file.names hvalue).bind
  intro _
  apply (replaceFile_holds platform hvalue).attempt.bind
  intro replaced
  cases replaced with
  | ok _ => exact Durably.keeps_pure _
  | error _ =>
      apply Durably.Keeps.bind
      · exact (Durably.keeps_step _ fun _ => Holds.discard).ignore
      · exact fun _ => Durably.keeps_throw _

end Holds

/-! ### What a write leaves -/

/-- The fallback is cut between its two renames, or it can neither move the new file in nor the old one back. -/
def tearsRenames : List Fault → Bool
  | .none :: .crash :: _ => true
  | .none :: .fail :: .crash :: _ => true
  | .none :: .fail :: .fail :: _ => true
  | _ => false

/-- `ReplaceFileW` is rejected and the fallback torn. -/
def tearsSwap (platform : Platform) : List Fault → Bool
  | .none :: .none :: .none :: .none :: .fail :: .none :: .none :: .none :: left =>
      platform == .windows && tearsRenames left
  | _ => false

/-- The same file but for pieces with new names. -/
structure Beside (file next : StateFile α) : Prop where
  target : next.target = file.target
  journal : next.journal = file.journal
  names : file.names ≤ next.names
  others : ∀ name, name < file.names → next.pieces.lookup name = file.pieces.lookup name

section Beside

variable {file next : StateFile α} {value old : α}

theorem Beside.named (h : file.Beside next) (hnamed : file.Named) : next.Named := by
  intro source backup hjournal
  obtain ⟨hsource, hbackup⟩ := hnamed source backup (h.journal ▸ hjournal)
  exact ⟨Nat.lt_of_lt_of_le hsource h.names, Nat.lt_of_lt_of_le hbackup h.names⟩

theorem Beside.current (h : file.Beside next) (hnamed : file.Named) :
    next.current = file.current := by
  have hcandidates : next.candidates = file.candidates := by
    unfold candidates
    rw [h.journal]
    rcases hjournal : file.journal with _ | _ | ⟨source, backup⟩
    · rfl
    · rfl
    · obtain ⟨hsource, hbackup⟩ := hnamed source backup hjournal
      change [source, backup].filterMap _ = [source, backup].filterMap _
      rw [List.filterMap_cons, List.filterMap_cons, List.filterMap_cons, List.filterMap_cons,
        h.others source hsource, h.others backup hbackup, List.filterMap_nil, List.filterMap_nil]
  rw [StateFile.current, StateFile.current, h.target, hcandidates]

theorem Beside.create (file : StateFile α) : file.Beside file.create where
  target := rfl
  journal := rfl
  names := Nat.le_succ _
  others := fun _ hname => AList.lookup_insert_ne (Nat.ne_of_lt hname)

theorem Beside.fill {name : Nat} (h : file.Beside next) (hname : file.names ≤ name) :
    file.Beside (next.fill name value) where
  target := h.target
  journal := h.journal
  names := h.names
  others := fun other hother =>
    (AList.lookup_insert_ne (by omega)).trans (h.others other hother)

theorem Beside.discard {name : Nat} (h : file.Beside next) (hname : file.names ≤ name) :
    file.Beside (next.discard name) where
  target := h.target
  journal := h.journal
  names := h.names
  others := fun other hother =>
    (AList.lookup_erase_ne (by omega)).trans (h.others other hother)

/-- A swap between its two renames: the target is gone, and the journal names the new file and the backup. -/
structure Torn (source backup : Nat) (value old : α) (file : StateFile α) : Prop where
  target : file.target = none
  journal : file.journal = some (some (source, backup))
  sourceFile : file.pieces.lookup source = some (some value)
  backupFile : file.pieces.lookup backup = some (some old)
  distinct : backup ≠ source

theorem Torn.current {source backup : Nat} (h : Torn source backup value old file) :
    file.current = some value := by
  simp [StateFile.current, candidates, h.target, h.journal, h.sourceFile]

/-- Without the new file the backup is what is left. -/
theorem Torn.current_discard {source backup : Nat} (h : Torn source backup value old file) :
    (file.discard source).current = some old := by
  have hsource : (file.discard source).pieces.lookup source = none := AList.lookup_erase _ _
  have hbackup : (file.discard source).pieces.lookup backup = some (some old) :=
    (AList.lookup_erase_ne h.distinct).trans h.backupFile
  have htarget : (file.discard source).target = none := h.target
  have hjournal : (file.discard source).journal = some (some (source, backup)) := h.journal
  simp [StateFile.current, candidates, htarget, hjournal, hsource, hbackup]

end Beside

section Writes

variable {file : StateFile α} {value old : α} {source backup : Nat} {faults : List Fault}

theorem swapFiles_meets (htarget : file.target = some old) :
    (swapFiles source backup value old).Meets file faults fun ending next _ =>
      (next.journal = file.journal ∨ next.journal = none) ∧ next.names = file.names ∧
      match ending with
      | .done _ => next.target = some value
      | _ => next.target = some old ∨ next.target = some value ∨
          next = file.moveAside backup old ∧ tearsRenames faults = true := by
  unfold swapFiles
  apply Durably.meets_step_bind
  · intro left hleft
    apply Durably.meets_attempt_step_bind
    · intro _ _
      apply Durably.meets_ignore_step_bind
      · intro _
        rw [Durably.meets_ignore]
        exact Durably.meets_step (fun _ _ => ⟨.inr rfl, rfl, rfl⟩) (fun _ _ => ⟨.inl rfl, rfl, rfl⟩)
          fun _ _ => ⟨.inl rfl, rfl, .inr (.inl rfl)⟩
      · intro _
        rw [Durably.meets_ignore]
        exact Durably.meets_step (fun _ _ => ⟨.inr rfl, rfl, rfl⟩) (fun _ _ => ⟨.inl rfl, rfl, rfl⟩)
          fun _ _ => ⟨.inl rfl, rfl, .inr (.inl rfl)⟩
      · exact fun _ => ⟨.inl rfl, rfl, .inr (.inl rfl)⟩
    · rintro rest rfl
      have hfaults : faults = .none :: .fail :: rest := hleft (by simp)
      apply Durably.meets_attempt_step_bind
      · intro _ _
        apply Durably.meets_ignore_step_bind
        · exact fun _ => ⟨.inr rfl, rfl, .inl rfl⟩
        · exact fun _ => ⟨.inl rfl, rfl, .inl rfl⟩
        · exact fun _ => ⟨.inl rfl, rfl, .inl rfl⟩
      · rintro last rfl
        exact ⟨.inl rfl, rfl, .inr (.inr ⟨rfl, by rw [hfaults]; rfl⟩)⟩
      · rintro last rfl
        exact ⟨.inl rfl, rfl, .inr (.inr ⟨rfl, by rw [hfaults]; rfl⟩)⟩
    · rintro rest rfl
      have hfaults : faults = .none :: .crash :: rest := hleft (by simp)
      exact ⟨.inl rfl, rfl, .inr (.inr ⟨rfl, by rw [hfaults]; rfl⟩)⟩
  · exact fun _ _ => ⟨.inl rfl, rfl, .inl htarget⟩
  · exact fun _ _ => ⟨.inl rfl, rfl, .inl htarget⟩

theorem named_of_journal {next : StateFile α} (hsource : source < next.names)
    (hbackup : backup < next.names)
    (hjournal : ∀ names, next.journal = some (some names) → names = (source, backup)) :
    next.Named := by
  intro found moved h
  cases hjournal (found, moved) h
  exact ⟨hsource, hbackup⟩

/-- The file while the sidecar journal is written. -/
theorem torn_moveAside (hsource : source < file.names)
    (hfile : file.pieces.lookup source = some (some value)) :
    Torn source file.names value old
      ((file.openJournal.fillJournal source file.names).moveAside file.names old) where
  target := rfl
  journal := rfl
  sourceFile := (AList.lookup_insert_ne (Nat.ne_of_lt hsource)).trans hfile
  backupFile := AList.lookup_insert _
  distinct := Nat.ne_of_gt hsource

/-- What the fallback leaves: the new file, the old one, or a torn swap. -/
theorem replaceInTwoSteps_meets (htarget : file.target = some old) (hnamed : file.Named)
    (hsource : source < file.names) (hfile : file.pieces.lookup source = some (some value)) :
    (replaceInTwoSteps source value old).Meets file faults fun ending next _ =>
      next.Named ∧ file.names ≤ next.names ∧
      match ending with
      | .done _ => next.target = some value
      | _ => next.target = some old ∨ next.target = some value ∨
          (∃ backup, Torn source backup value old next) ∧
            ∃ left, faults = .none :: .none :: .none :: left ∧ tearsRenames left = true := by
  have hopened : file.openJournal.Named := fun _ _ h => by cases h
  have hfilled : (file.openJournal.fillJournal source file.names).Named :=
    named_of_journal (Nat.lt_succ_of_lt hsource) (Nat.lt_succ_self _) fun names h =>
      (Option.some.inj (Option.some.inj h)).symm
  have hnames : file.names ≤ file.openJournal.names := Nat.le_succ _
  unfold replaceInTwoSteps writeReplaceJournal
  rw [Durably.meets_bind, Durably.meets_get]
  dsimp only
  rw [Durably.meets_bind]
  apply Durably.meets_step_bind
  · intro first hfirst
    apply Durably.meets_step_bind
    · intro second hsecond
      apply Durably.meets_step
      · intro third hthird
        have hopen : (file.openJournal.fillJournal source file.names).target = some old := htarget
        apply (swapFiles_meets hopen).mono
        intro ending next _ h
        obtain ⟨hjournal, hcount, hending⟩ := h
        have hnext : next.Named := by
          have hnames : ∀ names, next.journal = some (some names) → names = (source, file.names) := by
            intro names h
            rcases hjournal with hjournal | hjournal
            · rw [hjournal] at h
              exact (Option.some.inj (Option.some.inj h)).symm
            · rw [hjournal] at h
              cases h
          apply named_of_journal _ _ hnames
          · exact hcount ▸ Nat.lt_succ_of_lt hsource
          · exact hcount ▸ Nat.lt_succ_self _
        refine ⟨hnext, hcount ▸ hnames, ?_⟩
        have htorn : next = (file.openJournal.fillJournal source file.names).moveAside file.names old ∧
            tearsRenames third = true →
            (∃ backup, Torn source backup value old next) ∧
              ∃ left, faults = .none :: .none :: .none :: left ∧ tearsRenames left = true := by
          rintro ⟨rfl, htears⟩
          have hleft : third ≠ [] := by
            rintro rfl
            cases htears
          have hrest : second = .none :: third := hthird hleft
          have hmiddle : first = .none :: .none :: third := hrest ▸ hsecond (by simp [hrest])
          exact ⟨⟨file.names, torn_moveAside hsource hfile⟩, third,
            hmiddle ▸ hfirst (by simp [hmiddle]), htears⟩
        cases ending with
        | done _ => exact hending
        | failed _ => exact hending.imp_right (Or.imp_right htorn)
        | crashed => exact hending.imp_right (Or.imp_right htorn)
      · exact fun _ _ => ⟨hfilled, hnames, .inl htarget⟩
      · exact fun _ _ => ⟨hfilled, hnames, .inl htarget⟩
    · exact fun _ _ => ⟨hopened, hnames, .inl htarget⟩
    · exact fun _ _ => ⟨hopened, hnames, .inl htarget⟩
  · exact fun _ _ => ⟨hnamed, Nat.le_refl _, .inl htarget⟩
  · exact fun _ _ => ⟨hnamed, Nat.le_refl _, .inl htarget⟩

/-- How a replacement that does not come to its end may leave the file. -/
def Unfinished (platform : Platform) (source : Nat) (value : α) (file : StateFile α)
    (faults : List Fault) (next : StateFile α) : Prop :=
  next = file ∨ (file.target.isSome ∧ next.target = file.target) ∨ next.target = some value ∨
    ∃ old, file.target = some old ∧ (∃ backup, Torn source backup value old next) ∧
      platform = .windows ∧
      ∃ left, faults = .fail :: .none :: .none :: .none :: left ∧ tearsRenames left = true

theorem replaceFile_meets (platform : Platform) (hnamed : file.Named) (hsource : source < file.names)
    (hfile : file.pieces.lookup source = some (some value)) :
    (replaceFile platform source value).Meets file faults fun ending next _ =>
      next.Named ∧ file.names ≤ next.names ∧
      match ending with
      | .done _ => next.target = some value
      | _ => Unfinished platform source value file faults next := by
  have hrename : (Durably.step (publish source value) (AccountError.io "rename")).Meets file faults
      fun ending next _ => next.Named ∧ file.names ≤ next.names ∧
        match ending with
        | .done _ => next.target = some value
        | _ => Unfinished platform source value file faults next := by
    apply Durably.meets_step
    · exact fun _ _ => ⟨hnamed, Nat.le_refl _, rfl⟩
    · exact fun _ _ => ⟨hnamed, Nat.le_refl _, .inl rfl⟩
    · exact fun _ _ => ⟨hnamed, Nat.le_refl _, .inl rfl⟩
  unfold replaceFile
  rw [Durably.meets_bind, Durably.meets_get]
  dsimp only
  rcases htarget : file.target with _ | old
  · cases platform <;> exact hrename
  · cases platform with
    | unix => exact hrename
    | windows =>
        change (replaceExisting source value old).Meets _ _ _
        unfold replaceExisting
        apply Durably.meets_attempt_step_bind
        · exact fun _ _ => ⟨hnamed, Nat.le_refl _, rfl⟩
        · rintro left hleft
          apply (replaceInTwoSteps_meets htarget hnamed hsource hfile).mono
          intro ending next _ h
          have hunfinished : (next.target = some old ∨ next.target = some value ∨
              (∃ backup, Torn source backup value old next) ∧
                ∃ last, left = .none :: .none :: .none :: last ∧ tearsRenames last = true) →
              Unfinished .windows source value file faults next := by
            rintro (hold | hnew | ⟨htorn, last, rfl, htears⟩)
            · exact .inr (.inl ⟨by rw [htarget]; rfl, hold.trans htarget.symm⟩)
            · exact .inr (.inr (.inl hnew))
            · exact .inr (.inr (.inr ⟨old, htarget, htorn, rfl, last, hleft, htears⟩))
          cases ending with
          | done _ => exact h
          | failed _ => exact ⟨h.1, h.2.1, hunfinished h.2.2⟩
          | crashed => exact ⟨h.1, h.2.1, hunfinished h.2.2⟩
        · exact fun _ _ => ⟨hnamed, Nat.le_refl _, .inl rfl⟩

theorem writeTemp_meets :
    (writeTemp file.names value).Meets file faults fun ending next left =>
      file.Beside next ∧ (ending = .done () →
        next.pieces.lookup file.names = some (some value) ∧ file.names < next.names ∧
          (left ≠ [] → faults = .none :: .none :: .none :: .none :: left)) := by
  have hcreated := Beside.create file
  have hfilled : file.Beside (file.create.fill file.names value) := hcreated.fill (Nat.le_refl _)
  unfold writeTemp
  apply Durably.meets_step_bind
  · intro first hfirst
    apply Durably.meets_step_bind
    · intro second hsecond
      apply Durably.meets_step_bind
      · intro third hthird
        apply Durably.meets_step
        · intro fourth hfourth
          refine ⟨hfilled, fun _ => ⟨AList.lookup_insert _, Nat.lt_succ_self _, fun hleft => ?_⟩⟩
          have hfour := hfourth hleft
          have hthree := hthird (by simp [hfour])
          have htwo := hsecond (by simp [hthree])
          rw [hfirst (by simp [htwo]), htwo, hthree, hfour]
        · exact fun _ _ => ⟨hfilled, fun h => by cases h⟩
        · exact fun _ _ => ⟨hfilled, fun h => by cases h⟩
      · exact fun _ _ => ⟨hfilled, fun h => by cases h⟩
      · exact fun _ _ => ⟨hfilled, fun h => by cases h⟩
    · exact fun _ _ => ⟨hcreated, fun h => by cases h⟩
    · exact fun _ _ => ⟨hcreated, fun h => by cases h⟩
  · exact fun _ _ => ⟨⟨rfl, rfl, Nat.le_refl _, fun _ _ => rfl⟩, fun h => by cases h⟩
  · exact fun _ _ => ⟨⟨rfl, rfl, Nat.le_refl _, fun _ _ => rfl⟩, fun h => by cases h⟩

/-- What a restart finds after a write that was not finished, the old value or the new one. -/
structure Left (platform : Platform) (value : α) (file : StateFile α) (faults : List Fault)
    (next : StateFile α) : Prop where
  current : next.current = file.current ∨ next.current = some value
  target : next.target = file.target ∨ next.target = some value ∨
    next.target = none ∧ tearsSwap platform faults = true

theorem Beside.left {next : StateFile α} (platform : Platform) (h : file.Beside next)
    (hnamed : file.Named) : Left platform value file faults next :=
  ⟨.inl (h.current hnamed), .inl h.target⟩

theorem left_of_same_target {next : StateFile α} (platform : Platform)
    (h : next.target = some value ∨ file.target.isSome ∧ next.target = file.target) :
    Left platform value file faults next := by
  rcases h with hnew | ⟨hsome, hsame⟩
  · exact ⟨.inr (current_of_target hnew), .inr (.inl hnew)⟩
  · obtain ⟨old, hold⟩ := Option.isSome_iff_exists.mp hsome
    rw [hold] at hsame
    exact ⟨.inl ((current_of_target hsame).trans (current_of_target hold).symm),
      .inl (hsame.trans hold.symm)⟩

theorem Unfinished.left {platform : Platform} {staged next : StateFile α} {rest : List Fault}
    (h : Unfinished platform file.names value staged rest next) (hbeside : file.Beside staged)
    (hnamed : file.Named) (hfaults : rest ≠ [] → faults = .none :: .none :: .none :: .none :: rest) :
    Left platform value file faults next ∧ Left platform value file faults (next.discard file.names) := by
  rcases h with rfl | ⟨hsome, hsame⟩ | hnew | ⟨old, hold, ⟨backup, htorn⟩, rfl, last, rfl, htears⟩
  · exact ⟨hbeside.left platform hnamed, (hbeside.discard (Nat.le_refl _)).left platform hnamed⟩
  · rw [hbeside.target] at hsome hsame
    exact ⟨left_of_same_target platform (.inr ⟨hsome, hsame⟩),
      left_of_same_target platform (.inr ⟨hsome, hsame⟩)⟩
  · exact ⟨left_of_same_target platform (.inl hnew), left_of_same_target platform (.inl hnew)⟩
  · have hswap : tearsSwap .windows faults = true := by
      rw [hfaults (by simp)]
      simpa [tearsSwap] using htears
    have hfile : file.target = some old := hbeside.target ▸ hold
    exact ⟨⟨.inr htorn.current, .inr (.inr ⟨htorn.target, hswap⟩)⟩,
      ⟨.inl (htorn.current_discard.trans (current_of_target hfile).symm),
        .inr (.inr ⟨htorn.target, hswap⟩)⟩⟩

/-- What a write leaves. One that comes to its end leaves the new value. One that does not leaves the old value or the new one to a restart that reads the sidecar journal, and to one that reads the target alone too, unless the swap was torn. -/
theorem writeJsonAtomic_meets (platform : Platform) (value : α) (faults : List Fault)
    (hnamed : file.Named) :
    (writeJsonAtomic platform value).Meets file faults fun ending next _ =>
      next.Named ∧
      match ending with
      | .done _ => next.target = some value
      | _ => Left platform value file faults next := by
  unfold writeJsonAtomic
  rw [Durably.meets_bind, Durably.meets_get]
  dsimp only
  rw [Durably.meets_bind]
  apply writeTemp_meets.mono
  intro ending staged left h
  obtain ⟨hbeside, hdone⟩ := h
  cases ending with
  | failed error => exact ⟨hbeside.named hnamed, hbeside.left platform hnamed⟩
  | crashed => exact ⟨hbeside.named hnamed, hbeside.left platform hnamed⟩
  | done _ =>
      obtain ⟨hfile, hnames, hfaults⟩ := hdone rfl
      dsimp only
      rw [Durably.meets_bind, Durably.meets_attempt]
      apply (replaceFile_meets platform (hbeside.named hnamed) hnames hfile).mono
      intro ending next _ h
      obtain ⟨hnext, -, hending⟩ := h
      cases ending with
      | done _ => exact ⟨hnext, hending⟩
      | crashed => exact ⟨hnext, (hending.left hbeside hnamed hfaults).1⟩
      | failed error =>
          obtain ⟨hkept, hdiscarded⟩ := hending.left hbeside hnamed hfaults
          apply Durably.meets_ignore_step_bind
          · exact fun _ => ⟨hnext, hdiscarded⟩
          · exact fun _ => ⟨hnext, hkept⟩
          · exact fun _ => ⟨hnext, hkept⟩

/-- A write in which nothing goes wrong. -/
theorem writeJsonAtomic_succeeds (platform : Platform) (value : α) (file : StateFile α) :
    (writeJsonAtomic platform value).Succeeds file fun _ next => next.target = some value := by
  refine ⟨(), (file.create.fill file.names value).publish file.names value, ?_, rfl⟩
  obtain ⟨target, pieces, journal, names⟩ := file
  cases platform <;> cases target <;> rfl

/-- A replacement that is torn leaves no target. -/
theorem writeJsonAtomic_torn {platform : Platform} (htarget : file.target = some old)
    (htears : tearsSwap platform faults = true) :
    (writeJsonAtomic platform value).Meets file faults fun ending next _ =>
      ending ≠ .done () ∧ next.target = none := by
  obtain ⟨target, pieces, journal, names⟩ := file
  dsimp only at htarget
  subst htarget
  unfold tearsSwap at htears
  split at htears
  · rename_i left
    rw [Bool.and_eq_true, beq_iff_eq] at htears
    obtain ⟨rfl, htears⟩ := htears
    unfold tearsRenames at htears
    have hcrashed : (Ending.crashed : Ending AccountError Unit) ≠ .done () := by simp
    have hfailed : (Ending.failed (.io "atomic replace") : Ending AccountError Unit) ≠ .done () := by
      simp
    split at htears
    · exact ⟨hcrashed, rfl⟩
    · exact ⟨hcrashed, rfl⟩
    · rename_i last
      match last with
      | [] => exact ⟨hfailed, rfl⟩
      | .none :: _ => exact ⟨hfailed, rfl⟩
      | .fail :: _ => exact ⟨hfailed, rfl⟩
      | .crash :: _ => exact ⟨hcrashed, rfl⟩
    · cases htears
  · cases htears

end Writes

end StateFile

end Accounts

end ShishiTodo
