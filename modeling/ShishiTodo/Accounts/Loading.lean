import Mathlib.Algebra.Order.BigOperators.Group.List
import Mathlib.Algebra.Order.Ring.Nat
import ShishiTodo.Accounts.Migration

/-!
# State files across restarts

What a start finds of a state file that earlier starts wrote and were cut in: the value that stands in it, or a first value that was never put in place.
-/

namespace ShishiTodo

namespace Accounts

open Lib

namespace StateFile

variable {α : Type} {P : α → Prop} {file : StateFile α} {value : α}

theorem Holds.of_current (h : file.Holds P) (hcurrent : file.current = some value) : P value := by
  rw [current, Option.or_eq_some_iff] at hcurrent
  rcases hcurrent with htarget | ⟨-, hhead⟩
  · exact h.1 value htarget
  · have hmem := List.mem_of_mem_head? hhead
    unfold candidates at hmem
    rcases hjournal : file.journal with _ | _ | ⟨source, backup⟩
    · simp [hjournal] at hmem
    · simp [hjournal] at hmem
    · rw [hjournal] at hmem
      obtain ⟨name, -, hname⟩ := List.mem_filterMap.mp hmem
      exact h.2 value (Table.mem_values_iff.mpr ⟨name, Option.join_eq_some_iff.mp hname⟩)

/-- Everything that can be read of the file is as it should be. -/
structure Sound (P : α → Prop) (file : StateFile α) : Prop where
  named : file.Named
  holds : file.Holds P

/-- A sidecar journal without a target, and nothing to be read where it leads. -/
def Lost (file : StateFile α) : Prop :=
  file.target = none ∧ file.journal ≠ none ∧ file.candidates = []

theorem holds_empty : Holds P (empty : StateFile α) := by
  refine ⟨fun value h => ?_, fun value h => ?_⟩
  · cases h
  · cases h

theorem sound_empty : Sound P (empty : StateFile α) where
  named := fun _ _ h => by cases h
  holds := holds_empty

theorem Sound.removeJournal (h : file.Sound P) : file.removeJournal.Sound P :=
  ⟨fun _ _ hjournal => (by cases hjournal), h.holds⟩

theorem Sound.remove (h : file.Sound P) : file.remove.Sound P :=
  ⟨h.named, fun _ hvalue => (by cases hvalue), h.holds.2⟩

/-- A write leaves the new value in place, or where it is cut the old value or the new one. -/
theorem Sound.write (platform : Platform) (h : file.Sound P) (hvalue : P value) :
    (writeJsonAtomic platform value).Guarded file
      (fun next => next.Sound P ∧ (next.current = file.current ∨ next.current = some value))
      fun _ next => next.Sound P ∧ next.target = some value := by
  intro faults
  have hkeeps := (writeJsonAtomic_holds platform hvalue).meets h.holds
    (writeJsonAtomic_meets platform value faults h.named)
  apply Durably.Meets.mono hkeeps
  intro ending next _ hnext
  obtain ⟨hholds, hnamed, hending⟩ := hnext
  cases ending with
  | done _ => exact ⟨⟨hnamed, hholds⟩, hending⟩
  | failed _ => exact ⟨⟨hnamed, hholds⟩, hending.current⟩
  | crashed => exact ⟨⟨hnamed, hholds⟩, hending.current⟩

theorem Sound.write_sure {clear : Prop} (platform : Platform) (h : file.Sound P) (hvalue : P value) :
    (writeJsonAtomic platform value).Sure clear file
      (fun next => next.Sound P ∧ (next.current = file.current ∨ next.current = some value))
      fun _ next => next.Sound P ∧ next.target = some value :=
  ⟨h.write platform hvalue, fun _ =>
    (writeJsonAtomic_succeeds platform value file).mono fun _ _ _ => trivial⟩

/-- What a write leaves that is cut before there ever was a target: the file as it was, or a temporary file beside it. -/
inductive Drafted (value : α) (file : StateFile α) : StateFile α → Prop where
  | untouched : Drafted value file file
  | begun : Drafted value file file.create
  | written : Drafted value file (file.create.fill file.names value)
  | discarded : Drafted value file ((file.create.fill file.names value).discard file.names)

theorem writeJsonAtomic_drafts (platform : Platform) (htarget : file.target = none) :
    (writeJsonAtomic platform value).Guarded file (Drafted value file)
      fun _ next => next = (file.create.fill file.names value).publish file.names value := by
  have hreplace : ∀ {post} left, (Durably.step (publish file.names value) (.io "rename")).Meets
      (file.create.fill file.names value) left post →
        (replaceFile platform file.names value).Meets (file.create.fill file.names value) left post := by
    intro post left hstep
    have hrename : replaceFile platform file.names value (file.create.fill file.names value) left =
        Durably.step (publish file.names value) (.io "rename") (file.create.fill file.names value) left := by
      unfold replaceFile
      change Durably.bind Durably.get _ _ left = _
      simp only [Durably.bind, Durably.get, create, fill, htarget]
    unfold Durably.Meets
    rw [hrename]
    exact hstep
  unfold writeJsonAtomic
  apply Durably.guarded_get_bind
  have htemp : (writeTemp file.names value).Guarded file (Drafted value file)
      fun _ next => next = file.create.fill file.names value := by
    unfold writeTemp
    apply Durably.guarded_step_bind .untouched
    apply Durably.guarded_step_bind .begun
    apply Durably.guarded_step_bind .written
    exact Durably.guarded_step .written rfl
  apply htemp.bind
  rintro _ _ rfl left
  rw [Durably.meets_bind, Durably.meets_attempt]
  apply hreplace
  apply Durably.meets_step
  · exact fun _ _ => rfl
  · intro rest _
    apply Durably.meets_ignore_step_bind
    · exact fun _ => .discarded
    · exact fun _ => .written
    · exact fun _ => .written
  · exact fun _ _ => .written

/-- Where there is no target the first write touches no sidecar journal. -/
theorem writeJsonAtomic_first (platform : Platform) (htarget : file.target = none) :
    (writeJsonAtomic platform value).Guarded file
      (fun next => next.journal = file.journal ∧ next.target = none)
      fun _ next => next.journal = file.journal ∧ next.target = some value := by
  apply (writeJsonAtomic_drafts platform htarget).mono
  · intro next hnext
    cases hnext with
    | untouched => exact ⟨rfl, htarget⟩
    | begun => exact ⟨rfl, htarget⟩
    | written => exact ⟨rfl, htarget⟩
    | discarded => exact ⟨rfl, htarget⟩
  · intro _ next hnext
    rw [hnext]
    exact ⟨rfl, rfl⟩

/-- It was never put in place. -/
def Never (file : StateFile α) : Prop := file.target = none ∧ file.journal = none

/-- Where a restart finds no value, none was ever put in place. -/
theorem Sound.write_never (platform : Platform) (h : file.Sound P) (hvalue : P value)
    (hnever : file.current = none → file.Never) :
    (writeJsonAtomic platform value).Guarded file (fun next => next.current = none → next.Never)
      fun _ next => next.target = some value := by
  rcases htarget : file.target with _ | old
  · apply ((h.write platform hvalue).and (writeJsonAtomic_first platform htarget)).mono
    · rintro next ⟨⟨-, hcurrent⟩, hjournal, hnone⟩ hlost
      rcases hcurrent with hold | hnew
      · exact ⟨hnone, hjournal.trans (hnever (hold.symm.trans hlost)).2⟩
      · rw [hnew] at hlost
        cases hlost
    · exact fun _ _ hnext => hnext.1.2
  · apply (h.write platform hvalue).mono
    · rintro next ⟨-, hcurrent⟩ hlost
      rcases hcurrent with hold | hnew
      · rw [hold, current_of_target htarget] at hlost
        cases hlost
      · rw [hnew] at hlost
        cases hlost
    · exact fun _ _ hnext => hnext.2

theorem not_lost_of_never (hnever : file.current = none → file.Never) : ¬ file.Lost := by
  rintro ⟨htarget, hjournal, hcandidates⟩
  have hnone : file.current = none := by
    rw [current, htarget, hcandidates]
    rfl
  exact hjournal (hnever hnone).2

/-! ### Loading a state -/

section Load

variable {check : α → Except AccountError Unit}

/-- Loading finds the value a restart is to find, and puts it in place. -/
theorem Sound.load (platform : Platform) (h : file.Sound P) :
    (loadState check platform).Guarded file
      (fun next => next.Sound P ∧ next.current = file.current)
      fun found next => next.Sound P ∧ next.current = file.current ∧ found = file.current ∧
        (found = none → next = file) := by
  unfold loadState
  apply Durably.guarded_get_bind
  rcases htarget : file.target with _ | state
  · apply Durably.guarded_ofExcept_bind ⟨h, rfl⟩
    intro found hfound
    unfold recoverStateJournal at hfound
    have hcurrent : file.current = file.candidates.head? := by
      rw [current, htarget, Option.none_or]
    rcases hjournal : file.journal with _ | _ | names
    · rw [hjournal] at hfound
      cases hfound
      refine Durably.guarded_pure ⟨h, rfl, ?_, fun _ => rfl⟩
      rw [hcurrent, candidates, hjournal]
      rfl
    · rw [hjournal] at hfound
      cases hfound
    · rw [hjournal] at hfound
      rcases hhead : file.candidates.head? with _ | state
      · rw [hhead] at hfound
        cases hfound
      · rw [hhead] at hfound
        cases hfound
        rw [hhead] at hcurrent
        have hstate := h.holds.of_current hcurrent
        apply Durably.guarded_ofExcept_bind ⟨h, rfl⟩
        intro _ _
        have hwritten : (writeJsonAtomic platform state).Guarded file
            (fun next => next.Sound P ∧ next.current = file.current)
            fun _ next => next.Sound P ∧ next.target = some state := by
          apply (h.write platform hstate).mono
          · exact fun next hnext => ⟨hnext.1, hnext.2.elim id fun hnew => hnew.trans hcurrent.symm⟩
          · exact fun _ _ hnext => hnext
        apply hwritten.bind
        intro _ next hnext
        have hplace : next.current = file.current := (current_of_target hnext.2).trans hcurrent.symm
        have hdroppedTarget : next.removeJournal.target = some state := hnext.2
        have hdropped : next.removeJournal.current = file.current :=
          (current_of_target hdroppedTarget).trans hcurrent.symm
        have hignored : (Durably.ignore (.step StateFile.removeJournal (AccountError.io "remove"))).Guarded next
            (fun next => next.Sound P ∧ next.current = file.current)
            fun _ next => next.Sound P ∧ next.current = file.current :=
          Durably.guarded_ignore_step ⟨hnext.1, hplace⟩ ⟨hnext.1, hplace⟩
            ⟨hnext.1.removeJournal, hdropped⟩
        apply hignored.bind
        intro _ last hlast
        exact Durably.guarded_pure ⟨hlast.1, hlast.2, hcurrent.symm, fun h => by cases h⟩
  · apply Durably.guarded_ofExcept_bind ⟨h, rfl⟩
    intro _ _
    exact Durably.guarded_pure ⟨h, rfl, (current_of_target htarget).symm, fun h => by cases h⟩

/-- Nothing was written, and nothing is found. -/
theorem Never.load (platform : Platform) (h : file.Never) (faults : List Fault) :
    loadState check platform file faults = (.done none, file, faults) := by
  obtain ⟨htarget, hjournal⟩ := h
  unfold loadState recoverStateJournal
  change Durably.bind Durably.get _ file faults = _
  simp only [Durably.bind, Durably.get, htarget, hjournal]
  rfl

theorem Sound.load_succeeds (platform : Platform) (h : file.Sound P)
    (hcheck : ∀ value, P value → check value = .ok ()) (hfound : ¬ file.Lost) :
    (loadState check platform).Succeeds file fun _ _ => True := by
  unfold loadState
  apply Durably.succeeds_get_bind
  rcases htarget : file.target with _ | state
  · have hrecovered : ∃ found, recoverStateJournal file = .ok found ∧
        ∀ state, found = some state → file.current = some state := by
      unfold recoverStateJournal
      rcases hjournal : file.journal with _ | names
      · exact ⟨none, rfl, fun _ hstate => by cases hstate⟩
      · rcases hcandidates : file.candidates with _ | ⟨state, rest⟩
        · exact absurd ⟨htarget, by simp [hjournal], hcandidates⟩ hfound
        · rcases names with _ | names
          · simp [candidates, hjournal] at hcandidates
          · refine ⟨some state, rfl, fun found hfound => ?_⟩
            rw [current, htarget, hcandidates, Option.none_or]
            exact hfound
    obtain ⟨found, hrecovered, hcurrent⟩ := hrecovered
    apply Durably.succeeds_ofExcept_bind hrecovered
    cases found with
    | none => exact Durably.succeeds_pure trivial
    | some state =>
        apply Durably.succeeds_ofExcept_bind (hcheck state (h.holds.of_current (hcurrent state rfl)))
        apply (writeJsonAtomic_succeeds platform state file).bind
        intro _ next _
        have hignored : (Durably.ignore (.step StateFile.removeJournal (AccountError.io "remove"))).Succeeds next
            fun _ _ => True := Durably.Succeeds.ignore (Durably.succeeds_step trivial)
        exact hignored.bind fun _ _ _ => Durably.succeeds_pure trivial
  · apply Durably.succeeds_ofExcept_bind (hcheck state (h.holds.1 state htarget))
    exact Durably.succeeds_pure trivial

/-- A lost state stops every start. -/
theorem load_of_lost (platform : Platform) (hlost : file.Lost) (faults : List Fault) :
    ∃ error, loadState check platform file faults = (.failed error, file, faults) := by
  obtain ⟨htarget, hjournal, hcandidates⟩ := hlost
  have hrecovered : ∃ error, recoverStateJournal file = .error error := by
    unfold recoverStateJournal
    rcases hnames : file.journal with _ | _ | names
    · exact absurd hnames hjournal
    · exact ⟨_, rfl⟩
    · rw [hcandidates]
      exact ⟨_, rfl⟩
  obtain ⟨error, herror⟩ := hrecovered
  refine ⟨error, ?_⟩
  unfold loadState
  change Durably.bind Durably.get _ file faults = _
  simp only [Durably.bind, Durably.get, htarget, herror]
  rfl

end Load

end StateFile

/-! ### Names that are not taken -/

/-- No name that is taken is longer than all of them together. -/
theorem lookup_of_longer {backups : Table String (Option Database)} {name : String}
    (hlonger : (backups.keys.map String.length).sum < name.length) : backups.lookup name = none := by
  rw [← Option.not_isSome_iff_eq_none, AList.lookup_isSome, AList.mem_keys]
  intro hmem
  have hlength : name.length ∈ backups.keys.map String.length := List.mem_map_of_mem hmem
  have hle := List.single_le_sum (fun _ _ => Nat.zero_le _) _ hlength
  omega

theorem length_between {count : Nat} {before drawn after : String} (h : drawn.length = count + 1) :
    count < (before ++ drawn ++ after).length := by
  rw [String.length_append, String.length_append, h]
  omega

/-! ### The first registry -/

namespace AccountRegistry

/-- A registry that has only been prepared: it may lie in a temporary file, and never was in place. -/
structure Draft (registry : AccountRegistry) (file : StateFile AccountRegistry) : Prop where
  target : file.target = none
  journal : file.journal = none
  holds : file.Holds (· = registry)

/-- Files were left over, and none can be read. -/
def Unreadable (file : StateFile AccountRegistry) : Prop :=
  file.target = none ∧ file.pieces.values ≠ [] ∧ ∀ content ∈ file.pieces.values, content = none

section Draft

variable {registry : AccountRegistry} {file : StateFile AccountRegistry}

theorem draft_empty (registry : AccountRegistry) : registry.Draft StateFile.empty :=
  ⟨rfl, rfl, StateFile.holds_empty⟩

theorem Draft.save (platform : Platform) (h : registry.Draft file) (hvalid : registry.Valid) :
    (AccountRegistry.save platform registry).Guarded file
      (fun next => registry.Draft next ∨ registry.StandsIn next)
      fun _ next => registry.StandsIn next ∧ next.target = some registry := by
  unfold AccountRegistry.save
  apply Durably.guarded_ofExcept_bind (.inl h)
  intro _ _
  have hholds : (StateFile.writeJsonAtomic platform registry).Keeps (StateFile.Holds (· = registry)) :=
    StateFile.writeJsonAtomic_holds platform rfl
  have hwrite := (StateFile.writeJsonAtomic_first platform h.target).keeps hholds h.holds
  apply hwrite.mono
  · exact fun next hnext => .inl ⟨hnext.2.2, hnext.2.1.trans h.journal, hnext.1⟩
  · intro _ next hnext
    obtain ⟨hholds, hjournal, htarget⟩ := hnext
    refine ⟨⟨fun _ _ hnames => ?_, ?_, StateFile.current_of_target htarget⟩, htarget⟩
    · rw [hjournal, h.journal] at hnames
      cases hnames
    · exact ⟨fun found hfound => hholds.1 found hfound ▸ hvalid,
        fun found hfound => hholds.2 found hfound ▸ hvalid⟩

theorem uniqueRegistries_of_all {candidates : List AccountRegistry}
    (h : ∀ candidate ∈ candidates, candidate = registry) :
    uniqueRegistries candidates = .ok (if candidates = [] then none else some registry) := by
  cases candidates with
  | nil => rfl
  | cons first rest =>
      obtain rfl := h first (List.mem_cons_self)
      have hsame : ¬ (rest.any fun candidate => candidate != first) = true := by
        rw [List.any_eq_true]
        rintro ⟨candidate, hmem, hdiffers⟩
        rw [h candidate (List.mem_cons_of_mem _ hmem)] at hdiffers
        simp at hdiffers
      simp [uniqueRegistries, refuseIf, hsame, bind, Except.bind, pure, Except.pure]

/-- What of the pieces can be read. -/
def readable (file : StateFile AccountRegistry) : List AccountRegistry :=
  file.pieces.values.filterMap fun content => (readRegistryFile content).toOption

theorem Draft.unique (h : registry.Draft file) :
    uniqueRegistries (readable file) =
      .ok (if readable file = [] then none else some registry) := by
  apply uniqueRegistries_of_all
  intro candidate hcandidate
  obtain ⟨content, hcontent, hread⟩ := List.mem_filterMap.mp hcandidate
  cases content with
  | none => cases hread
  | some found =>
      obtain rfl := h.holds.2 found hcontent
      rcases hvalid : found.validate with error | _
      · simp [readRegistryFile, hvalid, bind, Except.bind, Except.toOption] at hread
      · rw [readRegistryFile_of_valid hvalid] at hread
        exact (Option.some.inj hread).symm

theorem readable_eq_nil_iff (h : registry.Draft file) (hvalid : registry.Valid) :
    readable file = [] ↔ ∀ content ∈ file.pieces.values, content = none := by
  unfold readable
  rw [List.filterMap_eq_nil_iff]
  constructor
  · intro hnone content hcontent
    cases content with
    | none => rfl
    | some found =>
        have hfound := hnone _ hcontent
        rw [readRegistryFile_of_valid (h.holds.2 found hcontent ▸ hvalid)] at hfound
        cases hfound
  · intro hnone content hcontent
    rw [hnone content hcontent]
    rfl

theorem Draft.loadWithRecovery_eq (platform : Platform) (h : registry.Draft file) (faults : List Fault) :
    loadWithRecovery platform file faults = recoverFromArtifacts platform file faults := by
  unfold loadWithRecovery recoverFromJournal
  change Durably.bind Durably.get _ file faults = _
  simp only [Durably.bind, Durably.get, h.target, readRegistryFile, Except.toOption]
  change Durably.bind (Durably.bind Durably.get _) _ file faults = _
  simp only [Durably.bind, Durably.get, h.journal]
  rfl

/-- Loading finds the first registry in a temporary file and puts it in place, or it finds nothing at all. -/
theorem Draft.loadWithRecovery (platform : Platform) (h : registry.Draft file) (hvalid : registry.Valid) :
    (AccountRegistry.loadWithRecovery platform).Guarded file
      (fun next => registry.Draft next ∨ registry.StandsIn next)
      fun found next => found = some registry ∧ registry.StandsIn next ∨
        found = none ∧ next = file ∧ file.pieces.values = [] := by
  have hartifacts : (recoverFromArtifacts platform).Guarded file
      (fun next => registry.Draft next ∨ registry.StandsIn next)
      fun found next => found = some registry ∧ registry.StandsIn next ∨
        found = none ∧ next = file ∧ file.pieces.values = [] := by
    unfold recoverFromArtifacts
    apply Durably.guarded_get_bind
    apply Durably.guarded_ofExcept_bind (.inl h)
    intro found hfound
    cases h.unique.symm.trans hfound
    split
    · rename_i found hsome
      split at hsome
      · cases hsome
      · cases hsome
        apply (h.save platform hvalid).bind
        exact fun _ next hnext => Durably.guarded_pure (.inl ⟨rfl, hnext.1⟩)
    · rw [h.target]
      split
      · rename_i hplace
        cases hplace
      · split
        · rename_i hempty
          exact Durably.guarded_pure (.inr ⟨rfl, rfl, List.isEmpty_iff.mp hempty⟩)
        · exact Durably.guarded_throw (.inl h)
  intro faults
  unfold Durably.Meets
  rw [h.loadWithRecovery_eq platform faults]
  exact hartifacts faults

theorem Draft.loadWithRecovery_succeeds (platform : Platform) (h : registry.Draft file)
    (hvalid : registry.Valid) (hread : ¬ Unreadable file) :
    (AccountRegistry.loadWithRecovery platform).Succeeds file fun _ _ => True := by
  have hartifacts : (recoverFromArtifacts platform).Succeeds file fun _ _ => True := by
    unfold recoverFromArtifacts
    apply Durably.succeeds_get_bind
    apply Durably.succeeds_ofExcept_bind h.unique
    by_cases hnil : readable file = []
    · rw [if_pos hnil, h.target]
      have hempty : file.pieces.values.isEmpty = true := by
        rw [List.isEmpty_iff]
        by_contra hvalues
        exact hread ⟨h.target, hvalues, (readable_eq_nil_iff h hvalid).mp hnil⟩
      simp only [Option.isSome_none, hempty]
      exact Durably.succeeds_pure trivial
    · rw [if_neg hnil]
      exact (save_succeeds platform hvalid).bind fun _ _ _ => Durably.succeeds_pure trivial
  obtain ⟨found, next, hrun, -⟩ := hartifacts
  exact ⟨found, next, (h.loadWithRecovery_eq platform []).trans hrun, trivial⟩

/-- Leftover files of which none can be read stop every start. -/
theorem Draft.load_of_unreadable (platform : Platform) (h : registry.Draft file) (hvalid : registry.Valid)
    (hread : Unreadable file) (faults : List Fault) :
    AccountRegistry.loadWithRecovery platform file faults =
      (.failed (.invalidRegistry "registry replacement artifacts exist but none is valid"), file,
        faults) := by
  rw [h.loadWithRecovery_eq platform faults]
  have hunique := h.unique
  rw [if_pos ((readable_eq_nil_iff h hvalid).mpr hread.2.2)] at hunique
  unfold readable at hunique
  have hvalues : file.pieces.values.isEmpty = false := by
    rw [List.isEmpty_eq_false_iff]
    exact hread.2.1
  unfold recoverFromArtifacts
  change Durably.bind Durably.get _ file faults = _
  simp only [Durably.bind, Durably.get, hunique]
  change Durably.bind (Durably.ofExcept (.ok none)) _ file faults = _
  simp only [Durably.bind, Durably.ofExcept, Durably.pure, h.target, hvalues]
  rfl

/-- A first registry on its way: it was only prepared, or it stands. -/
def Coming (registry : AccountRegistry) (file : StateFile AccountRegistry) : Prop :=
  registry.Draft file ∨ registry.StandsIn file

theorem Coming.save {clear : Prop} (platform : Platform) (h : registry.Coming file) (hvalid : registry.Valid) :
    (AccountRegistry.save platform registry).Sure clear file registry.Coming
      fun _ next => registry.StandsIn next ∧ next.target = some registry := by
  refine ⟨?_, fun _ => (save_succeeds platform hvalid).mono fun _ _ _ => trivial⟩
  rcases h with hdraft | hstands
  · exact hdraft.save platform hvalid
  · intro faults
    apply (hstands.save platform).mono
    intro ending next _ hnext
    cases ending with
    | done _ => exact hnext
    | failed _ => exact .inr (hnext.elim id id)
    | crashed => exact .inr (hnext.elim id id)

/-- No registry, and nothing that could be one. -/
structure NoRegistry (file : StateFile AccountRegistry) : Prop where
  target : file.target = none
  journal : file.journal = none
  pieces : file.pieces.values = []

theorem NoRegistry.draft (h : NoRegistry file) (registry : AccountRegistry) : registry.Draft file where
  target := h.target
  journal := h.journal
  holds := by
    refine ⟨fun found hfound => ?_, fun found hfound => ?_⟩
    · rw [h.target] at hfound
      cases hfound
    · rw [h.pieces] at hfound
      cases hfound

theorem NoRegistry.load (platform : Platform) (h : NoRegistry file) (faults : List Fault) :
    AccountRegistry.loadWithRecovery platform file faults = (.done none, file, faults) := by
  rw [(h.draft (AccountRegistry.newWithDefault "")).loadWithRecovery_eq platform faults]
  unfold recoverFromArtifacts
  change Durably.bind Durably.get _ file faults = _
  simp only [Durably.bind, Durably.get, h.pieces, h.target]
  rfl

theorem Coming.load (platform : Platform) (h : registry.Coming file) (hvalid : registry.Valid) :
    (AccountRegistry.loadWithRecovery platform).Guarded file registry.Coming
      fun found next => found = some registry ∧ registry.StandsIn next ∨
        found = none ∧ NoRegistry next := by
  rcases h with hdraft | hstands
  · apply (hdraft.loadWithRecovery platform hvalid).mono
    · exact fun _ hnext => hnext
    · rintro found next (hfound | ⟨hfound, rfl, hpieces⟩)
      · exact .inl hfound
      · exact .inr ⟨hfound, hdraft.target, hdraft.journal, hpieces⟩
  · intro faults
    apply (hstands.loadWithRecovery platform).mono
    intro ending next _ hnext
    cases ending with
    | done found => exact .inl ⟨(hnext.2 found rfl).1, hnext.1⟩
    | failed _ => exact .inr hnext.1
    | crashed => exact .inr hnext.1

theorem Coming.load_succeeds (platform : Platform) (h : registry.Coming file) (hvalid : registry.Valid)
    (hread : ¬ Unreadable file) :
    (AccountRegistry.loadWithRecovery platform).Succeeds file fun _ _ => True := by
  rcases h with hdraft | hstands
  · exact hdraft.loadWithRecovery_succeeds platform hvalid hread
  · exact (hstands.loadWithRecovery_succeeds platform).mono fun _ _ _ => trivial

theorem Coming.load_of_unreadable (platform : Platform) (h : registry.Coming file)
    (hvalid : registry.Valid) (hread : Unreadable file) (faults : List Fault) :
    ∃ text, AccountRegistry.loadWithRecovery platform file faults =
      (.failed (.invalidRegistry text), file, faults) := by
  rcases h with hdraft | hstands
  · exact ⟨_, hdraft.load_of_unreadable platform hvalid hread faults⟩
  · exfalso
    obtain ⟨source, backup, hjournal, hchosen⟩ := hstands.chosen hread.1
    have hhead := (chosen_eq_head? hstands.holds hjournal).symm.trans hchosen
    have hmem := List.mem_of_mem_head? hhead
    unfold StateFile.candidates at hmem
    rw [hjournal] at hmem
    obtain ⟨name, -, hname⟩ := List.mem_filterMap.mp hmem
    have hpiece := hread.2.2 (some registry)
      (Table.mem_values_iff.mpr ⟨name, Option.join_eq_some_iff.mp hname⟩)
    cases hpiece

end Draft

end AccountRegistry

/-- The registry of a first installation: the anonymous account alone. -/
def FirstRegistry (registry : AccountRegistry) : Prop :=
  ∃ created opened, registry =
    ⟨1, defaultAccountId, [{ AccountRecord.anonymousAt created with lastOpenedAt := opened }]⟩

section FirstRegistry

variable {registry : AccountRegistry}

theorem firstRegistry_new (now : String) : FirstRegistry (AccountRegistry.newWithDefault now) :=
  ⟨now, now, rfl⟩

theorem FirstRegistry.valid (h : FirstRegistry registry) : registry.Valid := by
  obtain ⟨created, opened, rfl⟩ := h
  rfl

theorem FirstRegistry.active (h : FirstRegistry registry) : registry.activeAccountId = defaultAccountId := by
  obtain ⟨created, opened, rfl⟩ := h
  rfl

theorem FirstRegistry.touch (h : FirstRegistry registry) (now : String) :
    FirstRegistry (registry.modify registry.activeAccountId (AccountRecord.touch now)) := by
  obtain ⟨created, opened, rfl⟩ := h
  exact ⟨created, now, rfl⟩

theorem FirstRegistry.context (h : FirstRegistry registry) (migrated : Bool) :
    ∃ context, ActiveAccountContext.ofRegistry registry migrated = .ok context ∧
      context.accountId = defaultAccountId := by
  obtain ⟨created, opened, rfl⟩ := h
  exact ⟨_, rfl, rfl⟩

end FirstRegistry

end Accounts

end ShishiTodo
