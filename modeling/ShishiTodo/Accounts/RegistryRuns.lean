import ShishiTodo.Accounts.Loading
import ShishiTodo.Lib.Machine

/-!
# The registry file across saves

Saves and loads of `accounts.json` one after another, each cut wherever it is cut. To the loads the file is a register: a save that comes to its end puts its registry there, and one that is cut puts it there or leaves what was there. It is not one before the first registry is in place, when temporary files may be left of which none can be read or no two agree.
-/

namespace ShishiTodo

namespace Accounts

open Lib

inductive RegistryEvent where
  | save (registry : AccountRegistry) (faults : List Fault)
  | load (faults : List Fault)
  deriving DecidableEq, Repr

namespace AccountRegistry

def registryRuns (platform : Platform) : Machine (StateFile AccountRegistry) RegistryEvent Empty where
  step file
    | .save registry faults => (save platform registry file faults).2.1
    | .load faults => (loadWithRecovery platform file faults).2.1
  emit _ _ := []

/-- Loading, where nothing goes wrong, returns the value. -/
def Recovers (platform : Platform) (value : Option AccountRegistry) (file : StateFile AccountRegistry) :
    Prop :=
  (loadWithRecovery platform).Succeeds file fun found _ => found = value

/-- What is asked of a step. Loading is good before and after it. A save that comes to its end is what is loaded then; one that is not leaves what was loaded before, or it is loaded itself. A load, cut or not, changes nothing of that, and what it returns is that. -/
def Registers (platform : Platform) (file : StateFile AccountRegistry) (event : RegistryEvent) : Prop :=
  ∃ value, Recovers platform value file ∧
    match event with
    | .save registry faults =>
        (save platform registry).Meets file faults fun ending next _ =>
          match ending with
          | .done _ => Recovers platform (some registry) next
          | _ => Recovers platform value next ∨ Recovers platform (some registry) next
    | .load faults =>
        (loadWithRecovery platform).Meets file faults fun ending next _ =>
          Recovers platform value next ∧ ∀ found, ending = .done found → found = value

/-- No registry was ever in place, and files were left over of which none can be read, or two that can be read differ. -/
def Blocked (file : StateFile AccountRegistry) : Prop :=
  file.target = none ∧ file.journal = none ∧ file.pieces.values ≠ [] ∧
    ¬ ∃ registry ∈ readable file, ∀ other ∈ readable file, other = registry

section Blocked

variable {platform : Platform} {registry next : AccountRegistry} {file : StateFile AccountRegistry}
  {value : Option AccountRegistry} {faults : List Fault}

theorem load_of_blocked (h : Blocked file) : ¬ Recovers platform value file := by
  obtain ⟨htarget, hjournal, hvalues, hnone⟩ := h
  have hload : loadWithRecovery platform file [] = recoverFromArtifacts platform file [] := by
    unfold loadWithRecovery recoverFromJournal
    change Durably.bind Durably.get _ file [] = _
    simp only [Durably.bind, Durably.get, htarget, readRegistryFile, Except.toOption]
    change Durably.bind (Durably.bind Durably.get _) _ file [] = _
    simp only [Durably.bind, Durably.get, hjournal]
    rfl
  have hfails : (recoverFromArtifacts platform).Fails file fun _ _ => True := by
    unfold recoverFromArtifacts
    apply Durably.fails_get_bind
    dsimp only
    rcases hreadable : readable file with _ | ⟨first, rest⟩
    · have hunique : uniqueRegistries (readable file) = .ok none := by
        rw [hreadable]
        rfl
      apply Durably.fails_ofExcept_bind hunique
      have hsome : file.pieces.values.isEmpty = false := List.isEmpty_eq_false_iff.mpr hvalues
      rw [htarget, hsome]
      exact Durably.fails_throw trivial
    · have hdiffer : (rest.any fun candidate => candidate != first) = true := by
        by_contra hsame
        apply hnone
        refine ⟨first, hreadable ▸ List.mem_cons_self, fun other hother => ?_⟩
        rw [hreadable] at hother
        rcases List.mem_cons.mp hother with rfl | hrest
        · rfl
        · by_contra hother
          exact hsame (List.any_eq_true.mpr ⟨other, hrest, bne_iff_ne.mpr hother⟩)
      have hunique : uniqueRegistries (readable file) =
          .error (.invalidRegistry "multiple conflicting registry replacement artifacts") := by
        rw [hreadable, uniqueRegistries, hdiffer]
        rfl
      refine ⟨.invalidRegistry "multiple conflicting registry replacement artifacts", file, ?_, trivial⟩
      change Durably.bind (Durably.ofExcept (uniqueRegistries (readable file))) _ file [] = _
      rw [hunique]
      rfl
  have hstops : (loadWithRecovery platform).Fails file fun _ _ => True := by
    obtain ⟨error, left, hrun, -⟩ := hfails
    exact ⟨error, left, hload.trans hrun, trivial⟩
  exact hstops.not_succeeds

theorem mem_readable_iff : registry ∈ readable file ↔ registry.Valid ∧ some registry ∈ file.pieces.values := by
  unfold readable
  rw [List.mem_filterMap]
  constructor
  · rintro ⟨content, hcontent, hread⟩
    cases content with
    | none => cases hread
    | some found =>
        rcases hvalid : found.validate with error | _
        · simp [readRegistryFile, hvalid, bind, Except.bind, Except.toOption] at hread
        · rw [readRegistryFile_of_valid hvalid] at hread
          rw [← Option.some.inj hread]
          exact ⟨hvalid, hcontent⟩
  · rintro ⟨hvalid, hmem⟩
    refine ⟨some registry, hmem, ?_⟩
    rw [readRegistryFile_of_valid hvalid]
    rfl

end Blocked

/-! ### What is in the register -/

/-- A registry that was never in place but lies in a temporary file, where a restart finds it. -/
structure Lies (registry : AccountRegistry) (file : StateFile AccountRegistry) : Prop where
  draft : registry.Draft file
  valid : registry.Valid
  read : some registry ∈ file.pieces.values
  fresh : ∀ name content, file.pieces.lookup name = some content → name < file.names

/-- The value of the register. -/
def Kept (file : StateFile AccountRegistry) : Option AccountRegistry → Prop
  | none => NoRegistry file
  | some registry => registry.StandsIn file ∨ registry.Lies file

section Kept

variable {platform : Platform} {registry next : AccountRegistry} {file left : StateFile AccountRegistry}
  {value : Option AccountRegistry} {faults : List Fault}

theorem Lies.unique (h : registry.Lies file) : uniqueRegistries (readable file) = .ok (some registry) := by
  rw [h.draft.unique, if_neg]
  exact List.ne_nil_of_mem (mem_readable_iff.mpr ⟨h.valid, h.read⟩)

/-- The temporary file is loaded and put in place. -/
theorem Lies.load (platform : Platform) (h : registry.Lies file) (faults : List Fault) :
    loadWithRecovery platform file faults =
      (do
        save platform registry
        return some registry : Durably (StateFile AccountRegistry) AccountError (Option AccountRegistry))
        file faults := by
  have hunique := h.unique
  unfold readable at hunique
  rw [h.draft.loadWithRecovery_eq platform faults]
  unfold recoverFromArtifacts
  change Durably.bind Durably.get _ file faults = _
  simp only [Durably.bind, Durably.get, hunique]
  rfl

theorem Kept.recovers (platform : Platform) (h : Kept file value) : Recovers platform value file := by
  cases value with
  | none => exact ⟨none, file, NoRegistry.load platform h [], rfl⟩
  | some registry =>
      rcases h with hstands | hlies
      · exact (hstands.loadWithRecovery_succeeds platform).mono fun _ _ hfound => hfound.1
      · have hsaved : (do
            save platform registry
            return some registry :
              Durably (StateFile AccountRegistry) AccountError (Option AccountRegistry)).Succeeds file
                fun found _ => found = some registry :=
          (save_succeeds platform hlies.valid).bind fun _ _ _ => Durably.succeeds_pure rfl
        obtain ⟨found, next, hrun, hfound⟩ := hsaved
        exact ⟨found, next, (hlies.load platform []).trans hrun, hfound⟩

/-- The first registry that is put in place stands. -/
theorem standsIn_first (hjournal : file.journal = none) (hholds : file.Holds Valid) (hvalid : next.Valid) :
    next.StandsIn ((file.create.fill file.names next).publish file.names next) where
  named := by
    intro source backup hnames
    have hnone : some (some (source, backup)) = (none : Option (Option (Nat × Nat))) :=
      hnames.symm.trans hjournal
    cases hnone
  holds := (hholds.create.fill hvalid).publish hvalid
  current := rfl

theorem NoRegistry.lookup (h : NoRegistry file) (name : Nat) : file.pieces.lookup name = none := by
  rcases hlookup : file.pieces.lookup name with _ | content
  · rfl
  · have hmem := Table.mem_values_iff.mpr ⟨name, hlookup⟩
    rw [h.pieces] at hmem
    cases hmem

theorem NoRegistry.holds (h : NoRegistry file) : file.Holds Valid :=
  ⟨fun found hfound => (by rw [h.target] at hfound; cases hfound),
    fun found hfound => (by rw [h.pieces] at hfound; cases hfound)⟩

/-- The first save that is cut leaves nothing, or its registry, or a file that cannot be read. -/
theorem NoRegistry.drafted (h : NoRegistry file) (hvalid : next.Valid)
    (hdrafted : StateFile.Drafted next file left) :
    NoRegistry left ∨ next.Lies left ∨ Blocked left := by
  cases hdrafted with
  | untouched => exact .inl h
  | begun =>
      right
      right
      have hcreated : file.create.pieces.lookup file.names = some none := AList.lookup_insert _
      refine ⟨h.target, h.journal, List.ne_nil_of_mem (Table.mem_values_iff.mpr ⟨_, hcreated⟩), ?_⟩
      rintro ⟨registry, hread, -⟩
      obtain ⟨name, hname⟩ := Table.mem_values_iff.mp (mem_readable_iff.mp hread).2
      simp only [StateFile.create, Table.lookup_insert_eq_ite, h.lookup] at hname
      split at hname
      · cases hname
      · cases hname
  | written =>
      right
      left
      have hlookup : ∀ name content,
          (file.create.fill file.names next).pieces.lookup name = some content →
            name = file.names ∧ content = some next := by
        intro name content hname
        simp only [StateFile.create, StateFile.fill, Table.lookup_insert_eq_ite, h.lookup] at hname
        split at hname
        · exact ⟨‹_›, (Option.some.inj hname).symm⟩
        · cases hname
      refine ⟨⟨h.target, h.journal, ?_, ?_⟩, hvalid, ?_, ?_⟩
      · intro found hfound
        have hnone : some found = none := hfound.symm.trans h.target
        cases hnone
      · intro found hfound
        obtain ⟨name, hname⟩ := Table.mem_values_iff.mp hfound
        exact Option.some.inj (hlookup name _ hname).2
      · exact Table.mem_values_iff.mpr ⟨file.names, AList.lookup_insert _⟩
      · intro name content hname
        rw [(hlookup name content hname).1]
        exact Nat.lt_succ_self _
  | discarded =>
      left
      refine ⟨h.target, h.journal, ?_⟩
      apply List.eq_nil_iff_forall_not_mem.mpr
      intro content hcontent
      obtain ⟨name, hname⟩ := Table.mem_values_iff.mp hcontent
      simp only [StateFile.create, StateFile.fill, StateFile.discard, Table.lookup_erase_eq_ite,
        Table.lookup_insert_eq_ite, h.lookup] at hname
      split at hname
      · cases hname
      · cases hname

/-- A temporary file more leaves the registry that lies there where it is, or it is at odds with it. -/
theorem Lies.beside (h : registry.Lies file) (hvalid : next.Valid) (hbeside : file.Beside left)
    (hnew : ∀ name content, left.pieces.lookup name = some content →
      name < file.names ∨ name < left.names ∧ (content = none ∨ content = some next)) :
    registry.Lies left ∨ Blocked left := by
  have hread : some registry ∈ left.pieces.values := by
    obtain ⟨name, hname⟩ := Table.mem_values_iff.mp h.read
    have hsame := hbeside.others name (h.fresh name _ hname)
    exact Table.mem_values_iff.mpr ⟨name, hsame.trans hname⟩
  have htarget := hbeside.target.trans h.draft.target
  have hjournal := hbeside.journal.trans h.draft.journal
  have hfrom : ∀ found, some found ∈ left.pieces.values → found = registry ∨ found = next := by
    intro found hfound
    obtain ⟨name, hname⟩ := Table.mem_values_iff.mp hfound
    rcases hnew name _ hname with hold | ⟨-, hnone | hsome⟩
    · rw [hbeside.others name hold] at hname
      exact .inl (h.draft.holds.2 found (Table.mem_values_iff.mpr ⟨name, hname⟩))
    · cases hnone
    · exact .inr (Option.some.inj hsome)
  by_cases hodds : some next ∈ left.pieces.values ∧ next ≠ registry
  · right
    refine ⟨htarget, hjournal, List.ne_nil_of_mem hread, ?_⟩
    rintro ⟨only, -, hall⟩
    have hfirst := hall registry (mem_readable_iff.mpr ⟨h.valid, hread⟩)
    have hsecond := hall next (mem_readable_iff.mpr ⟨hvalid, hodds.1⟩)
    exact hodds.2 (hsecond.trans hfirst.symm)
  · left
    refine ⟨⟨htarget, hjournal, ?_, ?_⟩, h.valid, hread, ?_⟩
    · intro found hfound
      rw [htarget] at hfound
      cases hfound
    · intro found hfound
      rcases hfrom found hfound with hsame | rfl
      · exact hsame
      · by_contra hdiffers
        exact hodds ⟨hfound, hdiffers⟩
    · intro name content hname
      rcases hnew name content hname with hold | ⟨hlater, -⟩
      · exact Nat.lt_of_lt_of_le hold hbeside.names
      · exact hlater

theorem Lies.drafted (h : registry.Lies file) (hvalid : next.Valid)
    (hdrafted : StateFile.Drafted next file left) : registry.Lies left ∨ Blocked left := by
  have hcreated := StateFile.Beside.create file
  have hfilled : file.Beside (file.create.fill file.names next) := hcreated.fill (Nat.le_refl _)
  cases hdrafted with
  | untouched => exact .inl h
  | begun =>
      apply h.beside hvalid hcreated
      intro name content hname
      simp only [StateFile.create, Table.lookup_insert_eq_ite] at hname
      split at hname
      · rename_i hlast
        cases hname
        exact .inr ⟨hlast.trans_lt (Nat.lt_succ_self _), .inl rfl⟩
      · exact .inl (h.fresh name content hname)
  | written =>
      apply h.beside hvalid hfilled
      intro name content hname
      simp only [StateFile.create, StateFile.fill, Table.lookup_insert_eq_ite] at hname
      split at hname
      · rename_i hlast
        cases hname
        exact .inr ⟨hlast.trans_lt (Nat.lt_succ_self _), .inr rfl⟩
      · exact .inl (h.fresh name content hname)
  | discarded =>
      apply h.beside hvalid (hfilled.discard (Nat.le_refl _))
      intro name content hname
      simp only [StateFile.create, StateFile.fill, StateFile.discard, Table.lookup_erase_eq_ite,
        Table.lookup_insert_eq_ite] at hname
      split at hname
      · cases hname
      · exact .inl (h.fresh name content hname)

/-- A save from where no registry was ever in place. -/
theorem save_first (platform : Platform) (htarget : file.target = none) (hjournal : file.journal = none)
    (hholds : file.Holds Valid) :
    (save platform next).Guarded file
      (fun left => left = file ∨ next.Valid ∧ StateFile.Drafted next file left)
      fun _ left => next.StandsIn left := by
  unfold save
  apply Durably.guarded_ofExcept_bind (.inl rfl)
  intro _ hvalid
  apply (StateFile.writeJsonAtomic_drafts platform htarget).mono
  · exact fun _ hdrafted => .inr ⟨hvalid, hdrafted⟩
  · intro _ left hleft
    rw [hleft]
    exact standsIn_first hjournal hholds hvalid

/-- What a save leaves in the register. -/
theorem Kept.save (platform : Platform) (next : AccountRegistry) (h : Kept file value) :
    (AccountRegistry.save platform next).Guarded file
      (fun left => Kept left value ∨ Kept left (some next) ∨ Blocked left)
      fun _ left => Kept left (some next) := by
  cases value with
  | none =>
      have hnone : NoRegistry file := h
      apply (save_first platform hnone.target hnone.journal hnone.holds).mono
      · rintro left (rfl | ⟨hvalid, hdrafted⟩)
        · exact .inl hnone
        · exact (hnone.drafted hvalid hdrafted).imp_right fun hlies => hlies.imp_left .inr
      · exact fun _ _ hstands => .inl hstands
  | some registry =>
      rcases h with hstands | hlies
      · intro faults
        apply (hstands.save platform).mono
        intro ending left _ hleft
        cases ending with
        | done _ => exact .inl hleft.1
        | failed _ => exact hleft.imp .inl fun hnew => .inl (.inl hnew)
        | crashed => exact hleft.imp .inl fun hnew => .inl (.inl hnew)
      · have hholds : file.Holds Valid :=
          ⟨fun found hfound => hlies.draft.holds.1 found hfound ▸ hlies.valid,
            fun found hfound => hlies.draft.holds.2 found hfound ▸ hlies.valid⟩
        apply (save_first platform hlies.draft.target hlies.draft.journal hholds).mono
        · rintro left (rfl | ⟨hvalid, hdrafted⟩)
          · exact .inl (.inr hlies)
          · exact (hlies.drafted hvalid hdrafted).imp .inr .inr
        · exact fun _ _ hnew => .inl hnew

/-- A load leaves the register as it is, and returns what is in it. -/
theorem Kept.load (platform : Platform) (h : Kept file value) :
    (loadWithRecovery platform).Guarded file (fun left => Kept left value ∨ Blocked left)
      fun found left => Kept left value ∧ found = value := by
  cases value with
  | none =>
      intro faults
      unfold Durably.Meets
      rw [NoRegistry.load platform h faults]
      exact ⟨h, rfl⟩
  | some registry =>
      rcases h with hstands | hlies
      · intro faults
        apply (hstands.loadWithRecovery platform).mono
        intro ending left _ hleft
        cases ending with
        | done found => exact ⟨.inl hleft.1, (hleft.2 found rfl).1⟩
        | failed _ => exact .inl (.inl hleft.1)
        | crashed => exact .inl (.inl hleft.1)
      · have hkept : Kept file (some registry) := .inr hlies
        have hsaved : (do
            AccountRegistry.save platform registry
            return some registry :
              Durably (StateFile AccountRegistry) AccountError (Option AccountRegistry)).Guarded file
                (fun left => Kept left (some registry) ∨ Blocked left)
                fun found left => Kept left (some registry) ∧ found = some registry := by
          have hsave : (AccountRegistry.save platform registry).Guarded file
              (fun left => Kept left (some registry) ∨ Blocked left)
              fun _ left => Kept left (some registry) :=
            (hkept.save platform registry).mono (fun _ hleft => hleft.elim .inl id) fun _ _ hleft => hleft
          exact hsave.bind fun _ _ hleft => Durably.guarded_pure ⟨hleft, rfl⟩
        intro faults
        unfold Durably.Meets
        rw [hlies.load platform faults]
        exact hsaved faults

/-! ### Every run -/

theorem registers_iff (event : RegistryEvent) (h : Kept file value) :
    Registers platform file event ↔ ¬ Blocked ((registryRuns platform).step file event) := by
  constructor
  · rintro ⟨before, -, hevent⟩ hblocked
    cases event with
    | save registry faults =>
        dsimp only [registryRuns] at hblocked hevent
        unfold Durably.Meets at hevent
        revert hblocked hevent
        generalize AccountRegistry.save platform registry file faults = outcome
        obtain ⟨ending, left, rest⟩ := outcome
        intro hevent hblocked
        cases ending with
        | done _ => exact load_of_blocked hblocked hevent
        | failed _ => exact hevent.elim (load_of_blocked hblocked) (load_of_blocked hblocked)
        | crashed => exact hevent.elim (load_of_blocked hblocked) (load_of_blocked hblocked)
    | load faults => exact load_of_blocked hblocked hevent.1
  · intro hfree
    refine ⟨value, h.recovers platform, ?_⟩
    cases event with
    | save registry faults =>
        have hsaved := h.save platform registry faults
        dsimp only [registryRuns] at hfree ⊢
        unfold Durably.Meets at hsaved ⊢
        revert hsaved hfree
        generalize AccountRegistry.save platform registry file faults = outcome
        obtain ⟨ending, left, rest⟩ := outcome
        intro hfree hsaved
        have hcut : Kept left value ∨ Kept left (some registry) ∨ Blocked left →
            Recovers platform value left ∨ Recovers platform (some registry) left := by
          rintro (hold | hnew | hblocked)
          · exact .inl (hold.recovers platform)
          · exact .inr (hnew.recovers platform)
          · exact absurd hblocked hfree
        cases ending with
        | done _ => exact Kept.recovers platform hsaved
        | failed _ => exact hcut hsaved
        | crashed => exact hcut hsaved
    | load faults =>
        have hloaded := h.load platform faults
        dsimp only [registryRuns] at hfree ⊢
        unfold Durably.Meets at hloaded ⊢
        revert hloaded hfree
        generalize loadWithRecovery platform file faults = outcome
        obtain ⟨ending, left, rest⟩ := outcome
        intro hfree hloaded
        have hcut : Kept left value ∨ Blocked left → Recovers platform value left := fun hleft =>
          (hleft.resolve_right hfree).recovers platform
        cases ending with
        | done found =>
            exact ⟨Kept.recovers platform hloaded.1, fun other hother => by cases hother; exact hloaded.2⟩
        | failed _ => exact ⟨hcut hloaded, nofun⟩
        | crashed => exact ⟨hcut hloaded, nofun⟩

theorem kept_step (event : RegistryEvent) (h : ∃ value, Kept file value)
    (hfree : ¬ Blocked ((registryRuns platform).step file event)) :
    ∃ value, Kept ((registryRuns platform).step file event) value := by
  obtain ⟨value, hkept⟩ := h
  cases event with
  | save registry faults =>
      have hsaved := hkept.save platform registry faults
      dsimp only [registryRuns] at hfree ⊢
      unfold Durably.Meets at hsaved
      revert hsaved hfree
      generalize AccountRegistry.save platform registry file faults = outcome
      obtain ⟨ending, left, rest⟩ := outcome
      intro hfree hsaved
      have hcut : Kept left value ∨ Kept left (some registry) ∨ Blocked left →
          ∃ after, Kept left after := by
        rintro (hold | hnew | hblocked)
        · exact ⟨value, hold⟩
        · exact ⟨some registry, hnew⟩
        · exact absurd hblocked hfree
      cases ending with
      | done _ => exact ⟨some registry, hsaved⟩
      | failed _ => exact hcut hsaved
      | crashed => exact hcut hsaved
  | load faults =>
      have hloaded := hkept.load platform faults
      dsimp only [registryRuns] at hfree ⊢
      unfold Durably.Meets at hloaded
      revert hloaded hfree
      generalize loadWithRecovery platform file faults = outcome
      obtain ⟨ending, left, rest⟩ := outcome
      intro hfree hloaded
      cases ending with
      | done _ => exact ⟨value, hloaded.1⟩
      | failed _ => exact ⟨value, hloaded.resolve_right hfree⟩
      | crashed => exact ⟨value, hloaded.resolve_right hfree⟩

theorem noRegistry_empty : NoRegistry .empty := ⟨rfl, rfl, rfl⟩

/-- To the loads of a run the file is a register exactly as long as no leftovers of saves before the first registry block it. -/
theorem registry_recoverable_iff (platform : Platform) (events : List RegistryEvent) :
    (registryRuns platform).Along (Registers platform) .empty events ↔
      (registryRuns platform).Along
        (fun file event => ¬ Blocked ((registryRuns platform).step file event)) .empty events := by
  apply (registryRuns platform).along_congr (fun file => ∃ value, Kept file value)
  · exact fun file event hkept hfree => kept_step event hkept hfree
  · rintro file event ⟨value, hkept⟩
    exact registers_iff event hkept
  · exact ⟨none, noRegistry_empty⟩

/-- The first save dies while it writes its temporary file, and every load after it is refused. -/
theorem half_written_registry_blocks :
    ¬ (registryRuns .unix).Along (Registers .unix) .empty
      [.save (newWithDefault "t0") [.none, .crash], .load []] := by
  rintro ⟨-, ⟨value, ⟨found, next, hrun, -⟩, -⟩, -⟩
  have hrefused : loadWithRecovery .unix ((registryRuns .unix).step .empty
      (.save (newWithDefault "t0") [.none, .crash])) [] =
      (.failed (.invalidRegistry "registry replacement artifacts exist but none is valid"),
        StateFile.empty.create, []) := rfl
  rw [hrefused] at hrun
  cases hrun

end Kept

end AccountRegistry

end Accounts

end ShishiTodo
