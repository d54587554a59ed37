import ShishiTodo.Accounts.Files
import ShishiTodo.Codecs
import ShishiTodo.Lib.Except

/-!
# The account registry

`accounts.json` (`registry.rs`): which accounts there are and which one is active. A registry that does not pass its own check is never written, and a restart that finds none looks for one in what an interrupted write left.
-/

namespace ShishiTodo

namespace Accounts

open Lib

def defaultAccountId : String := "default"

/-- `default`, or a UUID in the spelling its printer gives. -/
def validateAccountId (id : String) : Except AccountError Unit :=
  if id = defaultAccountId then .ok ()
  else match Codecs.uuid.parse id with
    | none => .error (.invalidAccountId id)
    | some parsed => refuseIf (Codecs.uuid.render parsed ≠ id) (.invalidAccountId id)

/-- `trim().to_ascii_lowercase()`. -/
def normalizeEmail (email : String) : String :=
  String.ofList ((trim email).toList.map Char.toLower)

def validEmail (email : String) : Bool :=
  let trimmed := trim email
  let parts := trimmed.toList.splitOn '@'
  decide (trimmed.utf8ByteSize ≤ 320) && !trimmed.toList.any isWhitespace &&
    parts.length == 2 && parts.all (!·.isEmpty)

def normalizeApiUrl (apiUrl : String) : Except AccountError String := do
  let trimmed := ((trim apiUrl).toList.reverse.dropWhile (· == '/')).reverse
  refuseIf (trimmed.isEmpty ∨ trimmed.any isWhitespace)
    (.invalidRegistry "api url must be an absolute http(s) URL")
  let canonical := trimmed.map Char.toLower
  refuseIf (¬ ("http://".toList.isPrefixOf canonical ∨ "https://".toList.isPrefixOf canonical))
    (.invalidRegistry "api url must be an absolute http(s) URL")
  return String.ofList canonical

inductive AccountKind where
  | anonymous
  | cloud
  deriving DecidableEq, Repr

structure AccountRecord where
  id : String
  kind : AccountKind
  email : Option String
  apiUrl : Option String
  pending : Bool
  createdAt : String
  schemaVersion : Nat
  lastOpenedAt : String
  deriving DecidableEq, Repr

namespace AccountRecord

def anonymousAt (now : String) : AccountRecord :=
  ⟨defaultAccountId, .anonymous, none, none, false, now, 1, now⟩

def cloudWithId (now id email : String) : AccountRecord :=
  ⟨id, .cloud, some (normalizeEmail email), none, false, now, 1, now⟩

def cloudWithIdentity (now id email apiUrl : String) (pending : Bool) :
    Except AccountError AccountRecord := do
  let apiUrl ← normalizeApiUrl apiUrl
  return ⟨id, .cloud, some (normalizeEmail email), some apiUrl, pending, now, 1, now⟩

def touch (now : String) (record : AccountRecord) : AccountRecord := { record with lastOpenedAt := now }

/-- What a record must be by its kind. -/
def validateKind (account : AccountRecord) : Except AccountError Unit :=
  match account.kind with
  | .anonymous => do
      refuseIf (account.id ≠ defaultAccountId)
        (.invalidRegistry ("anonymous account must be " ++ defaultAccountId))
      refuseIf account.email.isSome
        (.invalidRegistry "anonymous account must not contain email")
      refuseIf (account.apiUrl.isSome ∨ account.pending)
        (.invalidRegistry "anonymous account must not have server identity")
  | .cloud => do
      refuseIf (account.id = defaultAccountId)
        (.invalidRegistry "cloud account cannot use default id")
      match account.email.filter validEmail with
      | none => .error (.invalidRegistry ("cloud account " ++ account.id ++ " has invalid email"))
      | some email => do
          refuseIf (email ≠ normalizeEmail email)
            (.invalidRegistry ("cloud account " ++ account.id ++ " email is not normalized"))
          match account.apiUrl with
          | some apiUrl => do
              let normalized ← normalizeApiUrl apiUrl
              refuseIf (normalized ≠ apiUrl)
                (.invalidRegistry ("cloud account " ++ account.id ++ " api url is not normalized"))
          | none =>
              refuseIf account.pending
                (.invalidRegistry ("pending account " ++ account.id ++ " must have an api url"))

/-- One turn of the loop over the accounts; `ids` are those before. -/
def validate (ids : List String) (account : AccountRecord) : Except AccountError (List String) := do
  validateAccountId account.id
  refuseIf (account.id ∈ ids) (.invalidRegistry ("duplicate account id " ++ account.id))
  refuseIf (account.schemaVersion = 0)
    (.invalidRegistry ("account " ++ account.id ++ " has zero schema version"))
  account.validateKind
  return ids ++ [account.id]

end AccountRecord

structure AccountRegistry where
  version : Nat
  activeAccountId : String
  accounts : List AccountRecord
  deriving DecidableEq, Repr

namespace AccountRegistry

def newWithDefault (now : String) : AccountRegistry :=
  ⟨1, defaultAccountId, [AccountRecord.anonymousAt now]⟩

def validate (registry : AccountRegistry) : Except AccountError Unit := do
  refuseIf (registry.version ≠ 1) (.invalidRegistry ("unsupported registry version " ++ toString registry.version))
  refuseIf registry.accounts.isEmpty (.invalidRegistry "registry has no accounts")
  let ids ← registry.accounts.foldlM AccountRecord.validate []
  refuseIf (registry.activeAccountId ∉ ids)
    (.invalidRegistry ("active account " ++ registry.activeAccountId ++ " is not registered"))

/-- It passes its own check. -/
def Valid (registry : AccountRegistry) : Prop := registry.validate = .ok ()

def ids (registry : AccountRegistry) : List String := registry.accounts.map AccountRecord.id

def account (registry : AccountRegistry) (id : String) : Option AccountRecord :=
  registry.accounts.find? fun account => account.id == id

/-- What `account_mut` gives access to. -/
def modify (registry : AccountRegistry) (id : String) (change : AccountRecord → AccountRecord) :
    AccountRegistry :=
  { registry with
    accounts := registry.accounts.map fun account => if account.id = id then change account else account }

def findCloudByEmail (registry : AccountRegistry) (email : String) : Option AccountRecord :=
  registry.accounts.find? fun account =>
    account.kind == .cloud && account.email == some (normalizeEmail email)

def findCloudByIdentity (registry : AccountRegistry) (email apiUrl : String) : Option AccountRecord :=
  match normalizeApiUrl apiUrl with
  | .error _ => none
  | .ok apiUrl => registry.accounts.find? fun account =>
      account.kind == .cloud && account.email == some (normalizeEmail email) &&
        account.apiUrl == some apiUrl

def ensureDefault (now : String) (registry : AccountRegistry) : AccountRegistry :=
  if (registry.account defaultAccountId).isSome then registry
  else { registry with accounts := registry.accounts ++ [AccountRecord.anonymousAt now] }

def upsert (registry : AccountRegistry) (record : AccountRecord) : Except AccountError AccountRegistry := do
  validateAccountId record.id
  return if (registry.account record.id).isSome then registry.modify record.id fun _ => record
    else { registry with accounts := registry.accounts ++ [record] }

def setActive (registry : AccountRegistry) (id : String) : Except AccountError AccountRegistry := do
  refuseIf ((registry.account id).isNone)
    (.invalidRegistry ("active account " ++ id ++ " is not registered"))
  return { registry with activeAccountId := id }

/-! ### On disk -/

/-- `read_registry_file` on the bytes of a file. -/
def readRegistryFile (content : Option AccountRegistry) : Except AccountError AccountRegistry :=
  match content with
  | none => .error .json
  | some registry => do
      registry.validate
      return registry

def load : Durably (StateFile AccountRegistry) AccountError AccountRegistry := do
  let file ← .get
  match file.target with
  | none => .throw (.io "read accounts.json")
  | some registry => .ofExcept (readRegistryFile (some registry))

def save (platform : Platform) (registry : AccountRegistry) :
    Durably (StateFile AccountRegistry) AccountError Unit := do
  .ofExcept registry.validate
  StateFile.writeJsonAtomic platform registry

/-- The first of the files a replacement journal names that is there and can be read. -/
def chosen (file : StateFile AccountRegistry) (source backup : Nat) : Option AccountRegistry :=
  ([source, backup].filterMap fun name => file.pieces.lookup name).findSome? fun content =>
    (readRegistryFile content).toOption

def recoverFromJournal (platform : Platform) :
    Durably (StateFile AccountRegistry) AccountError (Option AccountRegistry) := do
  let file ← .get
  match file.journal with
  | none => pure none
  | some none => .throw (.invalidRegistry "replacement journal has no backup")
  | some (some (source, backup)) =>
      match chosen file source backup with
      | none => .throw (.invalidRegistry "replacement journal candidates are missing or invalid")
      | some registry => do
          save platform registry
          .ignore (.step StateFile.removeJournal (.io "remove"))
          return some registry

def uniqueRegistries : List AccountRegistry → Except AccountError (Option AccountRegistry)
  | [] => .ok none
  | first :: rest => do
      refuseIf (rest.any fun candidate => candidate != first)
        (.invalidRegistry "multiple conflicting registry replacement artifacts")
      return some first

/-- The search through the temporary files and backups. -/
def recoverFromArtifacts (platform : Platform) :
    Durably (StateFile AccountRegistry) AccountError (Option AccountRegistry) := do
  let file ← .get
  let contents := file.pieces.values
  match ← .ofExcept (uniqueRegistries (contents.filterMap fun content =>
      (readRegistryFile content).toOption)) with
  | some registry => do
      save platform registry
      return some registry
  | none =>
      if file.target.isSome then
        .throw (.invalidRegistry "accounts.json is corrupt and no valid replacement backup exists")
      else if contents.isEmpty then pure none
      else .throw (.invalidRegistry "registry replacement artifacts exist but none is valid")

def loadWithRecovery (platform : Platform) :
    Durably (StateFile AccountRegistry) AccountError (Option AccountRegistry) := do
  let file ← .get
  match (readRegistryFile file.target).toOption with
  | some registry => pure (some registry)
  | none =>
      match ← recoverFromJournal platform with
      | some registry => pure (some registry)
      | none => recoverFromArtifacts platform

/-! ### Accounts stay -/

theorem isSome_account_iff {registry : AccountRegistry} {id : String} :
    (registry.account id).isSome ↔ id ∈ registry.ids := by
  simp [account, ids, List.find?_isSome]

theorem ids_modify {registry : AccountRegistry} {id : String} {change : AccountRecord → AccountRecord}
    (hchange : ∀ record, record.id = id → (change record).id = id) :
    (registry.modify id change).ids = registry.ids := by
  simp only [ids, modify, List.map_map]
  apply List.map_congr_left
  intro record _
  by_cases hid : record.id = id
  · simp [hid, hchange record hid]
  · simp [hid]

/-- Adding or replacing a record loses no account and leaves the active one. -/
theorem upsert_keeps {registry next : AccountRegistry} {record : AccountRecord}
    (h : registry.upsert record = .ok next) :
    next.activeAccountId = registry.activeAccountId ∧ registry.ids ⊆ next.ids := by
  unfold upsert at h
  obtain ⟨_, -, hnext⟩ := bind_eq_ok_iff.mp h
  cases hnext
  split
  · exact ⟨rfl, (ids_modify fun _ _ => rfl).symm ▸ List.Subset.refl _⟩
  · exact ⟨rfl, by simp [ids]⟩

/-! ### What the check says -/

theorem validate_accounts {accounts : List AccountRecord} {before after : List String}
    (h : accounts.foldlM AccountRecord.validate before = .ok after) :
    after = before ++ accounts.map AccountRecord.id ∧
      ∀ account ∈ accounts, validateAccountId account.id = .ok () := by
  induction accounts generalizing before with
  | nil =>
      cases h
      simp
  | cons account rest ih =>
      rw [List.foldlM_cons] at h
      obtain ⟨ids, haccount, hrest⟩ := bind_eq_ok_iff.mp h
      unfold AccountRecord.validate at haccount
      obtain ⟨_, hid, haccount⟩ := bind_eq_ok_iff.mp haccount
      obtain ⟨_, -, haccount⟩ := bind_eq_ok_iff.mp haccount
      obtain ⟨_, -, haccount⟩ := bind_eq_ok_iff.mp haccount
      obtain ⟨_, -, haccount⟩ := bind_eq_ok_iff.mp haccount
      cases haccount
      obtain ⟨rfl, hall⟩ := ih hrest
      refine ⟨by simp, fun other hother => ?_⟩
      rcases List.mem_cons.mp hother with rfl | hmem
      · exact hid
      · exact hall other hmem

theorem valid_iff {registry : AccountRegistry} :
    registry.Valid ↔ registry.version = 1 ∧ registry.accounts ≠ [] ∧
      registry.accounts.foldlM AccountRecord.validate [] = .ok registry.ids ∧
      registry.activeAccountId ∈ registry.ids := by
  unfold Valid validate
  constructor
  · intro h
    obtain ⟨_, hversion, h⟩ := bind_eq_ok_iff.mp h
    obtain ⟨_, hsome, h⟩ := bind_eq_ok_iff.mp h
    obtain ⟨ids, haccounts, hactive⟩ := bind_eq_ok_iff.mp h
    obtain ⟨rfl, -⟩ := validate_accounts haccounts
    exact ⟨not_not.mp (refuseIf_eq_ok_iff.mp hversion), by simpa using refuseIf_eq_ok_iff.mp hsome,
      haccounts, not_not.mp (refuseIf_eq_ok_iff.mp hactive)⟩
  · rintro ⟨hversion, hsome, haccounts, hactive⟩
    simp only [bind_eq_ok_iff]
    exact ⟨(), refuseIf_eq_ok_iff.mpr (not_not.mpr hversion), (),
      refuseIf_eq_ok_iff.mpr (by simpa using hsome), registry.ids, haccounts,
      refuseIf_eq_ok_iff.mpr (not_not.mpr hactive)⟩

theorem Valid.active_mem {registry : AccountRegistry} (h : registry.Valid) :
    registry.activeAccountId ∈ registry.ids :=
  (valid_iff.mp h).2.2.2

theorem Valid.validateAccountId {registry : AccountRegistry} (h : registry.Valid) {id : String}
    (hid : id ∈ registry.ids) : validateAccountId id = .ok () := by
  obtain ⟨account, hmem, rfl⟩ := List.mem_map.mp hid
  exact (validate_accounts (valid_iff.mp h).2.2.1).2 account hmem

/-- Any of its accounts may be made the active one. -/
theorem Valid.activate {registry : AccountRegistry} (h : registry.Valid) {id : String}
    (hid : id ∈ registry.ids) : Valid { registry with activeAccountId := id } :=
  valid_iff.mpr ⟨(valid_iff.mp h).1, (valid_iff.mp h).2.1, (valid_iff.mp h).2.2.1, hid⟩

/-! ### A registry survives -/

/-- The registry a restart finds in the file, and everything that can be read there passes its check. -/
structure StandsIn (registry : AccountRegistry) (file : StateFile AccountRegistry) : Prop where
  named : file.Named
  holds : file.Holds Valid
  current : file.current = some registry

section StandsIn

variable {registry next : AccountRegistry} {file : StateFile AccountRegistry} {faults : List Fault}

theorem readRegistryFile_of_valid (h : registry.Valid) :
    readRegistryFile (some registry) = .ok registry := by
  unfold Valid at h
  simp only [readRegistryFile, h]
  rfl

theorem StandsIn.valid (h : registry.StandsIn file) : registry.Valid := by
  have hcurrent := h.current
  rw [StateFile.current, Option.or_eq_some_iff] at hcurrent
  rcases hcurrent with htarget | ⟨-, hhead⟩
  · exact h.holds.1 registry htarget
  · have hmem := List.mem_of_mem_head? hhead
    unfold StateFile.candidates at hmem
    rcases hjournal : file.journal with _ | _ | ⟨source, backup⟩
    · simp [hjournal] at hmem
    · simp [hjournal] at hmem
    · rw [hjournal] at hmem
      obtain ⟨name, -, hname⟩ := List.mem_filterMap.mp hmem
      exact h.holds.2 registry (Table.mem_values_iff.mpr ⟨name, Option.join_eq_some_iff.mp hname⟩)

/-- Where all that can be read passes its check, the first readable file a journal names is chosen. -/
theorem chosen_eq_head? (hholds : file.Holds Valid) {source backup : Nat}
    (hjournal : file.journal = some (some (source, backup))) :
    chosen file source backup = file.candidates.head? := by
  have hread : ∀ name content, file.pieces.lookup name = some content →
      (readRegistryFile content).toOption = content := by
    intro name content hlookup
    cases content with
    | none => rfl
    | some registry =>
        rw [readRegistryFile_of_valid (hholds.2 registry (Table.mem_values_iff.mpr ⟨name, hlookup⟩))]
        rfl
  unfold chosen StateFile.candidates
  rw [hjournal]
  dsimp only
  rcases hsource : file.pieces.lookup source with _ | content
  · rcases hbackup : file.pieces.lookup backup with _ | moved
    · simp [hsource, hbackup]
    · cases moved with
      | none => simp [hsource, hbackup, hread backup none hbackup]
      | some old => simp [hsource, hbackup, hread backup (some old) hbackup]
  · cases content with
    | some new => simp [hsource, hread source (some new) hsource]
    | none =>
        rcases hbackup : file.pieces.lookup backup with _ | moved
        · simp [hsource, hbackup, hread source none hsource]
        · cases moved with
          | none => simp [hsource, hbackup, hread source none hsource]
          | some old =>
              simp [hsource, hbackup, hread source none hsource, hread backup (some old) hbackup]

/-- A save ends with the new registry, or it is cut or refused where a restart finds the old one or the new one. -/
theorem StandsIn.save (platform : Platform) (h : registry.StandsIn file) :
    (AccountRegistry.save platform next).Meets file faults fun ending left _ =>
      match ending with
      | .done _ => next.StandsIn left ∧ left.target = some next
      | _ => registry.StandsIn left ∨ next.StandsIn left := by
  unfold AccountRegistry.save
  rcases hvalid : next.validate with error | _
  · exact .inl h
  · have hkeeps := (StateFile.writeJsonAtomic_holds platform (show next.Valid from hvalid)).meets
      h.holds (StateFile.writeJsonAtomic_meets platform next faults h.named)
    apply Durably.Meets.mono hkeeps
    intro ending left _ hleft
    obtain ⟨hholds, hnamed, hending⟩ := hleft
    cases ending with
    | done _ => exact ⟨⟨hnamed, hholds, StateFile.current_of_target hending⟩, hending⟩
    | failed _ =>
        exact hending.current.imp (fun hold => ⟨hnamed, hholds, hold.trans h.current⟩)
          fun hnew => ⟨hnamed, hholds, hnew⟩
    | crashed =>
        exact hending.current.imp (fun hold => ⟨hnamed, hholds, hold.trans h.current⟩)
          fun hnew => ⟨hnamed, hholds, hnew⟩

theorem StandsIn.resave (platform : Platform) (h : registry.StandsIn file) :
    (AccountRegistry.save platform registry).Meets file faults fun ending left _ =>
      registry.StandsIn left ∧ (ending = .done () → left.target = some registry) := by
  apply (h.save platform).mono
  intro ending left _ hleft
  cases ending with
  | done _ => exact ⟨hleft.1, fun _ => hleft.2⟩
  | failed _ => exact ⟨hleft.elim id id, fun hdone => by cases hdone⟩
  | crashed => exact ⟨hleft.elim id id, fun hdone => by cases hdone⟩

theorem StandsIn.removeJournal (h : registry.StandsIn file) (htarget : file.target = some registry) :
    registry.StandsIn file.removeJournal where
  named := fun _ _ hjournal => by cases hjournal
  holds := h.holds
  current := StateFile.current_of_target htarget

theorem StandsIn.eq_of_target {target : AccountRegistry} (h : registry.StandsIn file)
    (htarget : file.target = some target) : target = registry := by
  have hcurrent := h.current
  rw [StateFile.current_of_target htarget] at hcurrent
  exact Option.some.inj hcurrent

/-- A registry file that is in place is what loading finds, and nothing is written. -/
theorem loadWithRecovery_of_target (platform : Platform) (htarget : file.target = some registry)
    (hvalid : registry.Valid) :
    loadWithRecovery platform file faults = (.done (some registry), file, faults) := by
  unfold loadWithRecovery
  change Durably.bind Durably.get _ file faults = _
  simp only [Durably.bind, Durably.get, htarget, readRegistryFile_of_valid hvalid, Except.toOption]
  rfl

/-- Without a target the registry stands in a file its journal names. -/
theorem StandsIn.chosen (h : registry.StandsIn file) (htarget : file.target = none) :
    ∃ source backup, file.journal = some (some (source, backup)) ∧
      AccountRegistry.chosen file source backup = some registry := by
  have hhead : file.candidates.head? = some registry := by
    have hcurrent := h.current
    rwa [StateFile.current, htarget, Option.none_or] at hcurrent
  rcases hjournal : file.journal with _ | _ | ⟨source, backup⟩
  · simp [StateFile.candidates, hjournal] at hhead
  · simp [StateFile.candidates, hjournal] at hhead
  · exact ⟨source, backup, rfl, (chosen_eq_head? h.holds hjournal).trans hhead⟩

theorem StandsIn.recoverFromJournal (platform : Platform) (h : registry.StandsIn file)
    (htarget : file.target = none) :
    (AccountRegistry.recoverFromJournal platform).Meets file faults fun ending left _ =>
      registry.StandsIn left ∧
        ∀ found, ending = .done found → found = some registry ∧ left.target = some registry := by
  obtain ⟨source, backup, hjournal, hchosen⟩ := h.chosen htarget
  unfold AccountRegistry.recoverFromJournal
  rw [Durably.meets_bind, Durably.meets_get]
  simp only [hjournal, hchosen]
  rw [Durably.meets_bind]
  apply (h.resave platform).mono
  intro ending saved left hsaved
  cases ending with
  | failed _ => exact ⟨hsaved.1, fun _ hfound => by cases hfound⟩
  | crashed => exact ⟨hsaved.1, fun _ hfound => by cases hfound⟩
  | done _ =>
      have hplace := hsaved.2 rfl
      apply Durably.meets_ignore_step_bind
      · exact fun _ => ⟨hsaved.1.removeJournal hplace, fun _ hfound => by cases hfound; exact ⟨rfl, hplace⟩⟩
      · exact fun _ => ⟨hsaved.1, fun _ hfound => by cases hfound; exact ⟨rfl, hplace⟩⟩
      · exact fun _ => ⟨hsaved.1, fun _ hfound => by cases hfound⟩

/-- Loading finds the registry that stands in the file, and puts it in place. -/
theorem StandsIn.loadWithRecovery (platform : Platform) (h : registry.StandsIn file) :
    (AccountRegistry.loadWithRecovery platform).Meets file faults fun ending left _ =>
      registry.StandsIn left ∧
        ∀ found, ending = .done found → found = some registry ∧ left.target = some registry := by
  rcases htarget : file.target with _ | target
  · unfold AccountRegistry.loadWithRecovery
    rw [Durably.meets_bind, Durably.meets_get]
    simp only [htarget, readRegistryFile, Except.toOption]
    rw [Durably.meets_bind]
    apply (h.recoverFromJournal platform htarget).mono
    intro ending saved left hsaved
    cases ending with
    | failed _ => exact ⟨hsaved.1, fun _ hfound => by cases hfound⟩
    | crashed => exact ⟨hsaved.1, fun _ hfound => by cases hfound⟩
    | done found =>
        obtain ⟨rfl, hplace⟩ := hsaved.2 found rfl
        exact ⟨hsaved.1, fun _ hfound => by cases hfound; exact ⟨rfl, hplace⟩⟩
  · obtain rfl := h.eq_of_target htarget
    unfold Durably.Meets
    rw [loadWithRecovery_of_target platform htarget h.valid]
    exact ⟨h, fun found hfound => by cases hfound; exact ⟨rfl, htarget⟩⟩

theorem save_succeeds (platform : Platform) (hnext : next.Valid) :
    (AccountRegistry.save platform next).Succeeds file fun _ left => left.target = some next :=
  Durably.succeeds_ofExcept_bind hnext (StateFile.writeJsonAtomic_succeeds platform next file)

theorem StandsIn.recoverFromJournal_succeeds (platform : Platform) (h : registry.StandsIn file)
    (htarget : file.target = none) :
    (AccountRegistry.recoverFromJournal platform).Succeeds file fun found _ => found = some registry := by
  obtain ⟨source, backup, hjournal, hchosen⟩ := h.chosen htarget
  have hdropped : ∀ file : StateFile AccountRegistry, (Durably.ignore
      (.step StateFile.removeJournal (AccountError.io "remove"))).Succeeds file fun _ _ => True :=
    fun file => Durably.Succeeds.ignore (Durably.succeeds_step trivial)
  unfold AccountRegistry.recoverFromJournal
  apply Durably.succeeds_get_bind
  simp only [hjournal, hchosen]
  apply (save_succeeds platform h.valid).bind
  intro _ saved _
  exact (hdropped saved).bind fun _ _ _ => Durably.succeeds_pure rfl

/-- Loading comes to its end where nothing goes wrong. -/
theorem StandsIn.loadWithRecovery_succeeds (platform : Platform) (h : registry.StandsIn file) :
    (AccountRegistry.loadWithRecovery platform).Succeeds file fun found left =>
      found = some registry ∧ registry.StandsIn left := by
  have hends : (AccountRegistry.loadWithRecovery platform).Succeeds file fun _ _ => True := by
    rcases htarget : file.target with _ | target
    · unfold AccountRegistry.loadWithRecovery
      apply Durably.succeeds_get_bind
      simp only [htarget, readRegistryFile, Except.toOption]
      apply (h.recoverFromJournal_succeeds platform htarget).bind
      rintro _ _ rfl
      exact Durably.succeeds_pure trivial
    · obtain rfl := h.eq_of_target htarget
      exact ⟨_, _, loadWithRecovery_of_target platform htarget h.valid, trivial⟩
  apply (hends.meets (h.loadWithRecovery platform)).mono
  exact fun found left hfound => ⟨(hfound.2.2 found rfl).1, hfound.2.1⟩

end StandsIn

end AccountRegistry

end Accounts

end ShishiTodo
