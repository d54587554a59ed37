import ShishiTodo.Accounts.Registry
import ShishiTodo.Lib.Machine
import ShishiTodo.Lib.Table

/-!
# The legacy refresh token

`migrate_with` of `secure_tokens.rs`: the refresh token of the time before accounts is copied under the key of the account and then removed. Every call of the credential store may fail, before or after it took effect. That the account once had its token is read off the account's key alone, so a token that a failed removal left behind comes back after a sign-out.
-/

namespace ShishiTodo.Accounts

open Lib

def legacyRefreshTokenKey : String := "cloud-refresh:default"

def refreshTokenKey (accountId : String) : Except AccountError String := do
  validateAccountId accountId
  return "cloud-refresh:" ++ accountId

/-! ### The credential store -/

abbrev Keyring := Table String String

/-- How a call of the backend goes. -/
inductive CallFault where
  | works
  | failsBefore (error : String)
  | failsAfter (error : String)
  deriving DecidableEq, Repr

/-- A write that took effect, with what was there before; a removal has no value. -/
structure KeyWrite where
  before : Keyring
  key : String
  value : Option String

structure Backed (α : Type) where
  result : Except String α
  keyring : Keyring
  writes : List KeyWrite

/-- What runs against the backend. -/
abbrev Backend (α : Type) := Keyring → Backed α

namespace Backend

variable {α β : Type}

def ok (value : α) : Backend α := fun keyring => ⟨.ok value, keyring, []⟩

def fail (error : String) : Backend α := fun keyring => ⟨.error error, keyring, []⟩

/-- `?`: an error ends the run. -/
def andThen (first : Backend α) (rest : α → Backend β) : Backend β := fun keyring =>
  let done := first keyring
  match done.result with
  | .error error => ⟨.error error, done.keyring, done.writes⟩
  | .ok value =>
      let last := rest value done.keyring
      { last with writes := done.writes ++ last.writes }

/-- `map_err`. -/
def mapErr (first : Backend α) (change : String → String) : Backend α := fun keyring =>
  let done := first keyring
  { done with result := match done.result with
      | .ok value => .ok value
      | .error error => .error (change error) }

end Backend

namespace CallFault

def get (fault : CallFault) (key : String) : Backend (Option String) := fun keyring =>
  match fault with
  | .works => ⟨.ok (keyring.lookup key), keyring, []⟩
  | .failsBefore error | .failsAfter error => ⟨.error error, keyring, []⟩

def set (fault : CallFault) (key value : String) : Backend Unit := fun keyring =>
  match fault with
  | .works => ⟨.ok (), keyring.insert key value, [⟨keyring, key, some value⟩]⟩
  | .failsAfter error => ⟨.error error, keyring.insert key value, [⟨keyring, key, some value⟩]⟩
  | .failsBefore error => ⟨.error error, keyring, []⟩

/-- A key without an entry counts as deleted. -/
def delete (fault : CallFault) (key : String) : Backend Unit := fun keyring =>
  let writes : List KeyWrite := if (keyring.lookup key).isSome then [⟨keyring, key, none⟩] else []
  match fault with
  | .works => ⟨.ok (), keyring.erase key, writes⟩
  | .failsAfter error => ⟨.error error, keyring.erase key, writes⟩
  | .failsBefore error => ⟨.error error, keyring, []⟩

/-- `check_fault`. -/
def check : CallFault → Backend Unit
  | .works => .ok ()
  | .failsBefore error | .failsAfter error => .fail error

end CallFault

/-! ### One migration -/

/-- How the calls of a migration go, in their order. -/
structure MigrationFaults where
  getAccount : CallFault
  deleteLeftover : CallFault
  getLegacy : CallFault
  set : CallFault
  readBack : CallFault
  check : CallFault
  deleteLegacy : CallFault
  deriving DecidableEq, Repr

/-- A text for the account error. -/
def invalidAccountIdText (error : AccountError) : String :=
  match error with
  | .invalidAccountId id => "invalid account id: " ++ id
  | _ => "invalid account id"

/-- The copy: it is read back before the old token goes. -/
def copyLegacy (faults : MigrationFaults) (targetKey token : String) : Backend Unit :=
  (faults.set.set targetKey token).andThen fun _ =>
  (faults.readBack.get targetKey).andThen fun stored =>
  match stored with
  | some stored =>
      if stored = token then
        faults.check.check.andThen fun _ =>
        (faults.deleteLegacy.delete legacyRefreshTokenKey).mapErr
          ("new token saved, legacy token delete failed: " ++ ·)
      else .fail "legacy refresh token readback mismatch; old token preserved"
  | none => .fail "legacy refresh token write was not durable; old token preserved"

def migrateWith (faults : MigrationFaults) (accountId : String) : Backend Unit :=
  match refreshTokenKey accountId with
  | .error error => .fail (invalidAccountIdText error)
  | .ok targetKey =>
      if targetKey = legacyRefreshTokenKey then .ok ()
      else
        (faults.getAccount.get targetKey).andThen fun account =>
        match account with
        | some _ => (faults.deleteLeftover.delete legacyRefreshTokenKey).mapErr
            ("account token preserved, legacy token delete failed: " ++ ·)
        | none =>
            (faults.getLegacy.get legacyRefreshTokenKey).andThen fun legacy =>
            match legacy with
            | none => .ok ()
            | some token => copyLegacy faults targetKey token

/-! ### What a migration writes -/

section

variable {α β : Type} {keyring : Keyring} {write : KeyWrite} {key value : String}

/-- A write of a sequence is one of its first part, or one of the rest, which runs on what the first part read and left. -/
theorem mem_writes_andThen {first : Backend α} {rest : α → Backend β}
    (h : write ∈ ((first.andThen rest) keyring).writes) : write ∈ (first keyring).writes ∨
      ∃ found, (first keyring).result = .ok found ∧ write ∈ (rest found (first keyring).keyring).writes := by
  rw [Backend.andThen] at h
  dsimp only at h
  split at h
  · exact Or.inl h
  · rename_i found hfound
    rcases List.mem_append.mp h with hfirst | hrest
    · exact Or.inl hfirst
    · exact Or.inr ⟨found, hfound, hrest⟩

theorem writes_get (fault : CallFault) : ((fault.get key) keyring).writes = [] := by
  cases fault <;> rfl

theorem keyring_get (fault : CallFault) : ((fault.get key) keyring).keyring = keyring := by
  cases fault <;> rfl

theorem get_ok {fault : CallFault} {found : Option String} (h : ((fault.get key) keyring).result = .ok found) :
    fault = .works ∧ keyring.lookup key = found := by
  cases fault with
  | works => exact ⟨rfl, Except.ok.inj h⟩
  | failsBefore error => cases h
  | failsAfter error => cases h

/-- What runs after a read. -/
theorem mem_writes_get {fault : CallFault} {rest : Option String → Backend β}
    (h : write ∈ (((fault.get key).andThen rest) keyring).writes) :
    fault = .works ∧ write ∈ (rest (keyring.lookup key) keyring).writes := by
  rcases mem_writes_andThen h with hfirst | ⟨found, hfound, hrest⟩
  · rw [writes_get] at hfirst
    cases hfirst
  · obtain ⟨hworks, rfl⟩ := get_ok hfound
    rw [keyring_get] at hrest
    exact ⟨hworks, hrest⟩

theorem writes_get_works {fault : CallFault} {rest : Option String → Backend β} (h : fault = .works) :
    (((fault.get key).andThen rest) keyring).writes = (rest (keyring.lookup key) keyring).writes := by
  rw [h]
  exact List.nil_append _

theorem mem_writes_of_first {first : Backend α} {rest : α → Backend β} (h : write ∈ (first keyring).writes) :
    write ∈ ((first.andThen rest) keyring).writes := by
  rw [Backend.andThen]
  dsimp only
  split
  · exact h
  · exact List.mem_append_left _ h

theorem mem_writes_set {fault : CallFault} (h : write ∈ ((fault.set key value) keyring).writes) :
    (∀ error, fault ≠ .failsBefore error) ∧ write = ⟨keyring, key, some value⟩ := by
  cases fault with
  | works => exact ⟨nofun, List.mem_singleton.mp h⟩
  | failsAfter error => exact ⟨nofun, List.mem_singleton.mp h⟩
  | failsBefore error => cases h

theorem keyring_set_ok {fault : CallFault} {done : Unit} (h : ((fault.set key value) keyring).result = .ok done) :
    ((fault.set key value) keyring).keyring = keyring.insert key value := by
  cases fault with
  | works => rfl
  | failsBefore error => cases h
  | failsAfter error => cases h

theorem writes_mapErr (first : Backend α) (change : String → String) :
    ((first.mapErr change) keyring).writes = (first keyring).writes :=
  rfl

theorem mem_writes_delete {fault : CallFault} (hwrites : write ∈ ((fault.delete key) keyring).writes) :
    write = ⟨keyring, key, none⟩ ∧ (keyring.lookup key).isSome := by
  cases fault with
  | failsBefore error => cases hwrites
  | works =>
      rw [CallFault.delete] at hwrites
      dsimp only at hwrites
      split at hwrites
      · rename_i hsome
        exact ⟨List.mem_singleton.mp hwrites, hsome⟩
      · cases hwrites
  | failsAfter error =>
      rw [CallFault.delete] at hwrites
      dsimp only at hwrites
      split at hwrites
      · rename_i hsome
        exact ⟨List.mem_singleton.mp hwrites, hsome⟩
      · cases hwrites

end

/-- The migration copies the legacy token: the account has none, both reads work and the write takes effect. -/
structure CopiesToken (faults : MigrationFaults) (targetKey token : String) (keyring : Keyring) : Prop where
  account : faults.getAccount = .works ∧ keyring.lookup targetKey = none
  legacy : faults.getLegacy = .works ∧ keyring.lookup legacyRefreshTokenKey = some token
  writes : ∀ error, faults.set ≠ .failsBefore error

/-- The writes of a migration: the copy of the legacy token, and removals of it while the account has a token. -/
inductive MigrationWrite (faults : MigrationFaults) (targetKey : String) (keyring : Keyring) :
    KeyWrite → Prop where
  | copied (token : String) (h : CopiesToken faults targetKey token keyring) :
      MigrationWrite faults targetKey keyring ⟨keyring, targetKey, some token⟩
  | removed (before : Keyring) (h : (before.lookup targetKey).isSome) :
      MigrationWrite faults targetKey keyring ⟨before, legacyRefreshTokenKey, none⟩

theorem copyLegacy_writes {faults : MigrationFaults} {targetKey token : String} {keyring : Keyring}
    {write : KeyWrite} (h : write ∈ (copyLegacy faults targetKey token keyring).writes) :
    (∀ error, faults.set ≠ .failsBefore error) ∧ write = ⟨keyring, targetKey, some token⟩ ∨
      write = ⟨keyring.insert targetKey token, legacyRefreshTokenKey, none⟩ := by
  rcases mem_writes_andThen h with hset | ⟨done, hdone, hrest⟩
  · exact Or.inl (mem_writes_set hset)
  · rw [keyring_set_ok hdone] at hrest
    obtain ⟨-, hrest⟩ := mem_writes_get hrest
    rw [AList.lookup_insert] at hrest
    dsimp only at hrest
    rw [if_pos rfl] at hrest
    rcases mem_writes_andThen hrest with hcheck | ⟨done, hchecked, hdelete⟩
    · cases hfault : faults.check <;> rw [hfault] at hcheck <;> cases hcheck
    · have hkept : ((faults.check.check) (AList.insert targetKey token keyring)).keyring =
          AList.insert targetKey token keyring := by
        cases faults.check <;> rfl
      rw [hkept] at hdelete
      rw [writes_mapErr] at hdelete
      exact Or.inr (mem_writes_delete hdelete).1

theorem migrateWith_writes {faults : MigrationFaults} {accountId : String} {keyring : Keyring}
    {write : KeyWrite} (h : write ∈ (migrateWith faults accountId keyring).writes) :
    ∃ targetKey, refreshTokenKey accountId = .ok targetKey ∧ targetKey ≠ legacyRefreshTokenKey ∧
      MigrationWrite faults targetKey keyring write := by
  rw [migrateWith] at h
  cases hkey : refreshTokenKey accountId with
  | error error =>
      rw [hkey] at h
      cases h
  | ok targetKey =>
      rw [hkey] at h
      dsimp only at h
      by_cases hother : targetKey = legacyRefreshTokenKey
      · rw [if_pos hother] at h
        cases h
      rw [if_neg hother] at h
      refine ⟨targetKey, rfl, hother, ?_⟩
      obtain ⟨hread, h⟩ := mem_writes_get h
      cases haccount : keyring.lookup targetKey with
      | some token =>
          rw [haccount] at h
          dsimp only at h
          rw [writes_mapErr] at h
          obtain ⟨rfl, -⟩ := mem_writes_delete h
          exact .removed keyring (by rw [haccount]; rfl)
      | none =>
          rw [haccount] at h
          obtain ⟨hreadLegacy, h⟩ := mem_writes_get h
          cases hlegacy : keyring.lookup legacyRefreshTokenKey with
          | none =>
              rw [hlegacy] at h
              cases h
          | some token =>
              rw [hlegacy] at h
              rcases copyLegacy_writes h with ⟨hset, rfl⟩ | rfl
              · exact .copied token ⟨⟨hread, haccount⟩, ⟨hreadLegacy, hlegacy⟩, hset⟩
              · exact .removed _ (by rw [AList.lookup_insert]; rfl)

/-- Nothing is done before the copy, and the copy is the first write. -/
theorem migrateWith_copies {faults : MigrationFaults} {accountId targetKey token : String} {keyring : Keyring}
    (hkey : refreshTokenKey accountId = .ok targetKey) (hother : targetKey ≠ legacyRefreshTokenKey)
    (h : CopiesToken faults targetKey token keyring) :
    (⟨keyring, targetKey, some token⟩ : KeyWrite) ∈ (migrateWith faults accountId keyring).writes := by
  have hcopy : (⟨keyring, targetKey, some token⟩ : KeyWrite) ∈ (copyLegacy faults targetKey token keyring).writes := by
    apply mem_writes_of_first
    cases hset : faults.set with
    | works => exact List.mem_singleton_self _
    | failsAfter error => exact List.mem_singleton_self _
    | failsBefore error => exact absurd hset (h.writes error)
  obtain ⟨haccount, hempty⟩ := h.account
  obtain ⟨hlegacy, hheld⟩ := h.legacy
  have hrun : (migrateWith faults accountId keyring).writes = (copyLegacy faults targetKey token keyring).writes := by
    rw [migrateWith, hkey]
    dsimp only
    rw [if_neg hother, writes_get_works haccount, hempty]
    dsimp only
    rw [writes_get_works hlegacy, hheld]
  rw [hrun]
  exact hcopy

/-! ### Runs -/

/-- The keyring, and whether a sign-out ever took a token from the account's key. -/
structure TokenWorld where
  keyring : Keyring
  signedOut : Bool

/-- `secure_token_set` and `secure_token_remove` of the account, and the start that migrates. -/
inductive TokenEvent where
  | migrate (faults : MigrationFaults)
  | signIn (value : String) (fault : CallFault)
  | signOut (fault : CallFault)

structure TokenRecord where
  byMigration : Bool
  signedOut : Bool
  write : KeyWrite

/-- An operation on the key of the account. -/
def onAccountKey (accountId : String) (operation : String → Backend Unit) : Backend Unit :=
  match refreshTokenKey accountId with
  | .error error => .fail (invalidAccountIdText error)
  | .ok key => operation key

def TokenEvent.run (accountId : String) : TokenEvent → Backend Unit
  | .migrate faults => migrateWith faults accountId
  | .signIn value fault => onAccountKey accountId fun key => fault.set key value
  | .signOut fault => onAccountKey accountId fault.delete

def TokenEvent.isMigration : TokenEvent → Bool
  | .migrate _ => true
  | _ => false

def TokenEvent.isSignOut : TokenEvent → Bool
  | .signOut _ => true
  | _ => false

/-- Every start that migrates, every sign-in and every sign-out of one account. -/
def tokens (accountId : String) : Machine TokenWorld TokenEvent TokenRecord where
  step world event :=
    let done := event.run accountId world.keyring
    { keyring := done.keyring
      signedOut := world.signedOut || event.isSignOut && !done.writes.isEmpty }
  emit world event :=
    (event.run accountId world.keyring).writes.map fun write =>
      ⟨event.isMigration, world.signedOut, write⟩

def accountKey (accountId : String) : String := "cloud-refresh:" ++ accountId

theorem refreshTokenKey_ok {accountId key : String} (h : refreshTokenKey accountId = .ok key) :
    key = accountKey accountId := by
  obtain ⟨_, -, h⟩ := bind_eq_ok_iff.mp h
  exact (Except.ok.inj h).symm

/-- A migration replaces no token of the account and brings none back after a sign-out, and the legacy token goes only while the account has one. -/
structure TokenRecord.Safe (accountId : String) (record : TokenRecord) : Prop where
  kept : record.byMigration = true → record.write.key = accountKey accountId →
    record.write.before.lookup (accountKey accountId) = none
  copied : record.write.key = legacyRefreshTokenKey → record.write.value = none →
    (record.write.before.lookup (accountKey accountId)).isSome
  stays : record.byMigration = true → record.write.key = accountKey accountId → record.signedOut = false

/-- After a sign-out no migration finds the legacy token where the account's own is gone. -/
def NoLeftover (accountId : String) (world : TokenWorld) (event : TokenEvent) : Prop :=
  ∀ faults, event = .migrate faults → world.signedOut = true → ∀ targetKey token,
    refreshTokenKey accountId = .ok targetKey → targetKey ≠ legacyRefreshTokenKey →
      ¬ CopiesToken faults targetKey token world.keyring

theorem onAccountKey_writes {accountId : String} (operation : String → Backend Unit) {keyring : Keyring}
    {write : KeyWrite} (h : write ∈ (onAccountKey accountId operation keyring).writes) :
    write ∈ (operation (accountKey accountId) keyring).writes := by
  rw [onAccountKey] at h
  cases hkey : refreshTokenKey accountId with
  | error error =>
      rw [hkey] at h
      cases h
  | ok key =>
      rw [hkey] at h
      rw [← refreshTokenKey_ok hkey]
      exact h

theorem safe_emit_iff (accountId : String) (world : TokenWorld) (event : TokenEvent) :
    (∀ record ∈ (tokens accountId).emit world event, record.Safe accountId) ↔
      NoLeftover accountId world event := by
  constructor
  · rintro hsafe faults rfl hsignedOut targetKey token hkey hother hcopies
    have hrecord : (⟨true, world.signedOut, world.keyring, targetKey, some token⟩ : TokenRecord) ∈
        (tokens accountId).emit world (.migrate faults) :=
      List.mem_map.mpr ⟨_, migrateWith_copies hkey hother hcopies, rfl⟩
    have hstays := (hsafe _ hrecord).stays rfl (refreshTokenKey_ok hkey)
    cases hsignedOut.symm.trans hstays
  · rintro hcondition record hrecord
    obtain ⟨write, hwrite, rfl⟩ := List.mem_map.mp hrecord
    cases event with
    | migrate faults =>
        obtain ⟨targetKey, hkey, hother, hmigration⟩ := migrateWith_writes hwrite
        have htarget := refreshTokenKey_ok hkey
        cases hmigration with
        | copied token hcopies =>
            refine ⟨fun _ _ => htarget ▸ hcopies.account.2, fun _ => nofun, fun _ _ => ?_⟩
            exact Bool.eq_false_iff.mpr fun hsignedOut =>
              hcondition faults rfl hsignedOut targetKey token hkey hother hcopies
        | removed before hsome =>
            have hnot : legacyRefreshTokenKey ≠ accountKey accountId := fun heq => hother (htarget.trans heq.symm)
            exact ⟨fun _ heq => absurd heq hnot, fun _ _ => htarget ▸ hsome, fun _ heq => absurd heq hnot⟩
    | signIn value fault =>
        have hset : write ∈ ((fault.set (accountKey accountId) value) world.keyring).writes :=
          onAccountKey_writes (fun key => fault.set key value) hwrite
        obtain ⟨-, rfl⟩ := mem_writes_set hset
        exact ⟨nofun, fun _ => nofun, nofun⟩
    | signOut fault =>
        have hdelete : write ∈ (onAccountKey accountId fault.delete world.keyring).writes := hwrite
        obtain ⟨rfl, hsome⟩ := mem_writes_delete (onAccountKey_writes fault.delete hdelete)
        exact ⟨nofun, fun _ _ => hsome, nofun⟩

/-- The migration of an account's token is safe all along exactly when no start after a sign-out finds a legacy token that is left. -/
theorem token_migration_safe_iff (accountId : String) (keyring : Keyring) (events : List TokenEvent) :
    (∀ record ∈ (tokens accountId).trace ⟨keyring, false⟩ events, record.Safe accountId) ↔
      (tokens accountId).Along (NoLeftover accountId) ⟨keyring, false⟩ events := by
  rw [(tokens accountId).forall_trace_iff]
  exact (tokens accountId).along_congr (fun _ => True) (fun _ _ _ _ => trivial)
    (fun world event _ => safe_emit_iff accountId world event) events ⟨keyring, false⟩ trivial

def quiet : MigrationFaults := ⟨.works, .works, .works, .works, .works, .works, .works⟩

/-- A start copies the token but fails to remove the old one; the user signs out; the next start brings the token back. -/
theorem signed_out_token_returns :
    ¬ ∀ (accountId : String) (keyring : Keyring) (events : List TokenEvent),
      ∀ record ∈ (tokens accountId).trace ⟨keyring, false⟩ events, record.Safe accountId := by
  intro h
  have hsafe := h "01a1673d-1000-7000-8000-0000000000aa" (AList.insert legacyRefreshTokenKey "legacy-token" ∅)
    [.migrate { quiet with deleteLegacy := .failsBefore "busy" }, .signOut .works, .migrate quiet]
  have hrun : ((tokens "01a1673d-1000-7000-8000-0000000000aa").trace
      ⟨AList.insert legacyRefreshTokenKey "legacy-token" ∅, false⟩
      [.migrate { quiet with deleteLegacy := .failsBefore "busy" }, .signOut .works, .migrate quiet]).any
        (fun record => record.byMigration && record.signedOut &&
          record.write.key == accountKey "01a1673d-1000-7000-8000-0000000000aa") = true := by
    decide
  obtain ⟨record, hrecord, hreturns⟩ := List.any_eq_true.mp hrun
  rw [Bool.and_eq_true, Bool.and_eq_true] at hreturns
  have hstays := (hsafe record hrecord).stays hreturns.1.1 (eq_of_beq hreturns.2)
  rw [hreturns.1.2] at hstays
  cases hstays

end ShishiTodo.Accounts
