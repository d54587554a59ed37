import ShishiTodo.Accounts.Loading
import ShishiTodo.Lib.Chars

/-!
# Where an older database goes

The owner of the older database gives the account a migration goes to. Whatever registry a start finds on the way, the one it commits is the same but for the times in it.
-/

namespace ShishiTodo

namespace Accounts

open Lib

/-! ### Emails -/

@[simp] theorem isWhitespace_toLower (c : Char) : isWhitespace c.toLower = isWhitespace c := by
  rcases toLower_cases c with ⟨hsame, -⟩ | ⟨hshift, hlow, hhigh⟩
  · rw [hsame]
  · have hletter : ∀ n, 65 ≤ n → n ≤ 122 → ∀ d : Char, d.toNat = n → isWhitespace d = false := by
      intro n hlow hhigh d hd
      unfold isWhitespace
      simp only [hd]
      simp
      omega
    rw [hletter c.toNat hlow (by omega) c rfl, hletter _ (by omega) (by omega) c.toLower hshift]

/-- It neither begins nor ends with white space. -/
def Trimmed (chars : List Char) : Prop :=
  chars.dropWhile isWhitespace = chars ∧ chars.rdropWhile isWhitespace = chars

theorem trimChars_eq_rdropWhile (chars : List Char) :
    trimChars chars = (chars.dropWhile isWhitespace).rdropWhile isWhitespace := rfl

theorem trimChars_eq_self {chars : List Char} (h : Trimmed chars) : trimChars chars = chars := by
  rw [trimChars_eq_rdropWhile, h.1, h.2]

theorem trimmed_trimChars (chars : List Char) : Trimmed (trimChars chars) :=
  ⟨dropWhile_stripped isWhitespace chars, List.rdropWhile_idempotent _ _⟩

theorem Trimmed.map_toLower {chars : List Char} (h : Trimmed chars) :
    Trimmed (chars.map Char.toLower) := by
  have hdrop : ∀ list : List Char, (list.map Char.toLower).dropWhile isWhitespace =
      (list.dropWhile isWhitespace).map Char.toLower := by
    intro list
    rw [List.dropWhile_map]
    congr 1
    apply congrArg (fun p => List.dropWhile p list)
    funext c
    exact isWhitespace_toLower c
  refine ⟨by rw [hdrop, h.1], ?_⟩
  unfold List.rdropWhile
  rw [← List.map_reverse, hdrop, ← List.map_reverse]
  exact congrArg _ h.2

@[simp] theorem normalizeEmail_normalizeEmail (email : String) :
    normalizeEmail (normalizeEmail email) = normalizeEmail email := by
  have htrimmed := (trimmed_trimChars email.toList).map_toLower
  simp only [normalizeEmail, trim, String.toList_ofList, trimChars_eq_self htrimmed, List.map_map]
  congr 1
  apply List.map_congr_left
  intro c _
  exact toLower_toLower c

/-! ### The owner -/

namespace Ownership

/-- An email in the spelling of the registry. -/
def Known (owner : Ownership) : Prop :=
  ∀ email, owner = .bound email → normalizeEmail email = email ∧ validEmail email = true

/-- The accounts that a database of the owner may go to. -/
def Target (id : String) : Ownership → Prop
  | .anonymous => id = defaultAccountId
  | .bound _ => validateAccountId id = .ok () ∧ id ≠ defaultAccountId
  | .ambiguous _ => False

/-- The registry that a migration of the owner's database commits. -/
def Commits (id : String) (registry : AccountRegistry) : Ownership → Prop
  | .anonymous => id = defaultAccountId ∧ FirstRegistry registry
  | .bound email => ∃ created opened made used, registry =
      ⟨1, id, [{ AccountRecord.anonymousAt created with lastOpenedAt := opened },
        { AccountRecord.cloudWithId made id email with lastOpenedAt := used }]⟩
  | .ambiguous _ => False

end Ownership

theorem Database.ownership_bound {database : Database} {email : String}
    (howner : database.ownership = .bound email) :
    ∃ bound, database.snapshot.boundAccount = some bound ∧ normalizeEmail bound = email ∧
      validEmail email = true := by
  unfold Database.ownership at howner
  rcases hbound : database.snapshot.boundAccount with _ | bound
  · rw [hbound] at howner
    dsimp only at howner
    split at howner
    · cases howner
    · cases howner
  · rw [hbound] at howner
    dsimp only at howner
    split at howner
    · cases howner
    · rename_i hvalid
      split at howner
      · cases howner
      · split at howner
        · cases howner
        · have hemail := Ownership.bound.inj howner
          exact ⟨bound, rfl, hemail, hemail ▸ not_not.mp hvalid⟩

theorem Database.ownership_known (database : Database) : database.ownership.Known := by
  intro email howner
  obtain ⟨bound, -, hnormal, hvalid⟩ := database.ownership_bound howner
  exact ⟨hnormal ▸ normalizeEmail_normalizeEmail bound, hvalid⟩

/-- A new UUID. -/
def NewAccountId (startup : Startup) : Prop :=
  validateAccountId startup.accountId = .ok () ∧ startup.accountId ≠ defaultAccountId

instance decidableOk (result : Except AccountError Unit) : Decidable (result = .ok ()) :=
  match result with
  | .ok () => isTrue rfl
  | .error _ => isFalse fun h => by cases h

instance (startup : Startup) : Decidable (NewAccountId startup) := inferInstanceAs (Decidable (_ ∧ _))

section Commits

variable {owner : Ownership} {id : String} {registry : AccountRegistry}

theorem validateAccountId_default : validateAccountId defaultAccountId = .ok () := by
  unfold validateAccountId
  rw [if_pos rfl]

theorem Ownership.Target.validate (h : owner.Target id) : validateAccountId id = .ok () := by
  cases owner with
  | anonymous =>
      obtain rfl : id = defaultAccountId := h
      exact validateAccountId_default
  | bound email => exact h.1
  | ambiguous reason => cases h

theorem Ownership.Commits.active (h : owner.Commits id registry) : registry.activeAccountId = id := by
  cases owner with
  | anonymous =>
      obtain ⟨rfl, hfirst⟩ := h
      exact hfirst.active
  | bound email =>
      obtain ⟨created, opened, made, used, rfl⟩ := h
      rfl
  | ambiguous reason => cases h

theorem validateKind_cloud {email made used : String} (hid : id ≠ defaultAccountId)
    (hknown : (Ownership.bound email).Known) :
    { AccountRecord.cloudWithId made id email with lastOpenedAt := used }.validateKind = .ok () := by
  obtain ⟨hnormal, hvalid⟩ := hknown email rfl
  simp [AccountRecord.validateKind, AccountRecord.cloudWithId, refuseIf, hid, hnormal, hvalid,
    Option.filter, bind, Except.bind]

theorem Ownership.Commits.valid (h : owner.Commits id registry) (hknown : owner.Known)
    (htarget : owner.Target id) : registry.Valid := by
  cases owner with
  | anonymous => exact h.2.valid
  | bound email =>
      obtain ⟨created, opened, made, used, rfl⟩ := h
      obtain ⟨hvalid, hid⟩ := htarget
      have hcloud : AccountRecord.validateKind
          { AccountRecord.cloudWithId made id email with lastOpenedAt := used } = .ok () :=
        validateKind_cloud hid hknown
      unfold AccountRecord.cloudWithId at hcloud
      have hanonymous : AccountRecord.validate []
          { AccountRecord.anonymousAt created with lastOpenedAt := opened } = .ok [defaultAccountId] :=
        rfl
      apply AccountRegistry.valid_iff.mpr
      refine ⟨rfl, by simp, ?_, by simp [AccountRegistry.ids, AccountRecord.cloudWithId]⟩
      rw [List.foldlM_cons, hanonymous]
      simp [AccountRecord.validate, AccountRecord.cloudWithId, hvalid, hcloud, refuseIf, hid, bind, Except.bind,
        pure, Except.pure, AccountRegistry.ids, AccountRecord.anonymousAt]
  | ambiguous reason => cases h

theorem Ownership.Commits.touch (h : owner.Commits id registry) (now : String) :
    owner.Commits id (registry.modify registry.activeAccountId (AccountRecord.touch now)) := by
  cases owner with
  | anonymous => exact ⟨h.1, h.2.touch now⟩
  | bound email =>
      obtain ⟨created, opened, made, used, rfl⟩ := h
      by_cases hid : defaultAccountId = id
      · refine ⟨created, now, made, now, ?_⟩
        simp [AccountRegistry.modify, AccountRecord.touch, AccountRecord.anonymousAt,
          AccountRecord.cloudWithId, hid]
      · refine ⟨created, opened, made, now, ?_⟩
        simp [AccountRegistry.modify, AccountRecord.touch, AccountRecord.anonymousAt,
          AccountRecord.cloudWithId, hid]
  | ambiguous reason => cases h

theorem Ownership.Commits.context (h : owner.Commits id registry) (htarget : owner.Target id)
    (migrated : Bool) :
    ∃ context, ActiveAccountContext.ofRegistry registry migrated = .ok context ∧
      context.accountId = id := by
  cases owner with
  | anonymous =>
      obtain ⟨rfl, hfirst⟩ := h
      exact hfirst.context migrated
  | bound email =>
      obtain ⟨created, opened, made, used, rfl⟩ := h
      have hother : defaultAccountId ≠ id := htarget.2.symm
      refine ⟨⟨id, .cloud, some (normalizeEmail email), none, migrated⟩, ?_, rfl⟩
      simp [ActiveAccountContext.ofRegistry, AccountRegistry.account, AccountRecord.anonymousAt,
        AccountRecord.cloudWithId, hother]
  | ambiguous reason => cases h

/-- Its accounts are there before it becomes the active one. -/
theorem Ownership.Commits.accounts (h : owner.Commits id { registry with activeAccountId := id })
    (htarget : owner.Target id) :
    (registry.account id).isSome = true ∧ (registry.account defaultAccountId).isSome = true := by
  cases owner with
  | anonymous =>
      obtain ⟨rfl, created, opened, hregistry⟩ := h
      have haccounts := congrArg AccountRegistry.accounts hregistry
      dsimp only at haccounts
      simp [AccountRegistry.account, haccounts, AccountRecord.anonymousAt]
  | bound email =>
      obtain ⟨created, opened, made, used, hregistry⟩ := h
      have haccounts := congrArg AccountRegistry.accounts hregistry
      dsimp only at haccounts
      have hother : defaultAccountId ≠ id := htarget.2.symm
      simp [AccountRegistry.account, haccounts, AccountRecord.anonymousAt, AccountRecord.cloudWithId,
        hother]
  | ambiguous reason => cases h

theorem migratedRegistry_ok (startup : Startup) (htarget : owner.Target id)
    (h : owner.Commits id { registry with activeAccountId := id }) :
    migratedRegistry startup owner id registry = .ok { registry with activeAccountId := id } := by
  obtain ⟨hplace, hdefault⟩ := h.accounts htarget
  have hthere : (registry.account id).isNone = false := by
    rw [← Option.not_isSome, hplace]
    rfl
  have hkept : registry.ensureDefault startup.now = registry := if_pos hdefault
  simp [migratedRegistry, AccountRegistry.setActive, hthere, hkept, refuseIf, bind, Except.bind, pure,
    Except.pure]

/-- What the migration works with: the registry that was found, or a new one. -/
structure Target (owner : Ownership) (found : Option AccountRegistry) (id : String)
    (registry : AccountRegistry) : Prop where
  target : owner.Target id
  commits : owner.Commits id { registry with activeAccountId := id }
  same : ∀ old, found = some old → { registry with activeAccountId := id } = old

section Target

variable {startup : Startup} {state : MigrationState} {email : String}

theorem account_newWithDefault (now : String) (hid : id ≠ defaultAccountId) :
    (AccountRegistry.newWithDefault now).account id = none := by
  simp [AccountRegistry.newWithDefault, AccountRegistry.account, AccountRecord.anonymousAt, hid.symm]

theorem upsert_newWithDefault (now made : String) (htarget : (Ownership.bound email).Target id) :
    (AccountRegistry.newWithDefault now).upsert (AccountRecord.cloudWithId made id email) =
      .ok ⟨1, defaultAccountId,
        [AccountRecord.anonymousAt now, AccountRecord.cloudWithId made id email]⟩ := by
  obtain ⟨hvalid, hid⟩ := htarget
  have hcheck : validateAccountId (AccountRecord.cloudWithId made id email).id = .ok () := hvalid
  have hnone : (AccountRegistry.newWithDefault now).account
      (AccountRecord.cloudWithId made id email).id = none := account_newWithDefault now hid
  simp [AccountRegistry.upsert, hcheck, hnone, bind, Except.bind, pure, Except.pure]
  exact ⟨rfl, rfl, rfl⟩

/-- The first registry with the account of an email. -/
def boundRegistry (now id email : String) : AccountRegistry :=
  ⟨1, defaultAccountId, [AccountRecord.anonymousAt now, AccountRecord.cloudWithId now id email]⟩

theorem target_boundRegistry (now : String) (htarget : (Ownership.bound email).Target id) :
    Target (.bound email) none id (boundRegistry now id email) :=
  ⟨htarget, ⟨now, now, now, now, rfl⟩, fun _ hold => by cases hold⟩

theorem migrationTarget_new (hid : NewAccountId startup) (hstate : state.targetAccountId = none) :
    migrationTarget startup (.bound email) state (AccountRegistry.newWithDefault startup.now) =
      .ok (startup.accountId, boundRegistry startup.now startup.accountId email) := by
  have hupsert : (AccountRegistry.newWithDefault startup.now).upsert
      (AccountRecord.cloudWithId startup.now startup.accountId email) = _ :=
    upsert_newWithDefault startup.now startup.now hid
  have hfind : (AccountRegistry.newWithDefault startup.now).findCloudByEmail email = none := rfl
  have hplace : (boundRegistry startup.now startup.accountId email).account startup.accountId =
      some (AccountRecord.cloudWithId startup.now startup.accountId email) := by
    simp [boundRegistry, AccountRegistry.account, AccountRecord.anonymousAt, AccountRecord.cloudWithId,
      hid.2.symm]
  unfold boundRegistry at hplace ⊢
  simp only [migrationTarget, hstate, hfind, hupsert, bind, Except.bind, pure, Except.pure, hid.1, hplace]
  simp [AccountRecord.cloudWithId, refuseIf]

theorem migrationTarget_again (htarget : (Ownership.bound email).Target id)
    (hstate : state.targetAccountId = some id) :
    migrationTarget startup (.bound email) state (AccountRegistry.newWithDefault startup.now) =
      .ok (id, boundRegistry startup.now id email) := by
  have hupsert : (AccountRegistry.newWithDefault startup.now).upsert
      (AccountRecord.cloudWithId startup.now id email) = _ :=
    upsert_newWithDefault startup.now startup.now htarget
  have hnone := account_newWithDefault startup.now htarget.2
  simp only [migrationTarget, hstate, bind, Except.bind, pure, Except.pure, htarget.1, hnone, hupsert]
  rfl

theorem migrationTarget_kept {old : AccountRegistry} (htarget : (Ownership.bound email).Target id)
    (hstate : state.targetAccountId = some id) (hold : (Ownership.bound email).Commits id old) :
    migrationTarget startup (.bound email) state old = .ok (id, old) := by
  obtain ⟨created, opened, made, used, rfl⟩ := hold
  have hother : defaultAccountId ≠ id := htarget.2.symm
  simp [migrationTarget, hstate, bind, Except.bind, pure, Except.pure, htarget.1,
    AccountRegistry.account, AccountRecord.anonymousAt, AccountRecord.cloudWithId, hother, refuseIf]

/-- The target is an account of the owner's kind, whatever an earlier start came to. -/
theorem migrationTarget_ok {found : Option AccountRegistry} (hid : NewAccountId startup)
    (howner : ∀ reason, owner ≠ .ambiguous reason)
    (hstate : ∀ id, state.targetAccountId = some id → owner.Target id)
    (hfound : ∀ old, found = some old → ∃ id, state.targetAccountId = some id ∧ owner.Commits id old) :
    ∃ id registry, migrationTarget startup owner state
        (found.getD (AccountRegistry.newWithDefault startup.now)) = .ok (id, registry) ∧
      (∀ old, state.targetAccountId = some old → id = old) ∧ Target owner found id registry := by
  cases owner with
  | ambiguous reason => exact absurd rfl (howner reason)
  | anonymous =>
      refine ⟨defaultAccountId, found.getD (AccountRegistry.newWithDefault startup.now), ?_, ?_, ?_⟩
      · simp [migrationTarget, validateAccountId_default, bind, Except.bind, pure, Except.pure]
      · exact fun old hold => (hstate old hold).symm
      · cases found with
        | none => exact ⟨rfl, ⟨rfl, firstRegistry_new startup.now⟩, fun _ hold => by cases hold⟩
        | some old =>
            obtain ⟨id, -, rfl, hfirst⟩ := hfound old rfl
            have hactive : ({ old with activeAccountId := defaultAccountId } : AccountRegistry) = old := by
              rw [← hfirst.active]
            refine ⟨rfl, ⟨rfl, hactive ▸ hfirst⟩, fun other hother => ?_⟩
            cases hother
            exact hactive
  | bound email =>
      rcases htargetId : state.targetAccountId with _ | id
      · cases found with
        | some old =>
            obtain ⟨id, hsome, -⟩ := hfound old rfl
            rw [htargetId] at hsome
            cases hsome
        | none =>
            refine ⟨startup.accountId, _, migrationTarget_new hid htargetId, ?_,
              target_boundRegistry _ hid⟩
            exact fun old hold => by cases hold
      · have htarget := hstate id htargetId
        cases found with
        | none =>
            refine ⟨id, _, migrationTarget_again htarget htargetId, ?_, target_boundRegistry _ htarget⟩
            exact fun old hold => Option.some.inj hold
        | some old =>
            obtain ⟨other, hother, hcommits⟩ := hfound old rfl
            obtain rfl := Option.some.inj (htargetId.symm.trans hother)
            have hactive : ({ old with activeAccountId := id } : AccountRegistry) = old := by
              rw [← hcommits.active]
            refine ⟨id, old, migrationTarget_kept htarget htargetId hcommits,
              fun old hold => Option.some.inj hold, htarget, hactive ▸ hcommits, fun found hfound => ?_⟩
            cases hfound
            exact hactive

end Target

end Commits

end Accounts

end ShishiTodo
