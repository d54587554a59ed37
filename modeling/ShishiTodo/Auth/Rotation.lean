import ShishiTodo.Auth.Sessions

/-!
# Rotation of refresh tokens

A rotated or revoked token ends its session and gives nothing, whenever its request gets the locks; and no token of a session that has ended gives a new one.
-/

namespace ShishiTodo

namespace Auth

open Lib

variable {crypto : Crypto} {config : AuthConfig} {readings : Readings} {fresh : Fresh} {db : AuthDb}
  {world : World}

/-- Why a session gives no tokens any more: it was ended itself, or its device or its account was. -/
def Over (db : AuthDb) (session : SessionRow) : Prop :=
  session.revokedAt.isSome ∨
    (∃ device, db.devices.lookup session.deviceId = some device ∧ device.revokedAt.isSome) ∨
    ∃ user, db.users.lookup session.userId = some user ∧ user.deletedAt.isSome

theorem over_revoked {sessionId : Uuid} {session : SessionRow} (hinv : SessionsInv db)
    (hsession : db.sessions.lookup sessionId = some session) (hover : Over db session) :
    session.revokedAt.isSome := by
  obtain hrevoked | ⟨device, hdevice, hrevoked⟩ | ⟨user, huser, hdeleted⟩ := hover
  · exact hrevoked
  · obtain ⟨found, hfound, -, hends⟩ := hinv.device sessionId session hsession
    rw [hdevice] at hfound
    obtain rfl := Option.some.inj hfound
    exact hends hrevoked
  · obtain ⟨found, hfound, hends⟩ := hinv.user sessionId session hsession
    rw [huser] at hfound
    obtain rfl := Option.some.inj hfound
    exact hends hdeleted

/-- What a refresh in progress has read of its token is still so. -/
def Located (db : AuthDb) (tokenHash : Bytes) (locator : RefreshLocatorRow) : Prop :=
  ∃ row session, db.refreshTokens.lookup locator.id = some row ∧ row.tokenHash = tokenHash ∧
    row.sessionId = locator.sessionId ∧ db.sessions.lookup locator.sessionId = some session ∧
    session.userId = locator.userId ∧ session.deviceId = locator.deviceId

theorem located_of_locate {tokenHash : Bytes} {locator : RefreshLocatorRow}
    (h : db.locate tokenHash = some locator) : Located db tokenHash locator := by
  unfold AuthDb.locate at h
  obtain ⟨entry, hentry, hrest⟩ := Option.bind_eq_some_iff.mp h
  obtain ⟨session, hsession, hlocator⟩ := Option.bind_eq_some_iff.mp hrest
  have hhash := List.find?_some hentry
  have hlookup := Table.mem_entries_iff.mp (List.mem_of_find?_eq_some hentry)
  cases hlocator
  exact ⟨entry.2, session, hlookup, beq_iff_eq.mp hhash, rfl, hsession, rfl, rfl⟩

theorem Located.grows {next : AuthDb} {tokenHash : Bytes} {locator : RefreshLocatorRow}
    (h : Located db tokenHash locator) (hgrows : Grows db next) : Located next tokenHash locator := by
  obtain ⟨row, session, hrow, hhash, hsame, hsession, huser, hdevice⟩ := h
  obtain ⟨nextRow, hnextRow, hages⟩ := hgrows.tokens _ _ hrow
  obtain ⟨nextSession, hnextSession, hsessionAges⟩ := hgrows.sessions _ _ hsession
  exact ⟨nextRow, nextSession, hnextRow, hages.hash.trans hhash, hages.session.trans hsame, hnextSession,
    hsessionAges.user.trans huser, hsessionAges.device.trans hdevice⟩

/-- What the requests in progress keep. -/
structure RefreshesInv (world : World) : Prop where
  sessions : SessionsInv world.db
  located : ∀ call ∈ world.calls, ∀ tokenHash locator readings,
    call = .refresh tokenHash (some locator) readings → Located world.db tokenHash locator

theorem begin_refresh {event : Event} {tokenHash : Bytes} {locator : Option RefreshLocatorRow}
    (h : begin crypto config db event = .ok (.refresh tokenHash locator readings)) :
    locator = db.locate tokenHash := by
  cases event with
  | requestCode email taken =>
      simp only [begin] at h
      split at h
      · cases h
      · cases h
  | verifyCode request taken =>
      obtain ⟨checked, -, hcall⟩ := bind_eq_ok_iff.mp h
      cases hcall
  | refresh request taken =>
      obtain ⟨token, -, hcall⟩ := bind_eq_ok_iff.mp h
      cases hcall
      rfl
  | act claims action taken =>
      obtain ⟨auth, -, hrest⟩ := bind_eq_ok_iff.mp h
      obtain ⟨_, -, hcall⟩ := bind_eq_ok_iff.mp hrest
      cases hcall
  | advance index fresh => cases h

/-- A refresh that is in progress after a call went on was in progress before. -/
theorem advance_refresh {index : Nat} {call other : Call} {tokenHash : Bytes}
    {locator : Option RefreshLocatorRow} (hother : other = .refresh tokenHash locator readings)
    (h : other ∈ (advance crypto config index fresh world call).calls) : other ∈ world.calls := by
  have hends : ∀ next, other ∈ (world.ends index next).calls → other ∈ world.calls := fun _ hmem =>
    List.mem_of_mem_eraseIdx hmem
  have hgoes : ∀ next : Call, other ∈ (world.goesOn index next).calls → next ≠ other →
      other ∈ world.calls := by
    intro next hmem hne
    rcases List.mem_or_eq_of_mem_set hmem with hold | hnew
    · exact hold
    · exact absurd hnew.symm hne
  subst hother
  cases call with
  | requestCode email taken => exact hends _ h
  | select request taken => exact hgoes _ h fun hsame => by cases hsame
  | lock request taken seen candidates =>
      cases candidates with
      | nil => exact hends _ h
      | cons codeId rest =>
          simp only [advance] at h
          split at h
          · exact h
          · split at h
            · exact hgoes _ h fun hsame => by cases hsame
            · exact hgoes _ h fun hsame => by cases hsame
  | locked request taken seen codeId =>
      simp only [advance] at h
      split at h
      · exact hends _ h
      · exact hends _ h
  | refresh hash found taken => exact hends _ h
  | act auth action begun => exact hends _ h

theorem mem_begins {call : Call} {begun : ApiResult Call} (h : call ∈ (world.begins begun).calls) :
    call ∈ world.calls ∨ begun = .ok call := by
  cases begun with
  | error error => exact .inl h
  | ok new =>
      rcases List.mem_append.mp h with hold | hnew
      · exact .inl hold
      · rw [List.mem_singleton.mp hnew]
        exact .inr rfl

/-- Where a call in progress comes from. -/
theorem mem_step {call : Call} {event : Event} (h : call ∈ ((authRuns crypto config).step world event).calls) :
    call ∈ world.calls ∨ begin crypto config world.db event = .ok call ∨
      ∃ index fresh old, world.calls[index]? = some old ∧
        call ∈ (advance crypto config index fresh world old).calls := by
  cases event with
  | requestCode email taken =>
      exact (mem_begins h).imp id .inl
  | verifyCode request taken => exact (mem_begins h).imp id .inl
  | refresh request taken => exact (mem_begins h).imp id .inl
  | act claims action taken => exact (mem_begins h).imp id .inl
  | advance index fresh =>
      simp only [authRuns] at h
      split at h
      · exact .inl h
      · rename_i old hold
        exact .inr (.inr ⟨index, fresh, old, hold, h⟩)

theorem step_refreshes (event : Event) (h : RefreshesInv world) :
    RefreshesInv ((authRuns crypto config).step world event) := by
  obtain ⟨hsessions, hgrows⟩ := step_keeps crypto config world event h.sessions
  refine ⟨hsessions, ?_⟩
  intro call hcall tokenHash locator readings hrefresh
  have hlocated : Located world.db tokenHash locator := by
    obtain hold | hbegun | ⟨index, fresh, old, -, hadvanced⟩ := mem_step hcall
    · exact h.located call hold tokenHash locator readings hrefresh
    · rw [hrefresh] at hbegun
      exact located_of_locate (begin_refresh hbegun).symm
    · exact h.located call (advance_refresh hrefresh hadvanced) tokenHash locator readings hrefresh
  exact hlocated.grows hgrows

theorem run_refreshes (crypto : Crypto) (config : AuthConfig) (events : List Event) (h : RefreshesInv world) :
    RefreshesInv ((authRuns crypto config).run world events) := by
  induction events generalizing world with
  | nil => exact h
  | cons event rest ih => exact ih (step_refreshes event h)

theorem refreshes_initial : RefreshesInv .initial where
  sessions := sessionsInv_empty
  located := by
    intro call hcall
    cases hcall

/-- The rows a located token belongs to are there when its locks are taken. -/
theorem Located.row {tokenHash : Bytes} {locator : RefreshLocatorRow} (h : Located db tokenHash locator)
    (hinv : SessionsInv db) :
    ∃ row, db.refreshRow locator.id tokenHash = some row ∧ row.token.sessionId = locator.sessionId ∧
      (db.users.lookup locator.userId).isSome ∧
      (db.ownedDevice locator.userId locator.deviceId).isSome ∧
      (db.ownedSession locator.sessionId locator.userId locator.deviceId).isSome := by
  obtain ⟨token, session, htoken, hhash, hsame, hsession, huserId, hdeviceId⟩ := h
  obtain ⟨user, huser, -⟩ := hinv.user _ session hsession
  obtain ⟨device, hdevice, howner, -⟩ := hinv.device _ session hsession
  have howned : db.ownedDevice session.userId session.deviceId = some device :=
    Option.filter_eq_some_iff.mpr ⟨hdevice, beq_iff_eq.mpr howner⟩
  have hownedSession : db.ownedSession locator.sessionId locator.userId locator.deviceId = some session := by
    apply Option.filter_eq_some_iff.mpr
    exact ⟨hsession, by simp [huserId, hdeviceId]⟩
  have hfiltered : (db.refreshTokens.lookup locator.id).filter (fun row => row.tokenHash == tokenHash) =
      some token := Option.filter_eq_some_iff.mpr ⟨htoken, beq_iff_eq.mpr hhash⟩
  refine ⟨⟨token, session, user, device⟩, ?_, hsame, ?_, ?_, ?_⟩
  · unfold AuthDb.refreshRow
    rw [hfiltered]
    change (do
      let session ← db.sessions.lookup token.sessionId
      let user ← db.users.lookup session.userId
      let device ← db.ownedDevice session.userId session.deviceId
      return (⟨token, session, user, device⟩ : RefreshRow)) = _
    rw [hsame, hsession]
    change (do
      let user ← db.users.lookup session.userId
      let device ← db.ownedDevice session.userId session.deviceId
      return (⟨token, session, user, device⟩ : RefreshRow)) = _
    rw [huser]
    change (do
      let device ← db.ownedDevice session.userId session.deviceId
      return (⟨token, session, user, device⟩ : RefreshRow)) = _
    rw [howned]
    rfl
  · rw [← huserId, huser]
    rfl
  · rw [← huserId, ← hdeviceId, howned]
    rfl
  · rw [hownedSession]
    rfl

/-- A spent token gives nothing, and its session has ended afterwards. -/
theorem refresh_spent (crypto : Crypto) (config : AuthConfig) (readings : Readings) (fresh : Fresh)
    {tokenHash : Bytes} {locator : RefreshLocatorRow} {row : RefreshTokenRow} (hinv : SessionsInv db)
    (hlocated : Located db tokenHash locator)
    (hrow : db.refreshTokens.lookup locator.id = some row) (hspent : row.usable = false) :
    (refresh crypto config tokenHash (some locator) readings fresh db).1 = .error refreshReused ∧
      Ended row.sessionId (refresh crypto config tokenHash (some locator) readings fresh db).2 := by
  obtain ⟨found, hfound, -, huser, hdevice, hsession⟩ := hlocated.row hinv
  obtain ⟨hlookup, -, -⟩ := refreshRow_eq_some hfound
  rw [hrow] at hlookup
  obtain rfl := Option.some.inj hlookup
  have hlocks : ¬ ((db.users.lookup locator.userId).isNone ∨
      (db.ownedDevice locator.userId locator.deviceId).isNone ∨
      (db.ownedSession locator.sessionId locator.userId locator.deviceId).isNone) := by
    simp only [not_or, Option.isNone_iff_eq_none, ← ne_eq, Option.ne_none_iff_isSome]
    exact ⟨huser, hdevice, hsession⟩
  have hrotated : found.token.rotatedAt.isSome ∨ found.token.revokedAt.isSome := by
    simp only [RefreshTokenRow.usable, Bool.and_eq_false_iff, Option.isNone_eq_false_iff] at hspent
    exact hspent
  unfold refresh
  dsimp only
  rw [if_neg hlocks, hfound]
  dsimp only
  rw [if_pos hrotated]
  exact ⟨rfl, ended_endSession⟩

/-- What a refresh gives, it gives to a session that has not ended. -/
theorem refresh_ok {tokenHash : Bytes} {locator : Option RefreshLocatorRow} {sessionId : Uuid}
    (h : (refresh crypto config tokenHash locator readings fresh db).1 = .ok sessionId) :
    ∃ session, db.sessions.lookup sessionId = some session ∧ session.revokedAt = none := by
  unfold refresh at h
  split at h
  · cases h
  · split at h
    · cases h
    · split at h
      · cases h
      · rename_i row hrow
        split at h
        · cases h
        · split at h
          · cases h
          · rename_i hended
            split at h
            · cases h
            · cases h
              refine ⟨row.session, (refreshRow_eq_some hrow).2.2, ?_⟩
              simp only [RefreshRow.ended, Bool.or_eq_true, not_or, Option.not_isSome_iff_eq_none] at hended
              exact hended.1.1.1.1

/-! ### Every run -/

/-- An entry tells of a rotation only when a call in progress took its locks and was given a new token. -/
theorem renewed_entry {call : Call} {sessionId : Uuid}
    (h : .renewed sessionId ∈ entriesOf crypto config fresh db call) :
    ∃ tokenHash locator readings,
      (refresh crypto config tokenHash locator readings fresh db).1 = .ok sessionId := by
  cases call with
  | requestCode email taken =>
      simp only [entriesOf] at h
      split at h
      · obtain ⟨issued, -, hissued⟩ := Option.map_eq_some_iff.mp (Option.mem_toList.mp h)
        cases hissued
      · cases h
  | select request taken => cases h
  | lock request taken seen candidates =>
      cases candidates with
      | nil => cases List.mem_singleton.mp h
      | cons codeId rest => cases h
  | locked request taken seen codeId =>
      simp only [entriesOf] at h
      split at h
      · cases List.mem_singleton.mp h
      · rcases List.mem_append.mp h with hguess | hanswer
        · split at hguess
          · cases List.mem_singleton.mp hguess
          · cases hguess
        · split at hanswer
          · cases List.mem_singleton.mp hanswer
          · cases List.mem_singleton.mp hanswer
  | refresh tokenHash locator readings =>
      simp only [entriesOf] at h
      split at h
      · rename_i found hfound
        cases List.mem_singleton.mp h
        exact ⟨tokenHash, locator, readings, hfound⟩
      · cases List.mem_singleton.mp h
  | act auth action begun =>
      simp only [entriesOf] at h
      split at h
      · cases List.mem_singleton.mp h
      · cases List.mem_singleton.mp h

/-- A session that has ended is given nothing, in one step and in every later one. -/
theorem never_renewed (later : List Event) {sessionId : Uuid} {session : SessionRow}
    (hinv : SessionsInv world.db) (hsession : world.db.sessions.lookup sessionId = some session)
    (hrevoked : session.revokedAt.isSome) :
    .renewed sessionId ∉ (authRuns crypto config).trace world later := by
  induction later generalizing world session with
  | nil =>
      intro h
      cases h
  | cons event rest ih =>
      intro h
      rw [Machine.trace_cons] at h
      rcases List.mem_append.mp h with hnow | hlater
      · obtain ⟨index, fresh, call, -, -, -, hemit⟩ | ⟨-, hquiet | ⟨error, hrefused⟩⟩ :=
          step_cases crypto config world event
        · rw [hemit] at hnow
          obtain ⟨tokenHash, locator, readings, hok⟩ := renewed_entry hnow
          obtain ⟨found, hfound, hlive⟩ := refresh_ok hok
          rw [hsession] at hfound
          rw [← Option.some.inj hfound] at hlive
          rw [hlive] at hrevoked
          cases hrevoked
        · rw [hquiet] at hnow
          cases hnow
        · rw [hrefused] at hnow
          cases List.mem_singleton.mp hnow
      · obtain ⟨hnext, hgrows⟩ := step_keeps crypto config world event hinv
        obtain ⟨next, hlookup, hages⟩ := hgrows.sessions sessionId session hsession
        exact ih hnext hlookup (hages.ended hrevoked) hlater

/-- What the rotation of refresh tokens promises, from a state on. -/
structure Rotates (crypto : Crypto) (config : AuthConfig) (world : World) : Prop where
  /-- A session has one token at most that is neither rotated nor revoked. -/
  one : ∀ id other row found, world.db.refreshTokens.lookup id = some row →
    world.db.refreshTokens.lookup other = some found → row.sessionId = found.sessionId →
    row.usable = true → found.usable = true → id = other
  /-- A token that is rotated or revoked gives nothing to any request that presents it, now or later, and its session has ended then. -/
  spent : ∀ tokenId row, world.db.refreshTokens.lookup tokenId = some row → row.usable = false →
    ∀ later index fresh locator readings,
      ((authRuns crypto config).run world later).calls[index]? =
        some (.refresh row.tokenHash (some locator) readings) →
      (authRuns crypto config).emit ((authRuns crypto config).run world later) (.advance index fresh) =
        [.refused refreshReused] ∧
      Ended row.sessionId ((authRuns crypto config).step ((authRuns crypto config).run world later)
        (.advance index fresh)).db
  /-- A session that was ended, or whose device or account was, is given no token any more. -/
  ended : ∀ sessionId session, world.db.sessions.lookup sessionId = some session → Over world.db session →
    ∀ later, .renewed sessionId ∉ (authRuns crypto config).trace world later

/-- Whatever requests come, and however their transactions interleave. -/
theorem tokens_rotate (crypto : Crypto) (config : AuthConfig) (events : List Event) :
    Rotates crypto config ((authRuns crypto config).run .initial events) := by
  have hinv := run_refreshes crypto config events refreshes_initial
  generalize (authRuns crypto config).run .initial events = world at hinv
  refine ⟨hinv.sessions.usable, ?_, ?_⟩
  · intro tokenId row hrow hspent later index fresh locator readings hcall
    have hlater := run_refreshes crypto config later hinv
    obtain ⟨-, hgrows⟩ := run_keeps crypto config later hinv.sessions
    obtain ⟨next, hnext, hages⟩ := hgrows.tokens tokenId row hrow
    generalize (authRuns crypto config).run world later = reached at hlater hgrows hnext hcall
    have hlocated := hlater.located _ (List.mem_of_getElem? hcall) _ _ _ rfl
    -- The hash names one token, so the lookup found this one.
    have hid : locator.id = tokenId := by
      obtain ⟨found, _, hfound, hhash, -⟩ := hlocated
      exact hlater.sessions.hashes locator.id tokenId found next hfound hnext (hhash.trans hages.hash.symm)
    obtain ⟨hrefused, hended⟩ := refresh_spent crypto config readings fresh
      hlater.sessions hlocated (hid ▸ hnext) (hages.spent hspent)
    constructor
    · simp only [authRuns, hcall, entriesOf, hrefused]
    · simp only [authRuns, hcall, advance]
      rw [← hages.session]
      exact hended
  · intro sessionId session hsession hover later
    exact never_renewed later hinv.sessions hsession (over_revoked hinv.sessions hsession hover)

end Auth

end ShishiTodo
