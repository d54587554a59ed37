import ShishiTodo.Auth.Runs

/-!
# Sessions and their tokens

What every transaction keeps of the sessions and their refresh tokens: a session has one usable token at most, and it has ended when its device is revoked or its account deleted. And what no transaction takes back: a token that is rotated or revoked, a session that has ended.
-/

namespace ShishiTodo

namespace Auth

open Lib

/-! ### What is never taken back -/

/-- The token is the same one, and as unusable as it was. -/
structure RefreshTokenRow.Ages (before after : RefreshTokenRow) : Prop where
  session : after.sessionId = before.sessionId
  hash : after.tokenHash = before.tokenHash
  spent : before.usable = false → after.usable = false

/-- The session is the same one, and has ended if it had. -/
structure SessionRow.Ages (before after : SessionRow) : Prop where
  user : after.userId = before.userId
  device : after.deviceId = before.deviceId
  ended : before.revokedAt.isSome → after.revokedAt.isSome

structure Grows (before after : AuthDb) : Prop where
  tokens : ∀ id row, before.refreshTokens.lookup id = some row →
    ∃ next, after.refreshTokens.lookup id = some next ∧ row.Ages next
  sessions : ∀ id row, before.sessions.lookup id = some row →
    ∃ next, after.sessions.lookup id = some next ∧ row.Ages next

theorem RefreshTokenRow.Ages.refl (row : RefreshTokenRow) : row.Ages row := ⟨rfl, rfl, id⟩

theorem RefreshTokenRow.Ages.trans {first second third : RefreshTokenRow} (h : first.Ages second)
    (hnext : second.Ages third) : first.Ages third :=
  ⟨hnext.session.trans h.session, hnext.hash.trans h.hash, fun hspent => hnext.spent (h.spent hspent)⟩

theorem SessionRow.Ages.refl (row : SessionRow) : row.Ages row := ⟨rfl, rfl, id⟩

theorem SessionRow.Ages.trans {first second third : SessionRow} (h : first.Ages second)
    (hnext : second.Ages third) : first.Ages third :=
  ⟨hnext.user.trans h.user, hnext.device.trans h.device, fun hended => hnext.ended (h.ended hended)⟩

theorem RefreshTokenRow.ages_revoke (row : RefreshTokenRow) (now : Instant) : row.Ages (row.revoke now) := by
  refine ⟨rfl, rfl, fun _ => ?_⟩
  simp [RefreshTokenRow.usable, RefreshTokenRow.revoke, coalesce]

theorem RefreshTokenRow.usable_revoke (row : RefreshTokenRow) (now : Instant) :
    (row.revoke now).usable = false := by
  simp [RefreshTokenRow.usable, RefreshTokenRow.revoke, coalesce]

theorem SessionRow.ages_revoke (row : SessionRow) (now : Instant) : row.Ages (row.revoke now) :=
  ⟨rfl, rfl, fun _ => rfl⟩

variable {db next before after : AuthDb} {now begun : Instant} {sessionId : Uuid}

theorem Grows.refl (db : AuthDb) : Grows db db :=
  ⟨fun _ row h => ⟨row, h, .refl row⟩, fun _ row h => ⟨row, h, .refl row⟩⟩

theorem Grows.trans (h : Grows before db) (hnext : Grows db after) : Grows before after := by
  constructor
  · intro id row hrow
    obtain ⟨middle, hmiddle, hages⟩ := h.tokens id row hrow
    obtain ⟨last, hlast, hmore⟩ := hnext.tokens id middle hmiddle
    exact ⟨last, hlast, hages.trans hmore⟩
  · intro id row hrow
    obtain ⟨middle, hmiddle, hages⟩ := h.sessions id row hrow
    obtain ⟨last, hlast, hmore⟩ := hnext.sessions id middle hmiddle
    exact ⟨last, hlast, hages.trans hmore⟩

/-! ### What every transaction keeps -/

structure SessionsInv (db : AuthDb) : Prop where
  /-- A session has one usable token at most. -/
  usable : ∀ id other row found, db.refreshTokens.lookup id = some row →
    db.refreshTokens.lookup other = some found → row.sessionId = found.sessionId → row.usable = true →
    found.usable = true → id = other
  hashes : ∀ id other row found, db.refreshTokens.lookup id = some row →
    db.refreshTokens.lookup other = some found → row.tokenHash = found.tokenHash → id = other
  session : ∀ id row, db.refreshTokens.lookup id = some row → (db.sessions.lookup row.sessionId).isSome
  device : ∀ id row, db.sessions.lookup id = some row → ∃ device,
    db.devices.lookup row.deviceId = some device ∧ device.userId = row.userId ∧
      (device.revokedAt.isSome → row.revokedAt.isSome)
  user : ∀ id row, db.sessions.lookup id = some row → ∃ user,
    db.users.lookup row.userId = some user ∧ (user.deletedAt.isSome → row.revokedAt.isSome)

theorem sessionsInv_empty : SessionsInv .empty where
  usable := by
    intro id other row found hrow
    cases hrow
  hashes := by
    intro id other row found hrow
    cases hrow
  session := by
    intro id row hrow
    cases hrow
  device := by
    intro id row hrow
    cases hrow
  user := by
    intro id row hrow
    cases hrow

/-! ### Revocation -/

/-- Tokens and sessions are rewritten under their ids, and age. -/
structure Revokes (before after : AuthDb) : Prop where
  tokens : ∃ change, after.refreshTokens = before.refreshTokens.rewrite change ∧
    ∀ id (row : RefreshTokenRow), row.Ages (change id row)
  sessions : ∃ change, after.sessions = before.sessions.rewrite change ∧
    ∀ id (row : SessionRow), row.Ages (change id row)

theorem Revokes.grows (h : Revokes before after) : Grows before after := by
  obtain ⟨⟨change, htokens, hages⟩, ⟨alter, hsessions, hsession⟩⟩ := h
  constructor
  · intro id row hrow
    rw [htokens, Table.lookup_rewrite, hrow]
    exact ⟨_, rfl, hages id row⟩
  · intro id row hrow
    rw [hsessions, Table.lookup_rewrite, hrow]
    exact ⟨_, rfl, hsession id row⟩

/-- A token after a revocation was a token before it. -/
theorem Revokes.token_before (h : Revokes before after) {id : Uuid} {row : RefreshTokenRow}
    (hrow : after.refreshTokens.lookup id = some row) :
    ∃ old, before.refreshTokens.lookup id = some old ∧ old.Ages row := by
  obtain ⟨⟨change, htokens, hages⟩, -⟩ := h
  rw [htokens, Table.lookup_rewrite, Option.map_eq_some_iff] at hrow
  obtain ⟨old, hold, rfl⟩ := hrow
  exact ⟨old, hold, hages id old⟩

theorem Revokes.session_before (h : Revokes before after) {id : Uuid} {row : SessionRow}
    (hrow : after.sessions.lookup id = some row) :
    ∃ old, before.sessions.lookup id = some old ∧ old.Ages row := by
  obtain ⟨-, ⟨change, hsessions, hages⟩⟩ := h
  rw [hsessions, Table.lookup_rewrite, Option.map_eq_some_iff] at hrow
  obtain ⟨old, hold, rfl⟩ := hrow
  exact ⟨old, hold, hages id old⟩

/-- A revocation keeps what is kept, if the devices and accounts that it ends end their sessions. -/
theorem SessionsInv.revokes (h : SessionsInv before) (hrevokes : Revokes before after)
    (hdevice : ∀ id row, after.sessions.lookup id = some row → ∃ device,
      after.devices.lookup row.deviceId = some device ∧ device.userId = row.userId ∧
        (device.revokedAt.isSome → row.revokedAt.isSome))
    (huser : ∀ id row, after.sessions.lookup id = some row → ∃ user,
      after.users.lookup row.userId = some user ∧ (user.deletedAt.isSome → row.revokedAt.isSome)) :
    SessionsInv after where
  usable := by
    intro id other row found hrow hfound hsame huse hfoundUse
    obtain ⟨old, hold, hages⟩ := hrevokes.token_before hrow
    obtain ⟨oldFound, holdFound, hagesFound⟩ := hrevokes.token_before hfound
    apply h.usable id other old oldFound hold holdFound
    · rw [← hages.session, ← hagesFound.session, hsame]
    · rcases huse' : old.usable with _ | _
      · rw [hages.spent huse'] at huse
        cases huse
      · rfl
    · rcases huse' : oldFound.usable with _ | _
      · rw [hagesFound.spent huse'] at hfoundUse
        cases hfoundUse
      · rfl
  hashes := by
    intro id other row found hrow hfound hsame
    obtain ⟨old, hold, hages⟩ := hrevokes.token_before hrow
    obtain ⟨oldFound, holdFound, hagesFound⟩ := hrevokes.token_before hfound
    apply h.hashes id other old oldFound hold holdFound
    rw [← hages.hash, ← hagesFound.hash, hsame]
  session := by
    intro id row hrow
    obtain ⟨old, hold, hages⟩ := hrevokes.token_before hrow
    obtain ⟨session, hsession⟩ := Option.isSome_iff_exists.mp (h.session id old hold)
    obtain ⟨next, hnext, -⟩ := hrevokes.grows.sessions _ _ hsession
    rw [hages.session, hnext]
    rfl
  device := hdevice
  user := huser

/-- A revocation that leaves devices and accounts alone. -/
theorem SessionsInv.revokes_apart (h : SessionsInv before) (hrevokes : Revokes before after)
    (hdevices : after.devices = before.devices) (husers : after.users = before.users) :
    SessionsInv after := by
  apply h.revokes hrevokes
  · intro id row hrow
    obtain ⟨old, hold, hages⟩ := hrevokes.session_before hrow
    obtain ⟨device, hlookup, howner, hended⟩ := h.device id old hold
    rw [hdevices, hages.device, hages.user]
    exact ⟨device, hlookup, howner, fun hsome => hages.ended (hended hsome)⟩
  · intro id row hrow
    obtain ⟨old, hold, hages⟩ := hrevokes.session_before hrow
    obtain ⟨user, hlookup, hended⟩ := h.user id old hold
    rw [husers, hages.user]
    exact ⟨user, hlookup, fun hsome => hages.ended (hended hsome)⟩

theorem revokes_selected (test : Uuid → SessionRow → Bool) (chosen : Uuid → Bool) :
    Revokes db ((db.revokeSessions test now).revokeTokens chosen now) := by
  constructor
  · refine ⟨fun _ row => if chosen row.sessionId then row.revoke now else row, rfl, fun id row => ?_⟩
    dsimp only
    split
    · exact row.ages_revoke now
    · exact .refl row
  · refine ⟨fun id row => if test id row then row.revoke now else row, rfl, fun id row => ?_⟩
    dsimp only
    split
    · exact row.ages_revoke now
    · exact .refl row

theorem revokes_endSession : Revokes db (db.endSession sessionId now) := revokes_selected _ _

theorem revokes_endSessions (test : SessionRow → Bool) : Revokes db (db.endSessions test now) :=
  revokes_selected _ _

/-- What is left of a session that was ended. -/
structure Ended (sessionId : Uuid) (db : AuthDb) : Prop where
  session : ∀ row, db.sessions.lookup sessionId = some row → row.revokedAt.isSome
  tokens : ∀ id row, db.refreshTokens.lookup id = some row → row.sessionId = sessionId → row.usable = false

theorem ended_endSession : Ended sessionId (db.endSession sessionId now) := by
  constructor
  · intro row hrow
    simp only [AuthDb.endSession, AuthDb.revokeTokens, AuthDb.revokeSessions, Table.lookup_rewrite,
      Option.map_eq_some_iff, beq_self_eq_true, if_true] at hrow
    obtain ⟨old, -, rfl⟩ := hrow
    rfl
  · intro id row hrow hsession
    simp only [AuthDb.endSession, AuthDb.revokeTokens, AuthDb.revokeSessions, Table.lookup_rewrite,
      Option.map_eq_some_iff] at hrow
    obtain ⟨old, -, rfl⟩ := hrow
    split
    · exact old.usable_revoke now
    · rename_i hother
      rw [if_neg hother] at hsession
      simp [hsession] at hother

/-! ### Sign-in -/

/-- A step that keeps what is kept and takes nothing back. -/
structure Keeps (before after : AuthDb) : Prop where
  inv : SessionsInv before → SessionsInv after
  grows : Grows before after

theorem Keeps.refl (db : AuthDb) : Keeps db db := ⟨id, .refl db⟩

theorem Keeps.trans (h : Keeps before db) (hnext : Keeps db after) : Keeps before after :=
  ⟨fun hinv => hnext.inv (h.inv hinv), h.grows.trans hnext.grows⟩

/-- A step that writes other tables. -/
theorem Keeps.of_apart (husers : after.users = before.users) (hdevices : after.devices = before.devices)
    (hsessions : after.sessions = before.sessions) (htokens : after.refreshTokens = before.refreshTokens) :
    Keeps before after := by
  constructor
  · intro h
    constructor
    · rw [htokens]
      exact h.usable
    · rw [htokens]
      exact h.hashes
    · rw [htokens, hsessions]
      exact h.session
    · rw [hsessions, hdevices]
      exact h.device
    · rw [hsessions, husers]
      exact h.user
  · constructor
    · rw [htokens]
      exact (Grows.refl before).tokens
    · rw [hsessions]
      exact (Grows.refl before).sessions

theorem upsertUser_keeps {email : String} {newId userId : Uuid} {user : UserRow}
    (h : db.upsertUser email newId = .ok (userId, user, next)) :
    Keeps db next ∧ next.users.lookup userId = some user := by
  unfold AuthDb.upsertUser at h
  split at h
  · rename_i entry hentry
    cases h
    exact ⟨.refl db, Table.mem_entries_iff.mp (List.mem_of_find?_eq_some hentry)⟩
  · split at h
    · cases h
    · rename_i hfree
      cases h
      refine ⟨⟨fun hinv => ⟨hinv.usable, hinv.hashes, hinv.session, hinv.device, ?_⟩,
        ⟨(Grows.refl db).tokens, (Grows.refl db).sessions⟩⟩, ?_⟩
      · intro id row hrow
        obtain ⟨owner, howner, hended⟩ := hinv.user id row hrow
        refine ⟨owner, ?_, hended⟩
        rw [Table.lookup_insert_eq_ite, if_neg]
        · exact howner
        · intro hsame
          rw [← hsame, howner] at hfree
          exact hfree rfl
      · exact AList.lookup_insert _

theorem registerDevice_keeps {userId : Uuid} {request : VerifyCodeRequest}
    (h : db.registerDevice userId request = .ok next) :
    Keeps db next ∧ next.users = db.users ∧ ∃ device, next.devices.lookup request.deviceId = some device ∧
      device.userId = userId ∧ device.revokedAt = none := by
  have hinsert : ∀ (hown : ∀ device, db.devices.lookup request.deviceId = some device →
      device.userId = userId) (row : DeviceRow), row.userId = userId → row.revokedAt = none →
      Keeps db { db with devices := db.devices.insert request.deviceId row } := by
    intro hown row howner hfresh
    refine ⟨fun hinv => ⟨hinv.usable, hinv.hashes, hinv.session, ?_, hinv.user⟩,
      ⟨(Grows.refl db).tokens, (Grows.refl db).sessions⟩⟩
    intro id session hsession
    obtain ⟨device, hdevice, hdeviceOwner, hended⟩ := hinv.device id session hsession
    rw [Table.lookup_insert_eq_ite]
    by_cases hsame : session.deviceId = request.deviceId
    · rw [if_pos hsame]
      refine ⟨row, rfl, ?_, ?_⟩
      · rw [howner, ← hdeviceOwner]
        exact (hown device (hsame ▸ hdevice)).symm
      · rw [hfresh]
        intro hsome
        cases hsome
    · rw [if_neg hsame]
      exact ⟨device, hdevice, hdeviceOwner, hended⟩
  unfold AuthDb.registerDevice at h
  dsimp only at h
  split at h
  · rename_i existing hexisting
    split at h
    · cases h
    · rename_i hsame
      cases h
      refine ⟨hinsert (fun device hdevice => ?_) _ rfl rfl, rfl, _, AList.lookup_insert _, rfl, rfl⟩
      rw [hexisting] at hdevice
      rw [← Option.some.inj hdevice]
      exact not_not.mp hsame
  · rename_i hnone
    cases h
    refine ⟨hinsert (fun device hdevice => ?_) _ rfl rfl, rfl, _, AList.lookup_insert _, rfl, rfl⟩
    rw [hnone] at hdevice
    cases hdevice

theorem insertSession_ok {row : SessionRow} (h : db.insertSession sessionId row = .ok next) :
    db.sessions.lookup sessionId = none ∧ next = { db with sessions := db.sessions.insert sessionId row } := by
  obtain ⟨_, hrefuse, hnext⟩ := bind_eq_ok_iff.mp h
  rw [refuseIf_eq_ok_iff, not_or, Option.not_isSome_iff_eq_none] at hrefuse
  cases hnext
  exact ⟨hrefuse.1, rfl⟩

theorem insertToken_ok {tokenId : Uuid} {row : RefreshTokenRow} (h : db.insertToken tokenId row = .ok next) :
    db.refreshTokens.lookup tokenId = none ∧
      (∀ other found, db.refreshTokens.lookup other = some found → found.tokenHash ≠ row.tokenHash) ∧
      next = { db with refreshTokens := db.refreshTokens.insert tokenId row } := by
  obtain ⟨_, hrefuse, hnext⟩ := bind_eq_ok_iff.mp h
  rw [refuseIf_eq_ok_iff, not_or, Option.not_isSome_iff_eq_none, Bool.not_eq_true,
    Table.any_eq_false_iff] at hrefuse
  cases hnext
  refine ⟨hrefuse.1, fun other found hfound hsame => ?_, rfl⟩
  have hdiffers := hrefuse.2 other found hfound
  rw [hsame, beq_self_eq_true] at hdiffers
  cases hdiffers

theorem insertSession_keeps {row : SessionRow} {device : DeviceRow} {user : UserRow}
    (h : db.insertSession sessionId row = .ok next) (hdevice : db.devices.lookup row.deviceId = some device)
    (howner : device.userId = row.userId) (hactive : device.revokedAt = none)
    (huser : db.users.lookup row.userId = some user) (hlive : user.deletedAt = none) : Keeps db next := by
  obtain ⟨hnew, rfl⟩ := insertSession_ok h
  have hother : ∀ id found, db.sessions.lookup id = some found → id ≠ sessionId := by
    intro id found hfound hsame
    rw [hsame, hnew] at hfound
    cases hfound
  refine ⟨fun hinv => ⟨hinv.usable, hinv.hashes, ?_, ?_, ?_⟩, ⟨(Grows.refl db).tokens, ?_⟩⟩
  · intro id token htoken
    obtain ⟨session, hsession⟩ := Option.isSome_iff_exists.mp (hinv.session id token htoken)
    rw [Table.lookup_insert_eq_ite, if_neg (hother _ _ hsession), hsession]
    rfl
  · intro id found hfound
    rw [Table.lookup_insert_eq_ite] at hfound
    split at hfound
    · cases hfound
      exact ⟨device, hdevice, howner, fun hsome => by rw [hactive] at hsome; cases hsome⟩
    · exact hinv.device id found hfound
  · intro id found hfound
    rw [Table.lookup_insert_eq_ite] at hfound
    split at hfound
    · cases hfound
      exact ⟨user, huser, fun hsome => by rw [hlive] at hsome; cases hsome⟩
    · exact hinv.user id found hfound
  · intro id found hfound
    refine ⟨found, ?_, .refl found⟩
    rw [Table.lookup_insert_eq_ite, if_neg (hother id found hfound)]
    exact hfound

/-- A token of a session that has no other usable one. -/
theorem newToken_keeps {tokenId : Uuid} {row : RefreshTokenRow} (hnew : db.refreshTokens.lookup tokenId = none)
    (hhash : ∀ other found, db.refreshTokens.lookup other = some found → found.tokenHash ≠ row.tokenHash)
    (hsession : (db.sessions.lookup row.sessionId).isSome)
    (hfirst : ∀ id found, db.refreshTokens.lookup id = some found → found.sessionId = row.sessionId →
      found.usable = false) :
    Keeps db { db with refreshTokens := db.refreshTokens.insert tokenId row } := by
  have hother : ∀ id found, db.refreshTokens.lookup id = some found → id ≠ tokenId := by
    intro id found hfound hsame
    rw [hsame, hnew] at hfound
    cases hfound
  refine ⟨fun hinv => ⟨?_, ?_, ?_, hinv.device, hinv.user⟩, ⟨?_, (Grows.refl db).sessions⟩⟩
  · intro id other found another hfound hanother hsame huse hanotherUse
    rw [Table.lookup_insert_eq_ite] at hfound hanother
    split at hfound
    · rename_i hid
      cases hfound
      split at hanother
      · rename_i hotherId
        rw [hid, hotherId]
      · rw [hfirst other another hanother hsame.symm] at hanotherUse
        cases hanotherUse
    · split at hanother
      · cases hanother
        rw [hfirst id found hfound hsame] at huse
        cases huse
      · exact hinv.usable id other found another hfound hanother hsame huse hanotherUse
  · intro id other found another hfound hanother hsame
    rw [Table.lookup_insert_eq_ite] at hfound hanother
    split at hfound
    · rename_i hid
      cases hfound
      split at hanother
      · rename_i hotherId
        rw [hid, hotherId]
      · exact absurd hsame.symm (hhash other another hanother)
    · split at hanother
      · cases hanother
        exact absurd hsame (hhash id found hfound)
      · exact hinv.hashes id other found another hfound hanother hsame
  · intro id found hfound
    rw [Table.lookup_insert_eq_ite] at hfound
    split at hfound
    · cases hfound
      exact hsession
    · exact hinv.session id found hfound
  · intro id found hfound
    refine ⟨found, ?_, .refl found⟩
    rw [Table.lookup_insert_eq_ite, if_neg (hother id found hfound)]
    exact hfound

variable {crypto : Crypto} {config : AuthConfig} {request : VerifyCodeRequest} {readings : Readings}
  {fresh : Fresh}

theorem signIn_keeps (hinv : SessionsInv db)
    (h : signIn crypto config request readings fresh db = .ok (sessionId, next)) :
    SessionsInv next ∧ Grows db next := by
  obtain ⟨⟨userId, user, withUser⟩, huser, hrest⟩ := bind_eq_ok_iff.mp h
  obtain ⟨hkeepsUser, hlookup⟩ := upsertUser_keeps huser
  obtain ⟨_, hlive, hrest⟩ := bind_eq_ok_iff.mp hrest
  rw [refuseIf_eq_ok_iff, Option.not_isSome_iff_eq_none] at hlive
  obtain ⟨withDevice, hdevice, hrest⟩ := bind_eq_ok_iff.mp hrest
  obtain ⟨hkeepsDevice, husers, device, hdeviceRow, howner, hactive⟩ := registerDevice_keeps hdevice
  obtain ⟨withSession, hsession, hrest⟩ := bind_eq_ok_iff.mp hrest
  obtain ⟨withToken, htoken, hdone⟩ := bind_eq_ok_iff.mp hrest
  cases hdone
  have hbefore := (hkeepsUser.trans hkeepsDevice).inv hinv
  have hkeepsSession := insertSession_keeps hsession hdeviceRow howner hactive (husers ▸ hlookup) hlive
  obtain ⟨hnew, hinserted⟩ := insertSession_ok hsession
  obtain ⟨hnewToken, hhash, hwithToken⟩ := insertToken_ok htoken
  have hkeepsToken : Keeps withSession next := by
    rw [hwithToken]
    apply newToken_keeps hnewToken hhash
    · rw [hinserted]
      dsimp only
      rw [AList.lookup_insert]
      rfl
    · -- The session is new, so no token names it yet.
      intro id found hfound hsame
      have hnamed := hbefore.session id found (by rw [hinserted] at hfound; exact hfound)
      rw [hsame, hnew] at hnamed
      cases hnamed
  have hkeeps := ((hkeepsUser.trans hkeepsDevice).trans hkeepsSession).trans hkeepsToken
  exact ⟨hkeeps.inv hinv, hkeeps.grows⟩

theorem verifyCode_keeps {codeId : Uuid} {row : AuthCodeRow} (hinv : SessionsInv db) :
    SessionsInv (verifyCode crypto config request readings codeId row fresh db).2 ∧
      Grows db (verifyCode crypto config request readings codeId row fresh db).2 := by
  have hcount : Keeps db (db.countAttempt codeId) := Keeps.of_apart rfl rfl rfl rfl
  unfold verifyCode
  split
  · exact ⟨hinv, .refl db⟩
  · exact ⟨hcount.inv hinv, hcount.grows⟩
  · exact ⟨hcount.inv hinv, hcount.grows⟩
  · split
    · exact ⟨hinv, .refl db⟩
    · rename_i signedIn hsignIn
      obtain ⟨hsigned, hgrows⟩ := signIn_keeps hinv hsignIn
      have hconsume : Keeps signedIn (signedIn.consumeCode codeId readings.begun) :=
        Keeps.of_apart rfl rfl rfl rfl
      exact ⟨hconsume.inv hsigned, hgrows.trans hconsume.grows⟩

theorem requestCode_keeps {email : String} :
    Keeps db (requestCode crypto config email readings fresh db).2 := by
  have hcount : ∀ clock, Keeps db (checkRateLimit crypto config clock email db).2 := by
    intro clock
    unfold checkRateLimit
    dsimp only
    split
    · exact Keeps.of_apart rfl rfl rfl rfl
    · split
      · exact Keeps.of_apart rfl rfl rfl rfl
      · exact Keeps.of_apart rfl rfl rfl rfl
  have hcounted := hcount fresh.clock
  unfold requestCode
  generalize checkRateLimit crypto config fresh.clock email db = checked at hcounted
  obtain ⟨limit, counted⟩ := checked
  cases limit with
  | globalExceeded => exact hcounted
  | suppressed => exact hcounted
  | allowed =>
      dsimp only
      split
      · exact hcounted
      · split
        · exact .refl db
        · split
          · exact .refl db
          · exact hcounted.trans (Keeps.of_apart rfl rfl rfl rfl)

/-! ### Rotation and revocation -/

theorem revokes_retireToken {tokenId replacedBy : Uuid} : Revokes db (db.retireToken tokenId replacedBy now) := by
  constructor
  · refine ⟨fun id row => if id = tokenId ∧ row.rotatedAt = none then
        { row with
          rotatedAt := some now.toColumn
          replacedBy := some replacedBy } else row, rfl, fun id row => ?_⟩
    dsimp only
    split
    · refine ⟨rfl, rfl, fun _ => ?_⟩
      simp [RefreshTokenRow.usable]
    · exact .refl row
  · refine ⟨fun _ row => row, ?_, fun _ row => .refl row⟩
    apply AList.ext
    exact (List.map_id _).symm

theorem renewSession_keeps (sessionId : Uuid) (hash : Bytes) (expiresAt now : Instant) :
    Keeps db (db.renewSession sessionId hash expiresAt now) := by
  have hrevokes : Revokes db (db.renewSession sessionId hash expiresAt now) := by
    constructor
    · refine ⟨fun _ row => row, ?_, fun _ row => .refl row⟩
      apply AList.ext
      exact (List.map_id _).symm
    · refine ⟨fun id session => if id = sessionId ∧ session.revokedAt = none then
          { session with
            refreshTokenHash := hash
            expiresAt := expiresAt
            rotatedAt := some now.toColumn } else session, rfl, fun id row => ?_⟩
      dsimp only
      split
      · exact ⟨rfl, rfl, fun hended => hended⟩
      · exact .refl row
  exact ⟨fun hinv => hinv.revokes_apart hrevokes rfl rfl, hrevokes.grows⟩

/-- The new token is the only usable one of its session, because the old one was. -/
theorem rotate_keeps {tokenId : Uuid} {row : RefreshTokenRow} {hash : Bytes} (hinv : SessionsInv db)
    (hrow : db.refreshTokens.lookup tokenId = some row) (huse : row.usable = true)
    (h : db.rotate config tokenId row hash readings fresh = .ok next) :
    SessionsInv next ∧ Grows db next := by
  obtain ⟨inserted, hinsert, hrest⟩ := bind_eq_ok_iff.mp h
  obtain ⟨hnew, hhash, rfl⟩ := insertToken_ok hinsert
  obtain ⟨_, -, hdone⟩ := bind_eq_ok_iff.mp hrest
  cases hdone
  have hrotated : row.rotatedAt = none := by
    simp only [RefreshTokenRow.usable, Bool.and_eq_true, Option.isNone_iff_eq_none] at huse
    exact huse.1
  have hretires : Revokes db (db.retireToken tokenId fresh.id readings.begun) := revokes_retireToken
  have hretired : Keeps db (db.retireToken tokenId fresh.id readings.begun) :=
    ⟨fun hinv => hinv.revokes_apart hretires rfl rfl, hretires.grows⟩
  set expiresAt := (plusSeconds readings.now config.refreshTokenTtlSeconds).toColumn
  set new : RefreshTokenRow := ⟨row.sessionId, hash, expiresAt, none, none, none⟩
  have hcommutes : ({ db with refreshTokens := db.refreshTokens.insert fresh.id new } : AuthDb).retireToken
      tokenId fresh.id readings.begun =
        { db.retireToken tokenId fresh.id readings.begun with
          refreshTokens :=
            (db.retireToken tokenId fresh.id readings.begun).refreshTokens.insert fresh.id new } := by
    have hapart : fresh.id ≠ tokenId := by
      intro hsame
      rw [hsame, hrow] at hnew
      cases hnew
    simp only [AuthDb.retireToken, Table.rewrite_insert_of_lookup_eq_none hnew]
    rw [if_neg fun h => hapart h.1]
  have hinserted : Keeps (db.retireToken tokenId fresh.id readings.begun)
      { db.retireToken tokenId fresh.id readings.begun with
        refreshTokens :=
          (db.retireToken tokenId fresh.id readings.begun).refreshTokens.insert fresh.id new } := by
    apply newToken_keeps
    · simp only [AuthDb.retireToken, Table.lookup_rewrite, hnew, Option.map_none]
    · intro other found hfound hsame
      obtain ⟨old, hold, hages⟩ := hretires.token_before hfound
      exact hhash other old hold (hages.hash.symm.trans hsame)
    · exact hinv.session tokenId row hrow
    · -- The retired token was the usable one.
      intro other found hfound hsession
      obtain ⟨old, hold, hages⟩ := hretires.token_before hfound
      rcases hold' : old.usable with _ | _
      · exact hages.spent hold'
      · have hsame : other = tokenId :=
          hinv.usable other tokenId old row hold hrow (hages.session.symm.trans hsession) hold' huse
        rw [hsame] at hfound
        simp only [AuthDb.retireToken, Table.lookup_rewrite, hrow, Option.map_some, true_and, hrotated,
          if_true] at hfound
        rw [← Option.some.inj hfound]
        rfl
  rw [hcommutes]
  have hkeeps := (hretired.trans hinserted).trans
    (renewSession_keeps row.sessionId hash expiresAt readings.begun)
  exact ⟨hkeeps.inv hinv, hkeeps.grows⟩

theorem revokes_expire : Revokes db ((db.expireSession sessionId now).revokeTokens (· == sessionId) now) := by
  constructor
  · refine ⟨fun _ row => if row.sessionId == sessionId then row.revoke now else row, rfl, fun id row => ?_⟩
    dsimp only
    split
    · exact row.ages_revoke now
    · exact .refl row
  · refine ⟨fun id row => if id = sessionId then { row with revokedAt := some now.toColumn } else row, rfl,
      fun id row => ?_⟩
    dsimp only
    split
    · exact ⟨rfl, rfl, fun _ => rfl⟩
    · exact .refl row

theorem refreshRow_eq_some {tokenId : Uuid} {tokenHash : Bytes} {row : RefreshRow}
    (h : db.refreshRow tokenId tokenHash = some row) :
    db.refreshTokens.lookup tokenId = some row.token ∧ row.token.tokenHash = tokenHash ∧
      db.sessions.lookup row.token.sessionId = some row.session := by
  unfold AuthDb.refreshRow at h
  obtain ⟨token, htoken, hrest⟩ := Option.bind_eq_some_iff.mp h
  obtain ⟨session, hsession, hrest⟩ := Option.bind_eq_some_iff.mp hrest
  obtain ⟨user, -, hrest⟩ := Option.bind_eq_some_iff.mp hrest
  obtain ⟨device, -, hrow⟩ := Option.bind_eq_some_iff.mp hrest
  obtain ⟨hlookup, hhash⟩ := Option.filter_eq_some_iff.mp htoken
  cases hrow
  exact ⟨hlookup, beq_iff_eq.mp hhash, hsession⟩

theorem refresh_keeps {tokenHash : Bytes} {locator : Option RefreshLocatorRow} (hinv : SessionsInv db) :
    SessionsInv (refresh crypto config tokenHash locator readings fresh db).2 ∧
      Grows db (refresh crypto config tokenHash locator readings fresh db).2 := by
  have hsame : SessionsInv db ∧ Grows db db := ⟨hinv, .refl db⟩
  unfold refresh
  split
  · exact hsame
  · split
    · exact hsame
    · split
      · exact hsame
      · rename_i row hrow
        split
        · exact ⟨hinv.revokes_apart revokes_endSession rfl rfl, revokes_endSession.grows⟩
        · rename_i hspent
          split
          · exact ⟨hinv.revokes_apart revokes_expire rfl rfl, revokes_expire.grows⟩
          · split
            · exact hsame
            · rename_i rotated hrotate
              have huse : row.token.usable = true := by
                simp only [not_or, Option.not_isSome_iff_eq_none] at hspent
                simp [RefreshTokenRow.usable, hspent]
              exact rotate_keeps hinv (refreshRow_eq_some hrow).1 huse hrotate

theorem logout_keeps {auth : AuthUser} : Keeps db (logout auth begun db).2 := by
  unfold logout
  split
  · exact .refl db
  · exact ⟨fun hinv => hinv.revokes_apart revokes_endSession rfl rfl, revokes_endSession.grows⟩

/-- A session that the test selects has ended, and another is as it was. -/
theorem session_endSessions {test : SessionRow → Bool} {id : Uuid} {row : SessionRow}
    (h : (db.endSessions test now).sessions.lookup id = some row) :
    ∃ old, db.sessions.lookup id = some old ∧ old.Ages row ∧ (test old = true → row.revokedAt.isSome) := by
  simp only [AuthDb.endSessions, AuthDb.revokeTokens, AuthDb.revokeSessions, Table.lookup_rewrite,
    Option.map_eq_some_iff] at h
  obtain ⟨old, hold, hrow⟩ := h
  refine ⟨old, hold, ?_, fun htest => ?_⟩
  · rw [← hrow]
    split
    · exact old.ages_revoke now
    · exact .refl old
  · rw [if_pos htest] at hrow
    rw [← hrow]
    rfl

theorem ownedDevice_eq_some {userId deviceId : Uuid} {device : DeviceRow}
    (h : db.ownedDevice userId deviceId = some device) :
    db.devices.lookup deviceId = some device ∧ device.userId = userId := by
  obtain ⟨hlookup, howner⟩ := Option.filter_eq_some_iff.mp h
  exact ⟨hlookup, beq_iff_eq.mp howner⟩

theorem deleteDevice_keeps {auth : AuthUser} {deviceId : Uuid} :
    Keeps db (deleteDevice auth deviceId begun db).2 := by
  unfold deleteDevice
  split
  · exact .refl db
  · split
    · exact .refl db
    · rename_i device hdevice
      split
      · exact .refl db
      · obtain ⟨hlookup, howner⟩ := ownedDevice_eq_some hdevice
        set revoked : AuthDb := { db with devices := db.devices.insert deviceId (device.revoke begun) }
        have hrevokes : Revokes revoked (revoked.endSessions
            (fun session => session.userId == auth.userId && session.deviceId == deviceId) begun) :=
          revokes_endSessions _
        have hages : Revokes db (revoked.endSessions
            (fun session => session.userId == auth.userId && session.deviceId == deviceId) begun) :=
          ⟨hrevokes.tokens, hrevokes.sessions⟩
        refine ⟨fun hinv => hinv.revokes hages ?_ ?_, hages.grows⟩
        · intro id row hrow
          obtain ⟨old, hold, hage, hended⟩ := session_endSessions hrow
          obtain ⟨found, hfound, hfoundOwner, hrevoked⟩ := hinv.device id old hold
          change ∃ device, (db.devices.insert deviceId _).lookup row.deviceId = some device ∧ _
          rw [hage.device, hage.user, Table.lookup_insert_eq_ite]
          by_cases hsame : old.deviceId = deviceId
          · rw [if_pos hsame]
            rw [hsame, hlookup] at hfound
            obtain rfl := Option.some.inj hfound
            refine ⟨_, rfl, hfoundOwner, fun _ => hended ?_⟩
            simp [hsame, ← hfoundOwner, howner]
          · rw [if_neg hsame]
            exact ⟨found, hfound, hfoundOwner, fun hsome => hage.ended (hrevoked hsome)⟩
        · intro id row hrow
          obtain ⟨old, hold, hage, -⟩ := session_endSessions hrow
          obtain ⟨user, huser, hdeleted⟩ := hinv.user id old hold
          rw [hage.user]
          exact ⟨user, huser, fun hsome => hage.ended (hdeleted hsome)⟩

theorem deleteAccount_keeps {auth : AuthUser} : Keeps db (deleteAccount auth begun db).2 := by
  unfold deleteAccount
  split
  · exact .refl db
  · rename_i user huser
    split
    · exact .refl db
    · set deleted : AuthDb := { db with
        users := db.users.insert auth.userId { user with deletedAt := some begun.toColumn }
        devices := db.devices.rewrite fun _ device =>
          if device.userId = auth.userId then device.revoke begun else device }
      have hrevokes : Revokes deleted (deleted.endSessions (fun session => session.userId == auth.userId)
          begun) := revokes_endSessions _
      have hages : Revokes db (deleted.endSessions (fun session => session.userId == auth.userId) begun) :=
        ⟨hrevokes.tokens, hrevokes.sessions⟩
      refine ⟨fun hinv => hinv.revokes hages ?_ ?_, hages.grows⟩
      · intro id row hrow
        obtain ⟨old, hold, hage, hended⟩ := session_endSessions hrow
        obtain ⟨device, hdevice, howner, hrevoked⟩ := hinv.device id old hold
        change ∃ device, (db.devices.rewrite _).lookup row.deviceId = some device ∧ _
        rw [hage.device, hage.user, Table.lookup_rewrite, hdevice]
        refine ⟨_, rfl, ?_, ?_⟩
        · dsimp only
          split
          · exact howner
          · exact howner
        · dsimp only
          split
          · rename_i hsame
            intro _
            exact hended (by rw [← howner, hsame]; exact beq_self_eq_true _)
          · exact fun hsome => hage.ended (hrevoked hsome)
      · intro id row hrow
        obtain ⟨old, hold, hage, hended⟩ := session_endSessions hrow
        obtain ⟨owner, howner, hdeleted⟩ := hinv.user id old hold
        change ∃ user, (db.users.insert auth.userId _).lookup row.userId = some user ∧ _
        rw [hage.user, Table.lookup_insert_eq_ite]
        by_cases hsame : old.userId = auth.userId
        · rw [if_pos hsame]
          exact ⟨_, rfl, fun _ => hended (by rw [hsame]; exact beq_self_eq_true _)⟩
        · rw [if_neg hsame]
          exact ⟨owner, howner, fun hsome => hage.ended (hdeleted hsome)⟩

/-! ### Every run -/

theorem advance_keeps {index : Nat} {world : World} (call : Call) (hinv : SessionsInv world.db) :
    SessionsInv (advance crypto config index fresh world call).db ∧
      Grows world.db (advance crypto config index fresh world call).db := by
  have hsame : SessionsInv world.db ∧ Grows world.db world.db := ⟨hinv, .refl world.db⟩
  cases call with
  | requestCode email readings =>
      have hkeeps : Keeps world.db (requestCode crypto config email readings fresh world.db).2 :=
        requestCode_keeps
      exact ⟨hkeeps.inv hinv, hkeeps.grows⟩
  | select request readings => exact hsame
  | lock request readings seen candidates =>
      cases candidates with
      | nil => exact hsame
      | cons codeId rest =>
          simp only [advance]
          split
          · exact hsame
          · split
            · exact hsame
            · exact hsame
  | locked request readings seen codeId =>
      simp only [advance]
      split
      · exact hsame
      · exact verifyCode_keeps hinv
  | refresh tokenHash locator readings => exact refresh_keeps hinv
  | act auth action begun =>
      have hkeeps : Keeps world.db (act auth begun world.db action).2 := by
        cases action with
        | logout => exact logout_keeps
        | deleteDevice deviceId => exact deleteDevice_keeps
        | deleteAccount => exact deleteAccount_keeps
      exact ⟨hkeeps.inv hinv, hkeeps.grows⟩

theorem begins_or_not (world : World) (begun : ApiResult Call) :
    (world.begins begun).db = world.db ∧
      (refusals begun = [] ∨ ∃ error, refusals begun = [.refused error]) := by
  cases begun with
  | error error => exact ⟨rfl, .inr ⟨error, rfl⟩⟩
  | ok call => exact ⟨rfl, .inl rfl⟩

/-- An event is the next step of a call in progress, or leaves the tables alone. -/
theorem step_cases (crypto : Crypto) (config : AuthConfig) (world : World) (event : Event) :
    (∃ index fresh call, event = .advance index fresh ∧ world.calls[index]? = some call ∧
      (authRuns crypto config).step world event = advance crypto config index fresh world call ∧
      (authRuns crypto config).emit world event = entriesOf crypto config fresh world.db call) ∨
    ((authRuns crypto config).step world event).db = world.db ∧
      ((authRuns crypto config).emit world event = [] ∨
        ∃ error, (authRuns crypto config).emit world event = [.refused error]) := by
  cases event with
  | requestCode email readings =>
      simp only [authRuns]
      exact .inr (begins_or_not world _)
  | verifyCode request readings =>
      simp only [authRuns]
      exact .inr (begins_or_not world _)
  | refresh request readings =>
      simp only [authRuns]
      exact .inr (begins_or_not world _)
  | act claims action readings =>
      simp only [authRuns]
      exact .inr (begins_or_not world _)
  | advance index fresh =>
      rcases hcall : world.calls[index]? with _ | call
      · right
        simp [authRuns, hcall]
      · refine .inl ⟨index, fresh, call, rfl, hcall, ?_, ?_⟩
        · simp only [authRuns, hcall]
        · simp only [authRuns, hcall]

theorem step_keeps (crypto : Crypto) (config : AuthConfig) (world : World) (event : Event) (hinv : SessionsInv world.db) :
    SessionsInv ((authRuns crypto config).step world event).db ∧
      Grows world.db ((authRuns crypto config).step world event).db := by
  obtain ⟨index, fresh, call, -, -, hstep, -⟩ | ⟨hdb, -⟩ :=
    step_cases crypto config world event
  · rw [hstep]
    exact advance_keeps call hinv
  · rw [hdb]
    exact ⟨hinv, .refl world.db⟩

theorem run_keeps (crypto : Crypto) (config : AuthConfig) (events : List Event) {world : World}
    (hinv : SessionsInv world.db) :
    SessionsInv ((authRuns crypto config).run world events).db ∧
      Grows world.db ((authRuns crypto config).run world events).db := by
  induction events generalizing world with
  | nil => exact ⟨hinv, .refl world.db⟩
  | cons event rest ih =>
      obtain ⟨hnext, hgrows⟩ := step_keeps crypto config world event hinv
      obtain ⟨hlast, hmore⟩ := ih hnext
      exact ⟨hlast, hgrows.trans hmore⟩

end Auth

end ShishiTodo
