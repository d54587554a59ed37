import ShishiTodo.Auth.Sessions
import Mathlib.Data.List.Induction
import Mathlib.Data.List.Perm.Basic

/-!
# Sign-in codes

What becomes of a code that was sent: the guesses against it, the one session it can open, and the codes that stand before it. A verification tries the codes it saw from the newest on, and waits for each.
-/

namespace ShishiTodo

namespace Auth

open Lib

variable {crypto : Crypto} {config : AuthConfig} {readings : Readings} {fresh : Fresh} {db next : AuthDb}
  {world : World} {codeId : Uuid}

/-! ### Codes change in few ways -/

theorem signIn_codes {request : VerifyCodeRequest} {sessionId : Uuid}
    (h : signIn crypto config request readings fresh db = .ok (sessionId, next)) :
    next.authCodes = db.authCodes := by
  obtain ⟨⟨userId, user, withUser⟩, huser, hrest⟩ := bind_eq_ok_iff.mp h
  obtain ⟨_, -, hrest⟩ := bind_eq_ok_iff.mp hrest
  obtain ⟨withDevice, hdevice, hrest⟩ := bind_eq_ok_iff.mp hrest
  obtain ⟨withSession, hsession, hrest⟩ := bind_eq_ok_iff.mp hrest
  obtain ⟨withToken, htoken, hdone⟩ := bind_eq_ok_iff.mp hrest
  cases hdone
  have huserCodes : withUser.authCodes = db.authCodes := by
    unfold AuthDb.upsertUser at huser
    split at huser
    · cases huser
      rfl
    · split at huser
      · cases huser
      · cases huser
        rfl
  have hdeviceCodes : withDevice.authCodes = withUser.authCodes := by
    unfold AuthDb.registerDevice at hdevice
    dsimp only at hdevice
    split at hdevice
    · split at hdevice
      · cases hdevice
      · cases hdevice
        rfl
    · cases hdevice
      rfl
  have hsessionCodes : withSession.authCodes = withDevice.authCodes := by
    rw [(insertSession_ok hsession).2]
  have htokenCodes : next.authCodes = withSession.authCodes := by
    rw [(insertToken_ok htoken).2.2]
  rw [htokenCodes, hsessionCodes, hdeviceCodes, huserCodes]

theorem refresh_codes {tokenHash : Bytes} {locator : Option RefreshLocatorRow} :
    (refresh crypto config tokenHash locator readings fresh db).2.authCodes = db.authCodes := by
  unfold refresh
  split
  · rfl
  · split
    · rfl
    · split
      · rfl
      · split
        · rfl
        · split
          · rfl
          · split
            · rfl
            · rename_i rotated hrotate
              obtain ⟨inserted, hinsert, hrest⟩ := bind_eq_ok_iff.mp hrotate
              obtain ⟨_, -, hdone⟩ := bind_eq_ok_iff.mp hrest
              cases hdone
              rw [(insertToken_ok hinsert).2.2]
              rfl

theorem act_codes {auth : AuthUser} {begun : Instant} {action : Action} :
    (act auth begun db action).2.authCodes = db.authCodes := by
  cases action with
  | logout =>
      simp only [act, logout]
      split
      · rfl
      · rfl
  | deleteDevice deviceId =>
      simp only [act, deleteDevice]
      split
      · rfl
      · split
        · rfl
        · split
          · rfl
          · rfl
  | deleteAccount =>
      simp only [act, deleteAccount]
      split
      · rfl
      · split
        · rfl
        · rfl

/-- A code request leaves the codes alone, or adds one that nobody has tried. -/
theorem requestCode_codes (email : String) :
    ((requestCode crypto config email readings fresh db).1 ≠ .accepted ∧
      (requestCode crypto config email readings fresh db).2.authCodes = db.authCodes) ∨
    ∃ row, (requestCode crypto config email readings fresh db).1 = .accepted ∧
      db.authCodes.lookup fresh.id = none ∧
      (requestCode crypto config email readings fresh db).2.authCodes = db.authCodes.insert fresh.id row ∧
      row.attempts = 0 ∧ row.consumedAt = none := by
  have hcount : ∀ clock, (checkRateLimit crypto config clock email db).2.authCodes = db.authCodes := by
    intro clock
    unfold checkRateLimit
    dsimp only
    split
    · rfl
    · split
      · rfl
      · rfl
  have hcounted := hcount fresh.clock
  unfold requestCode
  generalize checkRateLimit crypto config fresh.clock email db = checked at hcounted
  obtain ⟨limit, counted⟩ := checked
  cases limit with
  | globalExceeded => exact .inl ⟨nofun, hcounted⟩
  | suppressed => exact .inl ⟨nofun, hcounted⟩
  | allowed =>
      dsimp only at hcounted ⊢
      split
      · exact .inl ⟨nofun, hcounted⟩
      · split
        · exact .inl ⟨nofun, rfl⟩
        · rename_i code hcode
          split
          · exact .inl ⟨nofun, rfl⟩
          · rename_i hfree
            rw [hcounted, Bool.not_eq_true, Option.isSome_eq_false_iff, Option.isNone_iff_eq_none] at hfree
            refine .inr ⟨newCode crypto config email code readings, rfl, hfree, ?_, rfl, rfl⟩
            rw [hcounted]

/-! ### A code keeps what it was issued with -/

structure AuthCodeRow.Follows (before after : AuthCodeRow) : Prop where
  email : after.emailNormalized = before.emailNormalized
  expires : after.expiresAt = before.expiresAt
  created : after.createdAt = before.createdAt
  consumed : before.consumedAt.isSome → after.consumedAt.isSome

theorem AuthCodeRow.Follows.refl (row : AuthCodeRow) : row.Follows row := ⟨rfl, rfl, rfl, id⟩

theorem AuthCodeRow.Follows.trans {first second third : AuthCodeRow} (h : first.Follows second)
    (hnext : second.Follows third) : first.Follows third :=
  ⟨hnext.email.trans h.email, hnext.expires.trans h.expires, hnext.created.trans h.created,
    fun hconsumed => hnext.consumed (h.consumed hconsumed)⟩

abbrev Codes := Table Uuid AuthCodeRow

def CodesGrow (before after : Codes) : Prop :=
  ∀ id row, before.lookup id = some row → ∃ next, after.lookup id = some next ∧ row.Follows next

theorem CodesGrow.refl (codes : Codes) : CodesGrow codes codes := fun _ row h => ⟨row, h, .refl row⟩

theorem codesGrow_insert {codes : Codes} {row : AuthCodeRow} (hnew : codes.lookup codeId = none) :
    CodesGrow codes (codes.insert codeId row) := by
  intro id found hfound
  refine ⟨found, ?_, .refl found⟩
  rw [Table.lookup_insert_eq_ite, if_neg]
  · exact hfound
  · intro hsame
    rw [hsame, hnew] at hfound
    cases hfound

theorem codesGrow_rewrite {codes : Codes} {change : Uuid → AuthCodeRow → AuthCodeRow}
    (hchange : ∀ id (row : AuthCodeRow), row.Follows (change id row)) : CodesGrow codes (codes.rewrite change) := by
  intro id row hrow
  rw [Table.lookup_rewrite, hrow]
  exact ⟨_, rfl, hchange id row⟩

def Consumed (codes : Codes) (id : Uuid) : Prop :=
  ∃ row, codes.lookup id = some row ∧ row.consumedAt.isSome

theorem Consumed.grow {before after : Codes} {id : Uuid} (h : Consumed before id)
    (hgrow : CodesGrow before after) : Consumed after id := by
  obtain ⟨row, hrow, hconsumed⟩ := h
  obtain ⟨next, hnext, hfollows⟩ := hgrow id row hrow
  exact ⟨next, hnext, hfollows.consumed hconsumed⟩

/-! ### Verifications in progress -/

/-- The codes a verification has not tried yet are in order, and those it has tried were consumed. -/
structure Trying (codes : Codes) (request : VerifyCodeRequest) (begun : Instant) (seen : Codes)
    (candidates : List Uuid) : Prop where
  grown : CodesGrow seen codes
  found : ∀ id ∈ candidates, ∃ row, seen.lookup id = some row ∧ row.openFor request.email begun = true
  order : candidates.Pairwise fun newer older => ∀ first second, seen.lookup newer = some first →
    seen.lookup older = some second → second.createdAt.nanos ≤ first.createdAt.nanos
  tried : ∀ id row, seen.lookup id = some row → row.openFor request.email begun = true →
    id ∈ candidates ∨ Consumed codes id

/-- Of the codes a verification saw for its address, each newer one than this was consumed, or had expired when it began. -/
def NewestOf (codes : Codes) (request : VerifyCodeRequest) (begun : Instant) (seen : Codes)
    (row : AuthCodeRow) : Prop :=
  ∀ other found, seen.lookup other = some found → found.emailNormalized = request.email →
    row.createdAt.nanos < found.createdAt.nanos →
    Consumed codes other ∨ found.expiresAt.nanos ≤ begun.nanos

/-- The code a verification has locked is open, and there is no newer one. -/
def Chosen (codes : Codes) (request : VerifyCodeRequest) (begun : Instant) (seen : Codes) (codeId : Uuid) :
    Prop :=
  ∃ row, codes.lookup codeId = some row ∧ row.openFor request.email begun = true ∧
    NewestOf codes request begun seen row

theorem Trying.grow {before after seen : Codes} {request : VerifyCodeRequest} {begun : Instant}
    {candidates : List Uuid} (h : Trying before request begun seen candidates)
    (hgrow : CodesGrow before after) : Trying after request begun seen candidates where
  grown := by
    intro id row hrow
    obtain ⟨middle, hmiddle, hfollows⟩ := h.grown id row hrow
    obtain ⟨last, hlast, hmore⟩ := hgrow id middle hmiddle
    exact ⟨last, hlast, hfollows.trans hmore⟩
  found := h.found
  order := h.order
  tried := fun id row hrow hopen => (h.tried id row hrow hopen).imp (fun hmem => hmem) fun hconsumed =>
    hconsumed.grow hgrow

theorem NewestOf.grow {before after seen : Codes} {request : VerifyCodeRequest} {begun : Instant}
    {row : AuthCodeRow} (h : NewestOf before request begun seen row) (hgrow : CodesGrow before after) :
    NewestOf after request begun seen row := fun other found hfound hemail hnewer =>
  (h other found hfound hemail hnewer).imp_left fun hconsumed => hconsumed.grow hgrow

instance : IsTrans (Sigma fun _ : Uuid => AuthCodeRow)
    fun left right => right.2.createdAt.nanos ≤ left.2.createdAt.nanos :=
  ⟨fun _ _ _ hfirst hsecond => hsecond.trans hfirst⟩

instance : Std.Total fun left right : Sigma fun _ : Uuid => AuthCodeRow =>
    right.2.createdAt.nanos ≤ left.2.createdAt.nanos :=
  ⟨fun left right => Int.le_total right.2.createdAt.nanos left.2.createdAt.nanos⟩

/-- What a verification sees when its statement begins. -/
theorem trying_begins (codes : Codes) (request : VerifyCodeRequest) (begun : Instant) :
    Trying codes request begun codes (openCodes request.email begun codes) := by
  refine ⟨.refl codes, ?_, ?_, ?_⟩
  · intro id hid
    obtain ⟨entry, hentry, rfl⟩ := List.mem_map.mp hid
    obtain ⟨hmem, hopen⟩ := List.mem_filter.mp ((List.mem_insertionSort _).mp hentry)
    exact ⟨entry.2, Table.mem_entries_iff.mp hmem, hopen⟩
  · rw [openCodes, List.pairwise_map]
    have hsorted := List.pairwise_insertionSort
      (fun left right : Sigma fun _ : Uuid => AuthCodeRow =>
        right.2.createdAt.nanos ≤ left.2.createdAt.nanos)
      (codes.entries.filter fun entry => entry.2.openFor request.email begun)
    refine hsorted.imp_of_mem ?_
    intro newer older hnewer holder hle first second hfirst hsecond
    have hlookup : ∀ entry ∈ (codes.entries.filter fun entry =>
        entry.2.openFor request.email begun).insertionSort
          (fun left right => right.2.createdAt.nanos ≤ left.2.createdAt.nanos),
        codes.lookup entry.1 = some entry.2 := by
      intro entry hentry
      exact Table.mem_entries_iff.mp (List.mem_filter.mp ((List.mem_insertionSort _).mp hentry)).1
    rw [hlookup newer hnewer] at hfirst
    rw [hlookup older holder] at hsecond
    rw [← Option.some.inj hfirst, ← Option.some.inj hsecond]
    exact hle
  · intro id row hrow hopen
    left
    apply List.mem_map.mpr
    refine ⟨⟨id, row⟩, (List.mem_insertionSort _).mpr (List.mem_filter.mpr ⟨?_, hopen⟩), rfl⟩
    exact Table.mem_entries_iff.mpr hrow

/-! ### What was said of a code -/

/-- It tells neither of a new code nor of a guess nor of a sign-in. -/
def Entry.Silent : Entry → Prop
  | .issued _ _ => False
  | .guessed _ => False
  | .opened _ _ _ => False
  | _ => True

def Entry.opening : Entry → Option Uuid
  | .opened codeId _ _ => some codeId
  | _ => none

/-- The codes that opened a session, in order. -/
def openings (log : List Entry) : List Uuid := log.filterMap Entry.opening

def Entry.isGuess (codeId : Uuid) : Entry → Bool
  | .guessed other => other == codeId
  | _ => false

/-- The wrong guesses against a code. -/
def guesses (codeId : Uuid) (log : List Entry) : Nat := log.countP (Entry.isGuess codeId)

@[simp] theorem openings_append (first second : List Entry) :
    openings (first ++ second) = openings first ++ openings second := List.filterMap_append

@[simp] theorem guesses_append (first second : List Entry) :
    guesses codeId (first ++ second) = guesses codeId first + guesses codeId second := List.countP_append

theorem openings_silent {entries : List Entry} (h : ∀ entry ∈ entries, entry.Silent) :
    openings entries = [] := by
  apply List.filterMap_eq_nil_iff.mpr
  intro entry hentry
  cases entry with
  | opened id sessionId readings => exact (h _ hentry).elim
  | issued id row => rfl
  | guessed id => rfl
  | renewed sessionId => rfl
  | refused error => rfl
  | done => rfl

theorem guesses_silent {entries : List Entry} (h : ∀ entry ∈ entries, entry.Silent) :
    guesses codeId entries = 0 := by
  apply List.countP_eq_zero.mpr
  intro entry hentry hguess
  cases entry with
  | guessed id => exact h _ hentry
  | opened id sessionId readings => cases hguess
  | issued id row => cases hguess
  | renewed sessionId => cases hguess
  | refused error => cases hguess
  | done => cases hguess

/-- What the requests in progress keep of the codes. -/
structure CodesInv (config : AuthConfig) (codes : Codes) (calls : List Call) (past : List Entry) : Prop where
  known : ∀ id row, codes.lookup id = some row → ∃ first, .issued id first ∈ past ∧ first.Follows row
  counted : ∀ id row, codes.lookup id = some row → min (guesses id past : Int) 10 ≤ row.attempts
  guessed : ∀ id, 0 < guesses id past → (codes.lookup id).isSome
  consumed : ∀ id ∈ openings past, Consumed codes id
  once : (openings past).Nodup
  timely : ∀ id sessionId readings, .opened id sessionId readings ∈ past → ∃ first,
    .issued id first ∈ past ∧ readings.now.nanos < first.expiresAt.nanos ∧
      readings.begun.nanos < first.expiresAt.nanos
  bounded : ∀ earlier id sessionId readings later, past = earlier ++ .opened id sessionId readings :: later →
    (guesses id earlier : Int) < config.authCodeMaxAttempts
  held : (calls.filterMap Call.holds).Nodup
  trying : ∀ call ∈ calls, ∀ request readings seen candidates,
    call = .lock request readings seen candidates → Trying codes request readings.begun seen candidates
  chosen : ∀ call ∈ calls, ∀ request readings seen codeId,
    call = .locked request readings seen codeId → Chosen codes request readings.begun seen codeId

variable {codes : Codes} {calls rest : List Call} {call : Call} {past entries : List Entry}

theorem CodesInv.perm {other : List Call} (h : CodesInv config codes calls past) (hperm : calls.Perm other) :
    CodesInv config codes other past :=
  { h with
    held := (hperm.filterMap Call.holds).nodup_iff.mp h.held
    trying := fun call hcall => h.trying call (hperm.mem_iff.mpr hcall)
    chosen := fun call hcall => h.chosen call (hperm.mem_iff.mpr hcall) }

theorem CodesInv.drop (h : CodesInv config codes (call :: rest) past) : CodesInv config codes rest past :=
  { h with
    held := h.held.sublist ((List.sublist_cons_self call rest).filterMap Call.holds)
    trying := fun other hother => h.trying other (List.mem_cons_of_mem call hother)
    chosen := fun other hother => h.chosen other (List.mem_cons_of_mem call hother) }

/-- A call that holds no lock. -/
theorem CodesInv.push (h : CodesInv config codes rest past) (hfree : call.holds = none)
    (htrying : ∀ request readings seen candidates, call = .lock request readings seen candidates →
      Trying codes request readings.begun seen candidates) :
    CodesInv config codes (call :: rest) past :=
  { h with
    held := by
      rw [List.filterMap_cons_none hfree]
      exact h.held
    trying := fun other hother => by
      rcases List.mem_cons.mp hother with rfl | hrest
      · exact htrying
      · exact h.trying other hrest
    chosen := fun other hother request readings seen codeId hlocked => by
      rcases List.mem_cons.mp hother with rfl | hrest
      · rw [hlocked] at hfree
        cases hfree
      · exact h.chosen other hrest request readings seen codeId hlocked }

theorem CodesInv.tells (h : CodesInv config codes calls past) (hsilent : ∀ entry ∈ entries, entry.Silent) :
    CodesInv config codes calls (past ++ entries) := by
  have hguesses : ∀ id, guesses id (past ++ entries) = guesses id past := fun id => by
    rw [guesses_append, guesses_silent hsilent, Nat.add_zero]
  have hopenings : openings (past ++ entries) = openings past := by
    rw [openings_append, openings_silent hsilent, List.append_nil]
  exact
    { h with
      known := fun id row hrow => by
        obtain ⟨first, hissued, hfollows⟩ := h.known id row hrow
        exact ⟨first, List.mem_append_left _ hissued, hfollows⟩
      counted := fun id row hrow => by
        rw [hguesses]
        exact h.counted id row hrow
      guessed := fun id hguess => h.guessed id (hguesses id ▸ hguess)
      consumed := fun id hid => h.consumed id (hopenings ▸ hid)
      once := hopenings ▸ h.once
      timely := fun id sessionId readings hopened => by
        rcases List.mem_append.mp hopened with hold | hnew
        · obtain ⟨first, hissued, hlate⟩ := h.timely id sessionId readings hold
          exact ⟨first, List.mem_append_left _ hissued, hlate⟩
        · exact (hsilent _ hnew).elim
      bounded := fun earlier id sessionId readings later hpast => by
        obtain ⟨between, -, hold⟩ | ⟨before, -, hentries⟩ := append_split hpast
        · exact h.bounded earlier id sessionId readings between hold
        · have hmem : .opened id sessionId readings ∈ entries := by
            rw [hentries]
            exact List.mem_append_right _ List.mem_cons_self
          exact (hsilent _ hmem).elim }

/-- A code is issued. -/
theorem CodesInv.issue {row : AuthCodeRow} (h : CodesInv config codes calls past)
    (hnew : codes.lookup codeId = none) (hattempts : row.attempts = 0) :
    CodesInv config (codes.insert codeId row) calls (past ++ [.issued codeId row]) := by
  have hgrow : CodesGrow codes (codes.insert codeId row) := codesGrow_insert hnew
  have hguesses : ∀ id, guesses id (past ++ [.issued codeId row]) = guesses id past := fun id => by
    simp [guesses, Entry.isGuess]
  have hopenings : openings (past ++ [.issued codeId row]) = openings past := by
    simp [openings, Entry.opening]
  exact
    { known := fun id found hfound => by
        rw [Table.lookup_insert_eq_ite] at hfound
        split at hfound
        · rename_i hsame
          cases hfound
          rw [hsame]
          exact ⟨row, List.mem_append_right _ (List.mem_singleton_self _), .refl row⟩
        · obtain ⟨first, hissued, hfollows⟩ := h.known id found hfound
          exact ⟨first, List.mem_append_left _ hissued, hfollows⟩
      counted := fun id found hfound => by
        rw [hguesses]
        rw [Table.lookup_insert_eq_ite] at hfound
        split at hfound
        · rename_i hsame
          cases hfound
          have hnone : guesses id past = 0 := by
            by_contra hsome
            have hknown := h.guessed id (Nat.pos_of_ne_zero hsome)
            rw [hsame, hnew] at hknown
            cases hknown
          rw [hnone, hattempts]
          decide
        · exact h.counted id found hfound
      guessed := fun id hguess => by
        obtain ⟨found, hfound⟩ := Option.isSome_iff_exists.mp (h.guessed id (hguesses id ▸ hguess))
        obtain ⟨next, hnext, -⟩ := hgrow id found hfound
        rw [hnext]
        rfl
      consumed := fun id hid => (h.consumed id (hopenings ▸ hid)).grow hgrow
      once := hopenings ▸ h.once
      timely := fun id sessionId readings hopened => by
        rcases List.mem_append.mp hopened with hold | hlast
        · obtain ⟨first, hissued, hlate⟩ := h.timely id sessionId readings hold
          exact ⟨first, List.mem_append_left _ hissued, hlate⟩
        · cases List.mem_singleton.mp hlast
      bounded := fun earlier id sessionId readings later hpast => by
        obtain ⟨between, -, hold⟩ | ⟨before, -, hentries⟩ := append_split hpast
        · exact h.bounded earlier id sessionId readings between hold
        · have hmem : .opened id sessionId readings ∈ [Entry.issued codeId row] := by
            rw [hentries]
            exact List.mem_append_right _ List.mem_cons_self
          cases List.mem_singleton.mp hmem
      held := h.held
      trying := fun call hcall request readings seen candidates hlock =>
        (h.trying call hcall request readings seen candidates hlock).grow hgrow
      chosen := fun call hcall request readings seen id hlocked => by
        obtain ⟨found, hfound, hopen, hnewest⟩ := h.chosen call hcall request readings seen id hlocked
        refine ⟨found, ?_, hopen, hnewest.grow hgrow⟩
        rw [Table.lookup_insert_eq_ite, if_neg]
        · exact hfound
        · intro hsame
          rw [hsame, hnew] at hfound
          cases hfound }

/-- `countAttempt` on the codes. -/
def attempted (codeId : Uuid) (id : Uuid) (row : AuthCodeRow) : AuthCodeRow :=
  if id = codeId then { row with attempts := min (row.attempts + 1) 10 } else row

theorem attempted_follows (id : Uuid) (row : AuthCodeRow) : row.Follows (attempted codeId id row) := by
  unfold attempted
  split
  · exact ⟨rfl, rfl, rfl, fun hconsumed => hconsumed⟩
  · exact .refl row

theorem attempted_openFor {email : String} {begun : Instant} (id : Uuid) (row : AuthCodeRow) :
    (attempted codeId id row).openFor email begun = row.openFor email begun := by
  unfold attempted
  split
  · rfl
  · rfl

/-- An attempt that fails, with what is said of it. -/
theorem CodesInv.attempt (h : CodesInv config codes calls past)
    (hentries : entries = [] ∨ entries = [.guessed codeId]) (hknown : (codes.lookup codeId).isSome) :
    CodesInv config (codes.rewrite (attempted codeId)) calls (past ++ entries) := by
  have hgrow : CodesGrow codes (codes.rewrite (attempted codeId)) := codesGrow_rewrite attempted_follows
  have hopenings : openings (past ++ entries) = openings past := by
    rcases hentries with rfl | rfl
    · rw [List.append_nil]
    · simp [openings, Entry.opening]
  have hnew : ∀ entry ∈ entries, entry = .guessed codeId := by
    rcases hentries with rfl | rfl
    · exact fun entry hentry => nomatch hentry
    · exact fun entry hentry => List.mem_singleton.mp hentry
  have hown : guesses codeId entries ≤ 1 := by
    rcases hentries with rfl | rfl
    · exact Nat.zero_le 1
    · exact List.countP_le_length
  have hother : ∀ id, id ≠ codeId → guesses id entries = 0 := by
    intro id hne
    apply List.countP_eq_zero.mpr
    intro entry hentry hguess
    rw [hnew entry hentry] at hguess
    exact hne (beq_iff_eq.mp hguess).symm
  exact
    { known := fun id row hrow => by
        rw [Table.lookup_rewrite, Option.map_eq_some_iff] at hrow
        obtain ⟨old, hold, rfl⟩ := hrow
        obtain ⟨first, hissued, hfollows⟩ := h.known id old hold
        exact ⟨first, List.mem_append_left _ hissued, hfollows.trans (attempted_follows id old)⟩
      counted := fun id row hrow => by
        rw [Table.lookup_rewrite, Option.map_eq_some_iff] at hrow
        obtain ⟨old, hold, rfl⟩ := hrow
        have hcounted := h.counted id old hold
        rw [guesses_append]
        unfold attempted
        by_cases hsame : id = codeId
        · rw [if_pos hsame]
          subst hsame
          dsimp only
          omega
        · rw [if_neg hsame, hother id hsame, Nat.add_zero]
          exact hcounted
      guessed := fun id hguess => by
        have hfound : (codes.lookup id).isSome := by
          by_cases hsame : id = codeId
          · rw [hsame]
            exact hknown
          · rw [guesses_append, hother id hsame, Nat.add_zero] at hguess
            exact h.guessed id hguess
        rw [Table.lookup_rewrite, Option.isSome_map]
        exact hfound
      consumed := fun id hid => (h.consumed id (hopenings ▸ hid)).grow hgrow
      once := hopenings ▸ h.once
      timely := fun id sessionId readings hopened => by
        rcases List.mem_append.mp hopened with hold | hlast
        · obtain ⟨first, hissued, hlate⟩ := h.timely id sessionId readings hold
          exact ⟨first, List.mem_append_left _ hissued, hlate⟩
        · cases hnew _ hlast
      bounded := fun earlier id sessionId readings later hpast => by
        obtain ⟨between, -, hold⟩ | ⟨before, -, hsplit⟩ := append_split hpast
        · exact h.bounded earlier id sessionId readings between hold
        · have hmem : .opened id sessionId readings ∈ entries := by
            rw [hsplit]
            exact List.mem_append_right _ List.mem_cons_self
          cases hnew _ hmem
      held := h.held
      trying := fun call hcall request readings seen candidates hlock =>
        (h.trying call hcall request readings seen candidates hlock).grow hgrow
      chosen := fun call hcall request readings seen id hlocked => by
        obtain ⟨row, hrow, hopen, hnewest⟩ := h.chosen call hcall request readings seen id hlocked
        refine ⟨attempted codeId id row, ?_, ?_, ?_⟩
        · rw [Table.lookup_rewrite, hrow]
          rfl
        · rw [attempted_openFor]
          exact hopen
        · intro other found hfound hemail hlater
          rw [(attempted_follows id row).created] at hlater
          exact hnewest.grow hgrow other found hfound hemail hlater }

/-- `consumeCode` on the codes. -/
def consumeRow (codeId : Uuid) (begun : Instant) (id : Uuid) (row : AuthCodeRow) : AuthCodeRow :=
  if id = codeId ∧ row.consumedAt = none then { row with consumedAt := some begun.toColumn } else row

theorem consumeRow_follows {begun : Instant} (id : Uuid) (row : AuthCodeRow) :
    row.Follows (consumeRow codeId begun id row) := by
  unfold consumeRow
  split
  · exact ⟨rfl, rfl, rfl, fun _ => rfl⟩
  · exact .refl row

/-- The verification that holds a code opens a session with it. -/
theorem CodesInv.opens {request : VerifyCodeRequest} {seen : Codes} {row : AuthCodeRow} {sessionId : Uuid}
    (h : CodesInv config codes (.locked request readings seen codeId :: rest) past)
    (hrow : codes.lookup codeId = some row)
    (hright : guess crypto config request.code readings.now row = .right) :
    CodesInv config (codes.rewrite (consumeRow codeId readings.begun)) rest
      (past ++ [.opened codeId sessionId readings]) := by
  have hgrow : CodesGrow codes (codes.rewrite (consumeRow codeId readings.begun)) :=
    codesGrow_rewrite consumeRow_follows
  obtain ⟨found, hfound, hopen, -⟩ := h.chosen _ List.mem_cons_self request readings seen codeId rfl
  rw [hrow] at hfound
  obtain rfl := Option.some.inj hfound
  simp only [AuthCodeRow.openFor, Bool.and_eq_true, Option.isNone_iff_eq_none, decide_eq_true_eq] at hopen
  obtain ⟨⟨-, hunconsumed⟩, hbegun⟩ := hopen
  obtain ⟨hnow, hattempts⟩ : readings.now.nanos < row.expiresAt.nanos ∧
      row.attempts < config.authCodeMaxAttempts := by
    unfold guess at hright
    split at hright
    · cases hright
    · rename_i hlate
      split at hright
      · cases hright
      · split at hright
        · cases hright
        · rename_i hexhausted
          exact ⟨Int.not_le.mp hlate, Int.not_le.mp fun hle => hexhausted (.inl hle)⟩
  have hguesses : ∀ id, guesses id (past ++ [.opened codeId sessionId readings]) = guesses id past :=
    fun id => by simp [guesses, Entry.isGuess]
  have hopenings : openings (past ++ [.opened codeId sessionId readings]) = openings past ++ [codeId] := by
    simp [openings, Entry.opening]
  have hfirst : codeId ∉ openings past := by
    intro hbefore
    obtain ⟨other, hother, hconsumed⟩ := h.consumed codeId hbefore
    rw [hrow] at hother
    rw [← Option.some.inj hother, hunconsumed] at hconsumed
    cases hconsumed
  have hheld : codeId ∉ rest.filterMap Call.holds := by
    have hnodup := h.held
    have hholds : (Call.locked request readings seen codeId).holds = some codeId := rfl
    rw [List.filterMap_cons_some hholds] at hnodup
    exact (List.nodup_cons.mp hnodup).1
  have hdropped := h.drop
  exact
    { known := fun id next hnext => by
        rw [Table.lookup_rewrite, Option.map_eq_some_iff] at hnext
        obtain ⟨old, hold, rfl⟩ := hnext
        obtain ⟨first, hissued, hfollows⟩ := h.known id old hold
        exact ⟨first, List.mem_append_left _ hissued, hfollows.trans (consumeRow_follows id old)⟩
      counted := fun id next hnext => by
        rw [Table.lookup_rewrite, Option.map_eq_some_iff] at hnext
        obtain ⟨old, hold, rfl⟩ := hnext
        rw [hguesses]
        unfold consumeRow
        split
        · exact h.counted id old hold
        · exact h.counted id old hold
      guessed := fun id hguess => by
        rw [Table.lookup_rewrite, Option.isSome_map]
        exact h.guessed id (hguesses id ▸ hguess)
      consumed := fun id hid => by
        rw [hopenings] at hid
        rcases List.mem_append.mp hid with hold | hlast
        · exact (h.consumed id hold).grow hgrow
        · rw [List.mem_singleton.mp hlast]
          refine ⟨consumeRow codeId readings.begun codeId row, ?_, ?_⟩
          · rw [Table.lookup_rewrite, hrow]
            rfl
          · unfold consumeRow
            rw [if_pos ⟨rfl, hunconsumed⟩]
            rfl
      once := by
        rw [hopenings]
        exact List.nodup_append.mpr ⟨h.once, List.nodup_singleton codeId, fun id hid other hother hsame => by
          rw [hsame, List.mem_singleton.mp hother] at hid
          exact hfirst hid⟩
      timely := fun id session taken hopened => by
        rcases List.mem_append.mp hopened with hold | hlast
        · obtain ⟨first, hissued, hlate⟩ := h.timely id session taken hold
          exact ⟨first, List.mem_append_left _ hissued, hlate⟩
        · cases List.mem_singleton.mp hlast
          obtain ⟨first, hissued, hfollows⟩ := h.known codeId row hrow
          rw [hfollows.expires] at hnow hbegun
          exact ⟨first, List.mem_append_left _ hissued, hnow, hbegun⟩
      bounded := fun earlier id session taken later hpast => by
        obtain ⟨between, -, hold⟩ | ⟨before, hearlier, hsplit⟩ := append_split hpast
        · exact h.bounded earlier id session taken between hold
        · obtain ⟨rfl, hlast⟩ := (List.append_eq_singleton_iff.mp hsplit.symm).resolve_right (by simp)
          cases (List.cons.inj hlast).1
          rw [List.append_nil] at hearlier
          rw [hearlier]
          have hcounted := h.counted codeId row hrow
          have hrange := config.attempts_range
          omega
      held := hdropped.held
      trying := fun call hcall request readings seen candidates hlock =>
        (hdropped.trying call hcall request readings seen candidates hlock).grow hgrow
      chosen := fun call hcall request taken seen id hlocked => by
        obtain ⟨other, hother, hopen, hnewest⟩ := hdropped.chosen call hcall request taken seen id hlocked
        refine ⟨other, ?_, hopen, hnewest.grow hgrow⟩
        rw [Table.lookup_rewrite, hother, Option.map_some]
        unfold consumeRow
        rw [if_neg]
        intro hsame
        apply hheld
        rw [← hsame.1]
        exact List.mem_filterMap.mpr ⟨call, hcall, by rw [hlocked]; rfl⟩ }

/-! ### Locks -/

theorem CodesInv.chooses {request : VerifyCodeRequest} {seen : Codes} {candidates : List Uuid}
    {row : AuthCodeRow}
    (h : CodesInv config codes (.lock request readings seen (codeId :: candidates) :: rest) past)
    (hrow : codes.lookup codeId = some row) (hopen : row.openFor request.email readings.begun = true)
    (hfree : codeId ∉ rest.filterMap Call.holds) :
    CodesInv config codes (.locked request readings seen codeId :: rest) past := by
  have htrying := h.trying _ List.mem_cons_self request readings seen _ rfl
  have hdropped := h.drop
  have hchosen : Chosen codes request readings.begun seen codeId := by
    refine ⟨row, hrow, hopen, ?_⟩
    intro other found hfound hemail hnewer
    obtain ⟨old, hold, -⟩ := htrying.found codeId List.mem_cons_self
    have hcreated : row.createdAt = old.createdAt := by
      obtain ⟨next, hnext, hfollows⟩ := htrying.grown codeId old hold
      rw [hrow] at hnext
      rw [Option.some.inj hnext]
      exact hfollows.created
    by_cases hother : found.openFor request.email readings.begun = true
    · left
      rcases htrying.tried other found hfound hother with hmem | hconsumed
      · rcases List.mem_cons.mp hmem with rfl | hrest
        · rw [hold] at hfound
          rw [hcreated, ← Option.some.inj hfound] at hnewer
          exact absurd hnewer (Int.lt_irrefl _)
        · have hle := (List.pairwise_cons.mp htrying.order).1 other hrest old found hold hfound
          rw [hcreated] at hnewer
          omega
      · exact hconsumed
    · simp only [AuthCodeRow.openFor, hemail, beq_self_eq_true, Bool.true_and, Bool.and_eq_true,
        Option.isNone_iff_eq_none, decide_eq_true_eq, not_and, Int.not_lt] at hother
      by_cases hconsumed : found.consumedAt = none
      · exact .inr (hother hconsumed)
      · obtain ⟨next, hnext, hfollows⟩ := htrying.grown other found hfound
        exact .inl ⟨next, hnext, hfollows.consumed (Option.isSome_iff_ne_none.mpr hconsumed)⟩
  exact
    { hdropped with
      held := by
        have hholds : (Call.locked request readings seen codeId).holds = some codeId := rfl
        rw [List.filterMap_cons_some hholds]
        exact List.nodup_cons.mpr ⟨hfree, hdropped.held⟩
      trying := fun call hcall request readings seen candidates hlock => by
        rcases List.mem_cons.mp hcall with rfl | hrest
        · cases hlock
        · exact hdropped.trying call hrest request readings seen candidates hlock
      chosen := fun call hcall request readings seen id hlocked => by
        rcases List.mem_cons.mp hcall with rfl | hrest
        · cases hlocked
          exact hchosen
        · exact hdropped.chosen call hrest request readings seen id hlocked }

/-- A code that is not open any more when its lock is free was consumed. -/
theorem CodesInv.passes {request : VerifyCodeRequest} {seen : Codes} {candidates : List Uuid}
    (h : CodesInv config codes (.lock request readings seen (codeId :: candidates) :: rest) past)
    (hclosed : ∀ row, codes.lookup codeId = some row → row.openFor request.email readings.begun = false) :
    CodesInv config codes (.lock request readings seen candidates :: rest) past := by
  have htrying := h.trying _ List.mem_cons_self request readings seen _ rfl
  have hconsumed : Consumed codes codeId := by
    obtain ⟨old, hold, hopen⟩ := htrying.found codeId List.mem_cons_self
    obtain ⟨row, hrow, hfollows⟩ := htrying.grown codeId old hold
    have hshut := hclosed row hrow
    refine ⟨row, hrow, ?_⟩
    simp only [AuthCodeRow.openFor, hfollows.email, hfollows.expires] at hshut hopen
    rcases hmoment : row.consumedAt with _ | moment
    · rw [hmoment] at hshut
      simp only [Bool.and_eq_true, decide_eq_true_eq] at hopen
      simp [hopen.1.1, hopen.2] at hshut
    · rfl
  apply h.drop.push rfl
  intro _ _ _ _ hsame
  cases hsame
  exact
    { grown := htrying.grown
      found := fun id hid => htrying.found id (List.mem_cons_of_mem _ hid)
      order := (List.pairwise_cons.mp htrying.order).2
      tried := fun id row hrow hopen => by
        rcases htrying.tried id row hrow hopen with hmem | hdone
        · rcases List.mem_cons.mp hmem with rfl | hrest
          · exact .inr hconsumed
          · exact .inl hrest
        · exact .inr hdone }

/-! ### Steps -/

theorem calls_perm {index : Nat} (hcall : world.calls[index]? = some call) :
    world.calls.Perm (call :: world.calls.eraseIdx index) := by
  obtain ⟨hindex, rfl⟩ := List.getElem?_eq_some_iff.mp hcall
  exact (List.getElem_cons_eraseIdx_perm hindex).symm

theorem goesOn_perm {index : Nat} (other : Call) (hcall : world.calls[index]? = some call) :
    (other :: world.calls.eraseIdx index).Perm (world.goesOn index other).calls := by
  obtain ⟨hindex, -⟩ := List.getElem?_eq_some_iff.mp hcall
  have hset : index < (world.calls.set index other).length := by
    rw [List.length_set]
    exact hindex
  have hperm := List.getElem_cons_eraseIdx_perm hset
  rwa [List.getElem_set_self, List.eraseIdx_set_eq] at hperm

/-- The verification that holds a code has its answer. -/
theorem CodesInv.verifies {request : VerifyCodeRequest} {seen : Codes}
    (h : CodesInv config db.authCodes (.locked request readings seen codeId :: rest) past) :
    CodesInv config
      (match db.authCodes.lookup codeId with
        | none => db
        | some row => (verifyCode crypto config request readings codeId row fresh db).2).authCodes rest
      (past ++ entriesOf crypto config fresh db (.locked request readings seen codeId)) := by
  obtain ⟨row, hrow, -⟩ := h.chosen _ List.mem_cons_self request readings seen codeId rfl
  have hknown : (db.authCodes.lookup codeId).isSome := by
    rw [hrow]
    rfl
  simp only [entriesOf, hrow]
  unfold verifyCode
  rcases hguess : guess crypto config request.code readings.now row with _ | _ | _ | _
  · rw [if_neg (by simp)]
    apply h.drop.tells
    intro entry hentry
    rw [List.mem_singleton.mp hentry]
    trivial
  · rw [if_pos rfl, ← List.append_assoc]
    apply (h.drop.attempt (.inr rfl) hknown).tells
    intro entry hentry
    rw [List.mem_singleton.mp hentry]
    trivial
  · rw [if_neg (by simp)]
    have hattempt := h.drop.attempt (.inl rfl) hknown
    rw [List.append_nil] at hattempt
    apply hattempt.tells
    intro entry hentry
    rw [List.mem_singleton.mp hentry]
    trivial
  · rw [if_neg (by simp)]
    rcases hsigned : signIn crypto config request readings fresh db with error | ⟨sessionId, signedIn⟩
    · apply h.drop.tells
      intro entry hentry
      rw [List.mem_singleton.mp hentry]
      trivial
    · have hcodes := signIn_codes hsigned
      dsimp only [AuthDb.consumeCode]
      rw [hcodes]
      exact h.opens hrow hguess

theorem CodesInv.requests {email : String}
    (h : CodesInv config db.authCodes (.requestCode email readings :: rest) past) :
    CodesInv config (requestCode crypto config email readings fresh db).2.authCodes rest
      (past ++ entriesOf crypto config fresh db (.requestCode email readings)) := by
  obtain ⟨hrefused, hcodes⟩ | ⟨row, haccepted, hnew, hcodes, hattempts, -⟩ :=
    @requestCode_codes crypto config readings fresh db email
  · rw [hcodes]
    have hsilent : entriesOf crypto config fresh db (.requestCode email readings) = [] := by
      simp only [entriesOf]
      split
      · rename_i heq
        rw [heq] at hrefused
        exact (hrefused rfl).elim
      · rfl
    rw [hsilent, List.append_nil]
    exact h.drop
  · have hissued : entriesOf crypto config fresh db (.requestCode email readings) =
        [.issued fresh.id row] := by
      simp only [entriesOf]
      split
      · rename_i heq
        rw [heq] at hcodes
        dsimp only at hcodes
        rw [hcodes, Table.lookup_insert_eq_ite, if_pos rfl]
        rfl
      · rename_i hother
        exact (hother _ (Prod.ext haccepted rfl)).elim
    rw [hcodes, hissued]
    exact h.drop.issue hnew hattempts

theorem begin_free {event : Event} (h : begin crypto config db event = .ok call) :
    call.holds = none ∧ ∀ request readings seen candidates, call ≠ .lock request readings seen candidates := by
  cases event with
  | requestCode email taken =>
      simp only [begin] at h
      split at h
      · cases h
      · cases h
        exact ⟨rfl, nofun⟩
  | verifyCode request taken =>
      obtain ⟨checked, -, hcall⟩ := bind_eq_ok_iff.mp h
      cases hcall
      exact ⟨rfl, nofun⟩
  | refresh request taken =>
      obtain ⟨token, -, hcall⟩ := bind_eq_ok_iff.mp h
      cases hcall
      exact ⟨rfl, nofun⟩
  | act claims action taken =>
      obtain ⟨auth, -, hrest⟩ := bind_eq_ok_iff.mp h
      obtain ⟨_, -, hcall⟩ := bind_eq_ok_iff.mp hrest
      cases hcall
      exact ⟨rfl, nofun⟩
  | advance index fresh => cases h

theorem CodesInv.begins {event : Event} (h : CodesInv config world.db.authCodes world.calls past) :
    CodesInv config (world.begins (begin crypto config world.db event)).db.authCodes
      (world.begins (begin crypto config world.db event)).calls
      (past ++ refusals (begin crypto config world.db event)) := by
  rcases hbegun : begin crypto config world.db event with error | call
  · apply h.tells
    intro entry hentry
    rw [List.mem_singleton.mp hentry]
    trivial
  · obtain ⟨hfree, hlock⟩ := begin_free hbegun
    rw [refusals, List.append_nil]
    have hpushed : CodesInv config world.db.authCodes (call :: world.calls) past :=
      h.push hfree fun request readings seen candidates hsame =>
        (hlock request readings seen candidates hsame).elim
    exact hpushed.perm (List.perm_append_singleton call world.calls).symm

theorem CodesInv.advances {index : Nat} (h : CodesInv config world.db.authCodes world.calls past)
    (hcall : world.calls[index]? = some call) :
    CodesInv config (advance crypto config index fresh world call).db.authCodes
      (advance crypto config index fresh world call).calls
      (past ++ entriesOf crypto config fresh world.db call) := by
  have hfront : CodesInv config world.db.authCodes (call :: world.calls.eraseIdx index) past :=
    h.perm (calls_perm hcall)
  cases call with
  | requestCode email readings => exact hfront.requests
  | select request readings =>
      have hpushed : CodesInv config world.db.authCodes (.lock request readings world.db.authCodes
          (openCodes request.email readings.begun world.db.authCodes) :: world.calls.eraseIdx index) past := by
        apply hfront.drop.push rfl
        intro _ _ _ _ hsame
        cases hsame
        exact trying_begins _ _ _
      rw [entriesOf, List.append_nil]
      exact hpushed.perm (goesOn_perm _ hcall)
  | lock request readings seen candidates =>
      cases candidates with
      | nil =>
          apply hfront.drop.tells
          intro entry hentry
          rw [List.mem_singleton.mp hentry]
          trivial
      | cons codeId rest =>
          rw [entriesOf, List.append_nil]
          simp only [advance]
          split
          · exact h
          · rename_i hunlocked
            have hfree : codeId ∉ (world.calls.eraseIdx index).filterMap Call.holds := by
              intro hheld
              obtain ⟨other, hother, hholds⟩ := List.mem_filterMap.mp hheld
              apply hunlocked
              apply List.any_eq_true.mpr
              exact ⟨other, List.mem_of_mem_eraseIdx hother, by rw [hholds]; exact beq_self_eq_true _⟩
            split
            · rename_i hnone
              have hclosed : ∀ row, world.db.authCodes.lookup codeId = some row →
                  row.openFor request.email readings.begun = false := by
                intro row hrow
                rw [hrow, Option.filter_some] at hnone
                by_contra hopen
                rw [Bool.not_eq_false] at hopen
                rw [if_pos hopen] at hnone
                cases hnone
              exact (hfront.passes hclosed).perm (goesOn_perm _ hcall)
            · rename_i row hsome
              obtain ⟨hrow, hopen⟩ := Option.filter_eq_some_iff.mp hsome
              exact (hfront.chooses hrow hopen hfree).perm (goesOn_perm _ hcall)
  | locked request readings seen codeId =>
      simp only [advance]
      have hverified : CodesInv config _ _
          (past ++ entriesOf crypto config fresh world.db (.locked request readings seen codeId)) :=
        hfront.verifies
      split
      · rename_i hnone
        rw [hnone] at hverified
        exact hverified
      · rename_i row hrow
        rw [hrow] at hverified
        exact hverified
  | refresh tokenHash locator readings =>
      have hsilent : ∀ entry ∈ entriesOf crypto config fresh world.db (.refresh tokenHash locator readings),
          entry.Silent := by
        intro entry hentry
        simp only [entriesOf] at hentry
        split at hentry
        · rw [List.mem_singleton.mp hentry]
          trivial
        · rw [List.mem_singleton.mp hentry]
          trivial
      have hsaid := hfront.drop.tells hsilent
      rw [← refresh_codes] at hsaid
      exact hsaid
  | act auth action begun =>
      have hsilent : ∀ entry ∈ entriesOf crypto config fresh world.db (.act auth action begun),
          entry.Silent := by
        intro entry hentry
        simp only [entriesOf] at hentry
        split at hentry
        · rw [List.mem_singleton.mp hentry]
          trivial
        · rw [List.mem_singleton.mp hentry]
          trivial
      have hsaid := hfront.drop.tells hsilent
      rw [← act_codes] at hsaid
      exact hsaid

theorem codesInv_step (world : World) (past : List Entry) (event : Event)
    (h : CodesInv config world.db.authCodes world.calls past) :
    CodesInv config ((authRuns crypto config).step world event).db.authCodes
      ((authRuns crypto config).step world event).calls
      (past ++ (authRuns crypto config).emit world event) := by
  cases event with
  | requestCode email readings => exact h.begins
  | verifyCode request readings => exact h.begins
  | refresh request readings => exact h.begins
  | act claims action readings => exact h.begins
  | advance index fresh =>
      simp only [authRuns]
      rcases hcall : world.calls[index]? with _ | call
      · rw [List.append_nil]
        exact h
      · exact h.advances hcall

theorem codesInv_initial : CodesInv config World.initial.db.authCodes World.initial.calls [] where
  known := nofun
  counted := nofun
  guessed := nofun
  consumed := nofun
  once := List.nodup_nil
  timely := nofun
  bounded := by
    intro earlier id sessionId readings later hpast
    cases earlier with
    | nil => cases hpast
    | cons first rest => cases hpast
  held := List.nodup_nil
  trying := nofun
  chosen := nofun

/-! ### What a verification saw -/

def Call.seen : Call → Option Codes
  | .lock _ _ seen _ => some seen
  | .locked _ _ seen _ => some seen
  | _ => none

theorem advance_seen {index : Nat} {other : Call} {seen : Codes} (hcall : world.calls[index]? = some call)
    (hother : other ∈ (advance crypto config index fresh world call).calls) (hseen : other.seen = some seen) :
    seen = world.db.authCodes ∨ ∃ old ∈ world.calls, old.seen = some seen := by
  have hmem := List.mem_of_getElem? hcall
  have hends : ∀ next, other ∈ (world.ends index next).calls → ∃ old ∈ world.calls, old.seen = some seen :=
    fun _ hleft => ⟨other, List.mem_of_mem_eraseIdx hleft, hseen⟩
  have hgoes : ∀ next : Call, next.seen = call.seen → other ∈ (world.goesOn index next).calls →
      ∃ old ∈ world.calls, old.seen = some seen := by
    intro next hsame hleft
    rcases List.mem_or_eq_of_mem_set hleft with hold | rfl
    · exact ⟨other, hold, hseen⟩
    · exact ⟨call, hmem, hsame ▸ hseen⟩
  cases call with
  | requestCode email readings => exact .inr (hends _ hother)
  | select request readings =>
      rcases List.mem_or_eq_of_mem_set hother with hold | rfl
      · exact .inr ⟨other, hold, hseen⟩
      · exact .inl (Option.some.inj hseen).symm
  | lock request readings saw candidates =>
      right
      cases candidates with
      | nil => exact hends _ hother
      | cons codeId rest =>
          simp only [advance] at hother
          split at hother
          · exact ⟨other, hother, hseen⟩
          · split at hother
            · exact hgoes (.lock request readings saw rest) rfl hother
            · exact hgoes (.locked request readings saw codeId) rfl hother
  | locked request readings saw codeId =>
      right
      simp only [advance] at hother
      split at hother
      · exact hends _ hother
      · exact hends _ hother
  | refresh tokenHash locator readings => exact .inr (hends _ hother)
  | act auth action begun => exact .inr (hends _ hother)

theorem step_seen {event : Event} {seen : Codes} (hcall : call ∈ ((authRuns crypto config).step world event).calls)
    (hseen : call.seen = some seen) :
    seen = world.db.authCodes ∨ ∃ old ∈ world.calls, old.seen = some seen := by
  have hbegins : call ∈ (world.begins (begin crypto config world.db event)).calls →
      ∃ old ∈ world.calls, old.seen = some seen := by
    intro hmem
    rcases hbegun : begin crypto config world.db event with error | new
    · rw [hbegun] at hmem
      exact ⟨call, hmem, hseen⟩
    · rw [hbegun] at hmem
      rcases List.mem_append.mp hmem with hold | hnew
      · exact ⟨call, hold, hseen⟩
      · obtain ⟨hfree, hlock⟩ := begin_free hbegun
        rw [List.mem_singleton.mp hnew] at hseen
        cases new with
        | lock request readings saw candidates => exact (hlock _ _ _ _ rfl).elim
        | locked request readings saw codeId => cases hfree
        | requestCode email readings => cases hseen
        | select request readings => cases hseen
        | refresh tokenHash locator readings => cases hseen
        | act auth action begun => cases hseen
  cases event with
  | requestCode email readings => exact .inr (hbegins hcall)
  | verifyCode request readings => exact .inr (hbegins hcall)
  | refresh request readings => exact .inr (hbegins hcall)
  | act claims action readings => exact .inr (hbegins hcall)
  | advance index fresh =>
      simp only [authRuns] at hcall
      split at hcall
      · exact .inr ⟨call, hcall, hseen⟩
      · rename_i old hold
        exact advance_seen hold hcall hseen

/-- What a verification saw was there once. -/
theorem run_seen (events : List Event) {seen : Codes}
    (hcall : call ∈ ((authRuns crypto config).run .initial events).calls) (hseen : call.seen = some seen) :
    ∃ earlier later, events = earlier ++ later ∧
      seen = ((authRuns crypto config).run .initial earlier).db.authCodes := by
  induction events using List.reverseRecOn generalizing call with
  | nil => cases hcall
  | append_singleton events event ih =>
      rw [Machine.run_append] at hcall
      obtain hnow | ⟨old, hold, hbefore⟩ := step_seen hcall hseen
      · exact ⟨events, [event], rfl, hnow⟩
      · obtain ⟨earlier, later, hsplit, hthen⟩ := ih hold hbefore
        exact ⟨earlier, later ++ [event], by rw [hsplit, List.append_assoc], hthen⟩

/-! ### Every run -/

/-- What a run tells of the codes it issued. -/
structure OpensSafely (crypto : Crypto) (config : AuthConfig) (events : List Event) : Prop where
  /-- No code opens two sessions. -/
  once : (openings ((authRuns crypto config).trace .initial events)).Nodup
  /-- It was issued, and both clocks of the verification stood before its expiry. -/
  timely : ∀ codeId sessionId readings,
    .opened codeId sessionId readings ∈ (authRuns crypto config).trace .initial events → ∃ row,
      .issued codeId row ∈ (authRuns crypto config).trace .initial events ∧
        readings.now.nanos < row.expiresAt.nanos ∧ readings.begun.nanos < row.expiresAt.nanos
  /-- There were fewer wrong guesses against it than the limit. -/
  bounded : ∀ earlier codeId sessionId readings later,
    (authRuns crypto config).trace .initial events = earlier ++ .opened codeId sessionId readings :: later →
    (guesses codeId earlier : Int) < config.authCodeMaxAttempts
  /-- Every newer code for its address that stood when the verification looked for one is consumed, or had expired. -/
  newest : ∀ index fresh request readings seen codeId sessionId,
    ((authRuns crypto config).run .initial events).calls[index]? =
      some (.locked request readings seen codeId) →
    .opened codeId sessionId readings ∈
      (authRuns crypto config).emit ((authRuns crypto config).run .initial events) (.advance index fresh) →
    (∃ earlier later, events = earlier ++ later ∧
      seen = ((authRuns crypto config).run .initial earlier).db.authCodes) ∧
    ∃ row, ((authRuns crypto config).run .initial events).db.authCodes.lookup codeId = some row ∧
      row.emailNormalized = request.email ∧
      NewestOf ((authRuns crypto config).run .initial events).db.authCodes request readings.begun seen row

theorem codes_open_safely (crypto : Crypto) (config : AuthConfig) (events : List Event) :
    OpensSafely crypto config events := by
  have hinv := (authRuns crypto config).invariant
    (fun world past => CodesInv config world.db.authCodes world.calls past) codesInv_step
    codesInv_initial events
  refine ⟨hinv.once, hinv.timely, hinv.bounded, ?_⟩
  intro index fresh request readings seen codeId sessionId hcall _
  have hmem := List.mem_of_getElem? hcall
  obtain ⟨row, hrow, hopen, hnewest⟩ := hinv.chosen _ hmem request readings seen codeId rfl
  refine ⟨run_seen events hmem rfl, row, hrow, ?_, hnewest⟩
  simp only [AuthCodeRow.openFor, Bool.and_eq_true, beq_iff_eq] at hopen
  exact hopen.1.1

def plainCrypto : Crypto where
  authCode text := text.toList.map fun c => c.toNat.toUInt8
  refreshToken text := text.toList.map fun c => c.toNat.toUInt8
  fingerprint text := text.toList.map fun c => c.toNat.toUInt8

def usualConfig : AuthConfig where
  authDevCode := none
  development := false
  authCodeTtlSeconds := 600
  authCodeResendSeconds := 60
  authCodeMaxAttempts := 5
  refreshTokenTtlSeconds := 86400
  authCodeRequestsPerWindow := 5
  authCodeGlobalRequestsPerWindow := 100
  authCodeWindowSeconds := 900
  corsOrigins := []
  ttl_range := by decide
  resend_range := by decide
  attempts_range := by decide
  refresh_range := by decide
  window_range := by decide

def readAt (seconds : Int) : Readings := ⟨⟨seconds * 1000000000⟩, ⟨seconds * 1000000000⟩⟩

def drawnAt (seconds : Int) (id : Nat) (random : UInt32) : Fresh :=
  ⟨⟨id⟩, ⟨id + 1⟩, ⟨id + 2⟩, random, toString id, ⟨seconds * 1000000000⟩⟩

/-- A code is asked for and sent. -/
def asked (seconds : Int) (id : Nat) (random : UInt32) : List Event :=
  [.requestCode "anna@example.org" (readAt seconds), .advance 0 (drawnAt seconds id random)]

/-- A verification begins, and goes on three times: it looks, locks and answers. -/
def entered (seconds : Int) (id : Nat) (code : String) : List Event :=
  [.verifyCode ⟨"anna@example.org", code, ⟨1⟩, .ios, "Phone", none⟩ (readAt seconds),
    .advance 0 (drawnAt seconds id 0), .advance 0 (drawnAt seconds id 0), .advance 0 (drawnAt seconds id 0)]

/-- The second code opens a session, and then the first opens one too. -/
theorem older_code_opens :
    (authRuns plainCrypto usualConfig).trace .initial
        (asked 1000 10 111111 ++ asked 1100 20 222222 ++ entered 1200 30 "222222" ++
          entered 1300 40 "111111") =
      [.issued ⟨10⟩ (newCode plainCrypto usualConfig "anna@example.org" "111111" (readAt 1000)),
        .issued ⟨20⟩ (newCode plainCrypto usualConfig "anna@example.org" "222222" (readAt 1100)),
        .opened ⟨20⟩ ⟨31⟩ (readAt 1200), .opened ⟨10⟩ ⟨41⟩ (readAt 1300)] := by
  decide +kernel

end Auth

end ShishiTodo
