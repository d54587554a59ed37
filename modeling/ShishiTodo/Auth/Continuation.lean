import ShishiTodo.Codecs
import ShishiTodo.Lib.Base64
import ShishiTodo.Lib.Delimited
import ShishiTodo.Lib.Except

/-!
# Continuation tokens

A token is the payload of a page, in base64, and its signature. The payload is read as `serde` reads a struct: the fields in any order, each at most once, or all of them as a list. A token is accepted by the codec that signed it, for the user that it names, until it expires.
-/

namespace ShishiTodo.Continuation

open Lib

def tokenVersion : UInt8 := 1

def maxTokenLen : Nat := 16 * 1024

/-- The default `ttl`, in seconds. -/
def defaultTtl : Int := 15 * 60

structure BootstrapContinuation where
  userId : Uuid
  snapshotCursor : Int64
  snapshotAt : Instant
  lastEntity : Option EntityType
  lastId : Option Uuid
  expiresAt : Int64
  deriving DecidableEq

structure WirePayload where
  v : UInt8
  uid : Uuid
  snapshotCursor : Int64
  snapshotAt : Instant
  lastEntity : Option EntityType
  lastId : Option Uuid
  exp : Int64
  deriving DecidableEq

inductive ContinuationError where
  | invalid
  | expired
  deriving DecidableEq, Repr

/-- `timestamp`: whole seconds, of an instant that `chrono` can hold. -/
def timestamp (instant : Instant) : Int64 := .ofInt (instant.nanos.fdiv 1000000000)

/-! ### The payload as JSON -/

/-- A literal of digits alone. -/
def natural (chars : List Char) : Option Nat :=
  if chars.isEmpty || !chars.all Char.isDigit then none else some (Nat.ofDigitChars 10 chars 0)

/-- A literal that `serde_json` takes for an integer; it takes `-0` for a fraction. -/
def integer (literal : String) : Option Int :=
  match literal.toList with
  | '-' :: digits => (natural digits).bind fun n => if n = 0 then none else some (-(n : Int))
  | digits => (natural digits).map Int.ofNat

def readU8 : Json → Option UInt8
  | .num literal => (integer literal).bind fun n =>
      if 0 ≤ n ∧ n < 256 then some (.ofNat n.toNat) else none
  | _ => none

def readI64 : Json → Option Int64
  | .num literal => (integer literal).bind fun n =>
      if -9223372036854775808 ≤ n ∧ n < 9223372036854775808 then some (.ofInt n) else none
  | _ => none

def readText {α : Type} (codec : Codec α) : Json → Option α
  | .str text => codec.parse text
  | _ => none

/-- The name of a variant, or a member of that name without a value. -/
def readEntity : Json → Option EntityType
  | .str name => EntityType.parse name
  | .obj [(name, .null)] => EntityType.parse name
  | _ => none

def readOption {α : Type} (reader : Json → Option α) : Json → Option (Option α)
  | .null => some none
  | value => (reader value).map some

/-- The member of a name; two of them are refused. -/
def once (name : String) (members : List (String × Json)) : Option (Option Json) :=
  match members.filter (·.1 = name) with
  | [] => some none
  | [(_, value)] => some (some value)
  | _ => none

def required {α : Type} (reader : Json → Option α) (name : String) (members : List (String × Json)) : Option α :=
  ((once name members).bind id).bind reader

def optional {α : Type} (reader : Json → Option α) (name : String) (members : List (String × Json)) :
    Option (Option α) :=
  (once name members).bind fun
    | none => some none
    | some value => readOption reader value

namespace WirePayload

variable (env : Env)

def toJson (payload : WirePayload) : Json :=
  .obj [("v", .num (toString payload.v.toNat)),
    ("uid", .str (env.uuid.render payload.uid)),
    ("snapshot_cursor", .num (toString payload.snapshotCursor.toInt)),
    ("snapshot_at", .str (env.instant.render payload.snapshotAt)),
    ("last_entity", Json.ofOption (fun entity => .str entity.asStr) payload.lastEntity),
    ("last_id", Json.ofOption (fun id => .str (env.uuid.render id)) payload.lastId),
    ("exp", .num (toString payload.exp.toInt))]

def ofJson : Json → Option WirePayload
  | .obj members => do
      return {
        v := ← required readU8 "v" members
        uid := ← required (readText env.uuid) "uid" members
        snapshotCursor := ← required readI64 "snapshot_cursor" members
        snapshotAt := ← required (readText env.instant) "snapshot_at" members
        lastEntity := ← optional readEntity "last_entity" members
        lastId := ← optional (readText env.uuid) "last_id" members
        exp := ← required readI64 "exp" members }
  | .arr [v, uid, snapshotCursor, snapshotAt, lastEntity, lastId, exp] => do
      return {
        v := ← readU8 v
        uid := ← readText env.uuid uid
        snapshotCursor := ← readI64 snapshotCursor
        snapshotAt := ← readText env.instant snapshotAt
        lastEntity := ← readOption readEntity lastEntity
        lastId := ← readOption (readText env.uuid) lastId
        exp := ← readI64 exp }
  | _ => none

end WirePayload

theorem natural_toDigits (n : Nat) : natural (Nat.toDigits 10 n) = some n := by
  have hdigits : (Nat.toDigits 10 n).all Char.isDigit = true :=
    List.all_eq_true.mpr fun c hc => Nat.isDigit_of_mem_toDigits (by decide) (by decide) hc
  have hsome : (Nat.toDigits 10 n).isEmpty = false := by
    rw [← Bool.not_eq_true, List.isEmpty_iff]
    exact Nat.toDigits_ne_nil
  rw [natural, hdigits, hsome, if_neg (by decide), Nat.ofDigitChars_ten_toDigits]

theorem integer_toString (n : Int) : integer (toString n) = some n := by
  rcases n with value | value
  · have htext : (toString (Int.ofNat value)).toList = Nat.toDigits 10 value := String.toList_ofList
    rw [integer, htext]
    split
    · rename_i digits heq
      have hminus : '-' ∈ Nat.toDigits 10 value := heq ▸ List.mem_cons_self
      exact absurd (Nat.isDigit_of_mem_toDigits (by decide) (by decide) hminus) (by decide)
    · rw [natural_toDigits]
      rfl
  · have htext : (toString (Int.negSucc value)).toList = '-' :: Nat.toDigits 10 (value + 1) := by
      simp [toString, Int.repr]
    rw [integer, htext]
    change (natural (Nat.toDigits 10 (value + 1))).bind _ = _
    rw [natural_toDigits]
    rfl

theorem readI64_print (value : Int64) : readI64 (.num (toString value.toInt)) = some value := by
  have hlow := value.le_toInt
  have hhigh := value.toInt_lt
  rw [readI64, integer_toString, Option.bind_some, if_pos ⟨hlow, hhigh⟩, Int64.ofInt_toInt]

theorem readU8_print (value : UInt8) : readU8 (.num (toString value.toNat)) = some value := by
  have hhigh := value.toNat_lt
  have htext : toString value.toNat = toString (value.toNat : Int) := rfl
  rw [readU8, htext, integer_toString, Option.bind_some, if_pos (by omega), Int.toNat_natCast, UInt8.ofNat_toNat]

theorem readOption_ofOption {α : Type} {reader : Json → Option α} {render : α → Json}
    (hnull : ∀ value, render value ≠ .null) (hread : ∀ value, reader (render value) = some value)
    (value : Option α) : readOption reader (Json.ofOption render value) = some value := by
  cases value with
  | none => rfl
  | some value =>
      change readOption reader (render value) = _
      rw [readOption, hread]
      · rfl
      · exact hnull value

/-- A payload that was written is read back. -/
theorem WirePayload.ofJson_toJson {env : Env} (huuid : env.uuid.RoundTrips) {payload : WirePayload}
    (hinstant : env.instant.parse (env.instant.render payload.snapshotAt) = some payload.snapshotAt) :
    ofJson env (payload.toJson env) = some payload := by
  have hentity : readOption readEntity (Json.ofOption (fun entity => .str (EntityType.asStr entity))
      payload.lastEntity) = some payload.lastEntity :=
    readOption_ofOption (fun _ h => Json.noConfusion h) EntityType.parse_asStr _
  have hread (id : Uuid) : readText env.uuid (.str (env.uuid.render id)) = some id := huuid id
  have hid : readOption (readText env.uuid) (Json.ofOption (fun id => .str (env.uuid.render id))
      payload.lastId) = some payload.lastId :=
    readOption_ofOption (fun _ h => Json.noConfusion h) hread _
  have hat : readText env.instant (.str (env.instant.render payload.snapshotAt)) = some payload.snapshotAt :=
    hinstant
  have hv : readU8 (.num payload.v.toNat.repr) = some payload.v := readU8_print _
  have hcursor : readI64 (.num payload.snapshotCursor.toInt.repr) = some payload.snapshotCursor :=
    readI64_print _
  have hexp : readI64 (.num payload.exp.toInt.repr) = some payload.exp := readI64_print _
  simp [toJson, ofJson, required, optional, once, hv, hcursor, hexp, hentity, hid, hread, hat]

/-! ### The codec -/

/-- What the codec takes from crates. -/
structure Crates where
  /-- HMAC-SHA-256 of the bytes of a text, under the key of the codec. -/
  sign : List Char → List UInt8
  /-- `serde_json::to_vec` -/
  print : Json → List UInt8
  /-- `serde_json::from_slice`; members of one name stay. -/
  parse : List UInt8 → Option Json

section

variable (env : Env) (crates : Crates)

/-- The part of a token that is signed. -/
def encoded (payload : WirePayload) : List Char := Base64.encode (crates.print (payload.toJson env))

def tokenOf (payload : WirePayload) : String :=
  .ofList (encoded env crates payload ++ '.' :: Base64.encode (crates.sign (encoded env crates payload)))

/-- The payload of a token that is issued to expire at an instant. -/
def payloadOf (userId : Uuid) (snapshotCursor : Int64) (snapshotAt : Instant) (lastEntity : Option EntityType)
    (lastId : Option Uuid) (expiresAt : Instant) : WirePayload where
  v := tokenVersion
  uid := userId
  snapshotCursor := snapshotCursor
  snapshotAt := snapshotAt
  lastEntity := lastEntity
  lastId := lastId
  exp := timestamp expiresAt

def issueWithExpiry (userId : Uuid) (snapshotCursor : Int64) (snapshotAt : Instant)
    (lastEntity : Option EntityType) (lastId : Option Uuid) (expiresAt : Instant) : String :=
  tokenOf env crates (payloadOf userId snapshotCursor snapshotAt lastEntity lastId expiresAt)

def expiryFrom (now : Instant) : Instant := ⟨now.nanos + defaultTtl * 1000000000⟩

def issue (now : Instant) (userId : Uuid) (snapshotCursor : Int64) (snapshotAt : Instant)
    (lastEntity : Option EntityType) (lastId : Option Uuid) : String :=
  issueWithExpiry env crates userId snapshotCursor snapshotAt lastEntity lastId (expiryFrom now)

/-- `ok_or` and `map_err`: nothing is the error. -/
def orInvalid {α : Type} : Option α → Except ContinuationError α
  | some value => .ok value
  | none => .error .invalid

/-- The payload of a token that the codec signed. -/
def opened (token : String) : Except ContinuationError WirePayload := do
  refuseIf (token.utf8ByteSize > maxTokenLen) .invalid
  let (encoded, signature) ← orInvalid (splitOnce '.' token.toList)
  refuseIf (encoded = [] ∨ signature = [] ∨ '.' ∈ signature) .invalid
  let signature ← orInvalid (Base64.decode signature)
  refuseIf (signature ≠ crates.sign encoded) .invalid
  let bytes ← orInvalid (Base64.decode encoded)
  orInvalid ((crates.parse bytes).bind (WirePayload.ofJson env))

def verify (now : Instant) (token : String) (expectedUser : Uuid) :
    Except ContinuationError BootstrapContinuation := do
  let payload ← opened env crates token
  refuseIf (payload.v ≠ tokenVersion ∨ payload.uid ≠ expectedUser ∨ payload.snapshotCursor < 0 ∨
    payload.lastEntity.isSome ≠ payload.lastId.isSome) .invalid
  refuseIf (payload.exp ≤ timestamp now) .expired
  return {
    userId := payload.uid
    snapshotCursor := payload.snapshotCursor
    snapshotAt := payload.snapshotAt
    lastEntity := payload.lastEntity
    lastId := payload.lastId
    expiresAt := payload.exp }

end

/-! ### What is issued -/

/-- A call of `issue`, and when it is made. -/
structure IssueCall where
  now : Instant
  userId : Uuid
  snapshotCursor : Int64
  snapshotAt : Instant
  lastEntity : Option EntityType
  lastId : Option Uuid

namespace IssueCall

def payload (call : IssueCall) : WirePayload :=
  payloadOf call.userId call.snapshotCursor call.snapshotAt call.lastEntity call.lastId (expiryFrom call.now)

def token (env : Env) (crates : Crates) (call : IssueCall) : String :=
  issue env crates call.now call.userId call.snapshotCursor call.snapshotAt call.lastEntity call.lastId

/-- The values of the call, as a verification returns them. -/
def values (call : IssueCall) : BootstrapContinuation where
  userId := call.userId
  snapshotCursor := call.snapshotCursor
  snapshotAt := call.snapshotAt
  lastEntity := call.lastEntity
  lastId := call.lastId
  expiresAt := timestamp (expiryFrom call.now)

/-- What the crates do with the values of the call: `chrono` reads its instant back, and `serde_json` the few lines that it prints. -/
structure ReadsBack (env : Env) (crates : Crates) (call : IssueCall) : Prop where
  instant : env.instant.parse (env.instant.render call.snapshotAt) = some call.snapshotAt
  json : crates.parse (crates.print (call.payload.toJson env)) = some (call.payload.toJson env)
  some_bytes : crates.print (call.payload.toJson env) ≠ []
  short : (crates.print (call.payload.toJson env)).length ≤ 8192

end IssueCall

variable {env : Env} {crates : Crates} {call : IssueCall} {issued : List IssueCall} {token : String}

theorem dot_not_mem_encode (bytes : List UInt8) : '.' ∉ Base64.encode bytes :=
  Base64.not_mem_encode (by decide) bytes

theorem toList_tokenOf (payload : WirePayload) : (tokenOf env crates payload).toList =
    encoded env crates payload ++ '.' :: Base64.encode (crates.sign (encoded env crates payload)) :=
  String.toList_ofList

theorem splitOnce_tokenOf (env : Env) (crates : Crates) (payload : WirePayload) :
    splitOnce '.' (tokenOf env crates payload).toList =
      some (encoded env crates payload, Base64.encode (crates.sign (encoded env crates payload))) := by
  rw [toList_tokenOf]
  exact splitOnce_append (dot_not_mem_encode _) _

theorem utf8ByteSize_ofList {chars : List Char} (h : ∀ c ∈ chars, c.utf8Size = 1) :
    (String.ofList chars).utf8ByteSize = chars.length := by
  induction chars with
  | nil => rfl
  | cons c rest ih =>
      have hsplit : String.ofList (c :: rest) = String.singleton c ++ String.ofList rest :=
        String.toList_inj.mp (by simp)
      rw [hsplit, String.utf8ByteSize_append, String.utf8ByteSize_singleton, h c List.mem_cons_self,
        ih fun other hother => h other (List.mem_cons_of_mem c hother), List.length_cons, Nat.add_comm]

/-- A token has one byte for each letter. -/
theorem utf8ByteSize_tokenOf (payload : WirePayload) : (tokenOf env crates payload).utf8ByteSize =
    (encoded env crates payload).length + (Base64.encode (crates.sign (encoded env crates payload))).length + 1 := by
  rw [tokenOf, utf8ByteSize_ofList, List.length_append, List.length_cons]
  · omega
  · intro c hc
    rw [List.mem_append, List.mem_cons] at hc
    rcases hc with hc | rfl | hc
    · exact Base64.utf8Size_of_mem_encode hc
    · rfl
    · exact Base64.utf8Size_of_mem_encode hc

/-- What the codec issued it opens again. -/
theorem opened_token (huuid : env.uuid.RoundTrips) (hsign : ∀ text, (crates.sign text).length = 32)
    (hreads : call.ReadsBack env crates) : opened env crates (call.token env crates) = .ok call.payload := by
  have htoken : call.token env crates = tokenOf env crates call.payload := rfl
  have hsigned : Base64.decode (encoded env crates call.payload) =
      some (crates.print (call.payload.toJson env)) := Base64.decode_encode _
  have hread : (crates.parse (crates.print (call.payload.toJson env))).bind (WirePayload.ofJson env) =
      some call.payload := by
    rw [hreads.json, Option.bind_some, WirePayload.ofJson_toJson huuid hreads.instant]
  have hletters : (encoded env crates call.payload).length ≤ 10923 := by
    have hshort := hreads.short
    rw [encoded, Base64.length_encode]
    omega
  have hsome : encoded env crates call.payload ≠ [] := fun h => hreads.some_bytes (Base64.encode_eq_nil_iff.mp h)
  have htag (text : List Char) : (Base64.encode (crates.sign text)).length = 43 := by
    rw [Base64.length_encode, hsign]
  have hsmall : ¬ (tokenOf env crates call.payload).utf8ByteSize > maxTokenLen := by
    rw [utf8ByteSize_tokenOf, htag, maxTokenLen]
    omega
  have hsplit := splitOnce_tokenOf env crates call.payload
  have hparts : ¬ (encoded env crates call.payload = [] ∨
      Base64.encode (crates.sign (encoded env crates call.payload)) = [] ∨
      '.' ∈ Base64.encode (crates.sign (encoded env crates call.payload))) := by
    have hlong := htag (encoded env crates call.payload)
    rintro (h | h | h)
    · exact hsome h
    · rw [h] at hlong
      cases hlong
    · exact dot_not_mem_encode _ h
  rw [opened, htoken, refuseIf, if_neg hsmall, ok_bind, hsplit]
  change (refuseIf _ _ >>= fun _ => _) = _
  rw [refuseIf, if_neg hparts, ok_bind, Base64.decode_encode]
  change (refuseIf _ _ >>= fun _ => _) = _
  rw [refuseIf, if_neg (not_not.mpr rfl), ok_bind, hsigned]
  change orInvalid _ = _
  rw [hread]
  rfl

/-! ### What is opened -/

theorem orInvalid_eq_ok_iff {α : Type} {value : Option α} {found : α} :
    orInvalid value = .ok found ↔ value = some found := by
  cases value <;> simp [orInvalid]

/-- A token that is opened is a payload and its signature, in the only spelling they have. -/
theorem opened_eq_ok {payload : WirePayload} (h : opened env crates token = .ok payload) :
    ∃ bytes, splitOnce '.' token.toList = some (Base64.encode bytes, Base64.encode (crates.sign (Base64.encode bytes))) ∧
      (crates.parse bytes).bind (WirePayload.ofJson env) = some payload := by
  simp only [opened, bind_eq_ok_iff, refuseIf_eq_ok_iff, orInvalid_eq_ok_iff, Prod.exists, not_not] at h
  obtain ⟨-, -, text, signature, hsplit, -, -, tag, htag, -, hsigned, bytes, hbytes, hread⟩ := h
  refine ⟨bytes, ?_, hread⟩
  rw [Base64.encode_of_decode hbytes, ← hsigned, Base64.encode_of_decode htag, hsplit]

theorem opened_eq_error {error : ContinuationError} (h : opened env crates token = .error error) :
    error = .invalid := by
  have horInvalid {α : Type} {value : Option α} (h : orInvalid value = .error error) : error = .invalid := by
    cases value with
    | none => exact (Except.error.inj h).symm
    | some found => cases h
  simp only [opened, bind_eq_error_iff] at h
  rcases h with h | ⟨_, _, h | ⟨_, _, h | ⟨_, _, h | ⟨_, _, h | ⟨_, _, h | ⟨_, _, h⟩⟩⟩⟩⟩⟩
  · exact refuseIf_eq_error h
  · exact horInvalid h
  · exact refuseIf_eq_error h
  · exact horInvalid h
  · exact refuseIf_eq_error h
  · exact horInvalid h
  · exact horInvalid h

/-- What a verification returns of a payload. -/
def WirePayload.values (payload : WirePayload) : BootstrapContinuation where
  userId := payload.uid
  snapshotCursor := payload.snapshotCursor
  snapshotAt := payload.snapshotAt
  lastEntity := payload.lastEntity
  lastId := payload.lastId
  expiresAt := payload.exp

theorem verify_eq_ok_iff {now : Instant} {user : Uuid} {accepted : BootstrapContinuation} :
    verify env crates now token user = .ok accepted ↔
      ∃ payload, opened env crates token = .ok payload ∧
        ¬ (payload.v ≠ tokenVersion ∨ payload.uid ≠ user ∨ payload.snapshotCursor < 0 ∨
          payload.lastEntity.isSome ≠ payload.lastId.isSome) ∧
        ¬ payload.exp ≤ timestamp now ∧ payload.values = accepted := by
  simp only [verify, bind_eq_ok_iff, refuseIf_eq_ok_iff]
  constructor
  · rintro ⟨payload, hopened, -, hfits, -, hlive, haccepted⟩
    exact ⟨payload, hopened, hfits, hlive, Except.ok.inj haccepted⟩
  · rintro ⟨payload, hopened, hfits, hlive, haccepted⟩
    exact ⟨payload, hopened, (), hfits, (), hlive, congrArg Except.ok haccepted⟩

/-- The signature that a token carries for its text was made for a token that was issued: nobody else can make it. -/
def Unforged (env : Env) (crates : Crates) (issued : List IssueCall) (token : String) : Prop :=
  ∀ text signature, splitOnce '.' token.toList = some (text, signature) →
    Base64.decode signature = some (crates.sign text) → ∃ call ∈ issued, text = encoded env crates call.payload

/-- Only the tokens that were issued are opened, and each as what was issued. -/
theorem exists_of_opened (huuid : env.uuid.RoundTrips) (hreads : ∀ call ∈ issued, call.ReadsBack env crates)
    (hunforged : Unforged env crates issued token) {payload : WirePayload}
    (h : opened env crates token = .ok payload) :
    ∃ call ∈ issued, token = call.token env crates ∧ payload = call.payload := by
  obtain ⟨bytes, hsplit, hread⟩ := opened_eq_ok h
  obtain ⟨call, hcall, htext⟩ := hunforged _ _ hsplit (Base64.decode_encode _)
  have hbytes : bytes = crates.print (call.payload.toJson env) := Base64.encode_injective htext
  refine ⟨call, hcall, ?_, ?_⟩
  · have htoken := (splitOnce_some hsplit).2
    rw [htext] at htoken
    exact String.toList_inj.mp (htoken.trans (toList_tokenOf call.payload).symm)
  · rw [hbytes, (hreads call hcall).json, Option.bind_some,
      WirePayload.ofJson_toJson huuid (hreads call hcall).instant] at hread
    exact (Option.some.inj hread).symm

/-! ### Tokens as a whole -/

/-- A token is verified to what was issued, for the user it was issued for and until it expires; nothing else is accepted. -/
theorem continuations_kept (huuid : env.uuid.RoundTrips) (hsign : ∀ text, (crates.sign text).length = 32)
    (hreads : ∀ call ∈ issued, call.ReadsBack env crates) :
    (∀ call ∈ issued, 0 ≤ call.snapshotCursor → call.lastEntity.isSome = call.lastId.isSome →
      ∀ later, timestamp later < timestamp (expiryFrom call.now) →
        verify env crates later (call.token env crates) call.userId = .ok call.values) ∧
    (∀ token, Unforged env crates issued token → ∀ user later accepted,
      verify env crates later token user = .ok accepted →
        ∃ call ∈ issued, call.userId = user ∧ token = call.token env crates ∧ accepted = call.values) ∧
    (∀ token, Unforged env crates issued token → (∀ call ∈ issued, token ≠ call.token env crates) →
      ∀ user later, verify env crates later token user = .error .invalid) := by
  refine ⟨fun call hcall hcursor hposition later hlater => ?_, fun token hunforged user later accepted h => ?_,
    fun token hunforged hother user later => ?_⟩
  · refine verify_eq_ok_iff.mpr ⟨call.payload, opened_token huuid hsign (hreads call hcall), ?_, ?_, rfl⟩
    · rintro (h | h | h | h)
      · exact h rfl
      · exact h rfl
      · exact absurd hcursor (Int64.not_le.mpr h)
      · exact h hposition
    · exact Int64.not_le.mpr hlater
  · obtain ⟨payload, hopened, hfits, -, rfl⟩ := verify_eq_ok_iff.mp h
    obtain ⟨call, hcall, htoken, rfl⟩ := exists_of_opened huuid hreads hunforged hopened
    have huser : call.userId = user := by
      by_contra hne
      exact hfits (.inr (.inl hne))
    exact ⟨call, hcall, huser, htoken, rfl⟩
  · rcases hopened : opened env crates token with error | payload
    · rw [verify, hopened, opened_eq_error hopened]
      rfl
    · obtain ⟨call, hcall, htoken, -⟩ := exists_of_opened huuid hreads hunforged hopened
      exact absurd htoken (hother call hcall)

/-! ### One token -/

/-- The first user asks for the page after a task, a quarter of an hour before the end of the token. -/
def pageAfter (snapshotCursor : Int64) : IssueCall where
  now := ⟨1792558800000000000⟩
  userId := ⟨1⟩
  snapshotCursor := snapshotCursor
  snapshotAt := ⟨1792558800000000000⟩
  lastEntity := some .task
  lastId := some ⟨10⟩

def bytesOf (text : List String) : List UInt8 :=
  text.flatMap fun part => part.toList.map fun c => .ofNat c.toNat

/-- The crates on one payload: the text of its JSON, and the signature of the text's spelling. -/
def cratesOn (call : IssueCall) (text : List String) (signature : List UInt8) : Crates where
  sign message := if message = Base64.encode (bytesOf text) then signature else List.replicate 32 0
  print value := if value = call.payload.toJson Env.utc then bytesOf text else []
  parse bytes := if bytes = bytesOf text then some (call.payload.toJson Env.utc) else none

def pageText : List String :=
  ["\x7b\"v\":1,", "\"uid\":\"00000000-0000-0000-0000-000000000001\",", "\"snapshot_cursor\":42,",
    "\"snapshot_at\":\"2026-10-21T05:00:00Z\",", "\"last_entity\":\"task\",",
    "\"last_id\":\"00000000-0000-0000-0000-00000000000a\",", "\"exp\":1792559700\x7d"]

/-- HMAC-SHA-256 of the spelling, under the key of a secret. -/
def pageSignature : List UInt8 :=
  [21, 112, 172, 1, 28, 161, 79, 93, 13, 137, 173, 3, 184, 123, 249, 141, 86, 67, 83, 3, 118, 215, 19, 112, 67, 192,
    117, 33, 230, 235, 46, 155]

def negativeText : List String :=
  ["\x7b\"v\":1,", "\"uid\":\"00000000-0000-0000-0000-000000000001\",", "\"snapshot_cursor\":-1,",
    "\"snapshot_at\":\"2026-10-21T05:00:00Z\",", "\"last_entity\":\"task\",",
    "\"last_id\":\"00000000-0000-0000-0000-00000000000a\",", "\"exp\":1792559700\x7d"]

def negativeSignature : List UInt8 :=
  [70, 68, 5, 59, 220, 105, 127, 155, 127, 56, 107, 30, 53, 186, 245, 68, 31, 29, 244, 219, 8, 187, 70, 147, 134, 56,
    96, 5, 193, 183, 99, 157]

theorem readsBack_cratesOn {text : List String} {signature : List UInt8} (call : IssueCall)
    (hinstant : Env.utc.instant.parse (Env.utc.instant.render call.snapshotAt) = some call.snapshotAt)
    (hsome : bytesOf text ≠ []) (hshort : (bytesOf text).length ≤ 8192) :
    call.ReadsBack Env.utc (cratesOn call text signature) := by
  have hprint : (cratesOn call text signature).print (call.payload.toJson Env.utc) = bytesOf text := if_pos rfl
  refine ⟨hinstant, ?_, ?_, ?_⟩
  · rw [hprint]
    exact if_pos rfl
  · rwa [hprint]
  · rwa [hprint]

theorem length_sign_cratesOn {text : List String} {signature : List UInt8} (hlength : signature.length = 32)
    (call : IssueCall) (message : List Char) : ((cratesOn call text signature).sign message).length = 32 := by
  change (if _ then _ else _ : List UInt8).length = 32
  split
  · exact hlength
  · exact List.length_replicate

/-- The token comes back as what was issued; a token with another signature is refused. -/
theorem continuations_kept_page :
    verify Env.utc (cratesOn (pageAfter 42) pageText pageSignature) ⟨1792559699000000000⟩
        ((pageAfter 42).token Env.utc (cratesOn (pageAfter 42) pageText pageSignature)) ⟨1⟩ =
      .ok (pageAfter 42).values ∧
    verify Env.utc (cratesOn (pageAfter 42) pageText pageSignature) ⟨1792559699000000000⟩
        (.ofList (Base64.encode (bytesOf pageText) ++ ".AAAA".toList)) ⟨1⟩ =
      .error .invalid := by
  have hlength (text : List Char) : ((cratesOn (pageAfter 42) pageText pageSignature).sign text).length = 32 :=
    length_sign_cratesOn rfl (pageAfter 42) text
  have hreads : ∀ call ∈ [pageAfter 42],
      call.ReadsBack Env.utc (cratesOn (pageAfter 42) pageText pageSignature) :=
    List.forall_mem_singleton.mpr
      (readsBack_cratesOn _ (by decide +kernel) (by decide +kernel) (by decide +kernel))
  have huuid : Env.utc.uuid.RoundTrips := Codecs.uuid_roundTrips
  have hkept := continuations_kept huuid hlength hreads
  refine ⟨?_, ?_⟩
  · have hcursor : 0 ≤ (pageAfter 42).snapshotCursor := by decide
    have hlater : timestamp ⟨1792559699000000000⟩ < timestamp (expiryFrom (pageAfter 42).now) := by decide
    exact hkept.1 _ List.mem_cons_self hcursor rfl _ hlater
  · have hsplit : splitOnce '.' (String.ofList (Base64.encode (bytesOf pageText) ++ ".AAAA".toList)).toList =
        some (Base64.encode (bytesOf pageText), "AAAA".toList) := by
      rw [String.toList_ofList]
      exact splitOnce_append (dot_not_mem_encode _) _
    have hshort : Base64.decode "AAAA".toList = some [0, 0, 0] := by decide
    have hunsigned (text : List Char) :
        some [0, 0, 0] ≠ some ((cratesOn (pageAfter 42) pageText pageSignature).sign text) := by
      intro h
      have hlong := hlength text
      rw [← Option.some.inj h] at hlong
      cases hlong
    refine hkept.2.2 _ (fun text signature hcut htag => ?_) (fun call hcall htoken => ?_) _ _
    · rw [hsplit] at hcut
      obtain ⟨rfl, rfl⟩ := Prod.mk.inj (Option.some.inj hcut)
      exact absurd (hshort.symm.trans htag) (hunsigned _)
    · have hcut := splitOnce_tokenOf Env.utc (cratesOn (pageAfter 42) pageText pageSignature) call.payload
      change splitOnce '.' (call.token Env.utc _).toList = _ at hcut
      rw [← htoken, hsplit] at hcut
      have htag := Base64.decode_encode ((cratesOn (pageAfter 42) pageText pageSignature).sign
        (encoded Env.utc (cratesOn (pageAfter 42) pageText pageSignature) call.payload))
      rw [← (Prod.mk.inj (Option.some.inj hcut)).2] at htag
      exact absurd (hshort.symm.trans htag) (hunsigned _)

/-- A cursor below zero is signed, and refused when it comes back. -/
theorem continuation_refuses_negative :
    ¬ ∀ (crates : Crates) (call : IssueCall), (∀ text, (crates.sign text).length = 32) →
      call.ReadsBack Env.utc crates → call.lastEntity.isSome = call.lastId.isSome →
      ∀ later, timestamp later < timestamp (expiryFrom call.now) →
        verify Env.utc crates later (call.token Env.utc crates) call.userId = .ok call.values := by
  intro hall
  have hlength (text : List Char) : ((cratesOn (pageAfter (-1)) negativeText negativeSignature).sign text).length = 32 :=
    length_sign_cratesOn rfl (pageAfter (-1)) text
  have hreads : (pageAfter (-1)).ReadsBack Env.utc (cratesOn (pageAfter (-1)) negativeText negativeSignature) :=
    readsBack_cratesOn _ (by decide +kernel) (by decide +kernel) (by decide +kernel)
  have hlater : timestamp ⟨1792559699000000000⟩ < timestamp (expiryFrom (pageAfter (-1)).now) := by decide
  have hclaimed := hall _ _ hlength hreads rfl _ hlater
  obtain ⟨payload, hopened, hfits, -⟩ := verify_eq_ok_iff.mp hclaimed
  have huuid : Env.utc.uuid.RoundTrips := Codecs.uuid_roundTrips
  rw [opened_token huuid hlength hreads] at hopened
  obtain rfl := Except.ok.inj hopened
  exact hfits (.inr (.inr (.inl (by decide))))

end ShishiTodo.Continuation
