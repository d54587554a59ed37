import ShishiTodo.Lib.ChangeFeed
import ShishiTodo.Native.Edits
import ShishiTodo.Native.ServerResult
import ShishiTodo.Recurring.Service
import ShishiTodo.Server.Retention
import ShishiTodo.Sync.Answers

/-!
# The devices of an account catch up

The server of an account and any number of native devices that read its log from the start: requests are served, answers arrive or get lost, users edit in between, other clients write, and the log is pruned. A device keeps copies of what the server told it, under its cursor. Whatever happened so far, its copies with the changes after its cursor are what the whole log says; two devices that have read everything hold the same copies.
-/

namespace ShishiTodo.Native

open Lib Sync

/-! ### Copies as records -/

/-- What a copy says. Of a deletion only that it happened, since each device writes the time of its own clock. -/
def seen (data : Data) : Record String Json where
  fields name := if name = "deletedAt" then none else data.lookup name
  deleted := (data.lookup "deletedAt").any fun value => decide (value ≠ .null)

/-- The copies of a store. -/
def Store.copies (store : Store) : Feed RowKey String Json := fun key =>
  (store.shadow.lookup key).map fun copy => seen copy.payload

def patchEdit (key : RowKey) (patch : Data) : Edit RowKey String Json where
  key := key
  fields name := if name = "deletedAt" then none else (mergeData patch []).lookup name
  tombstone := ((mergeData patch []).lookup "deletedAt").map fun value => decide (value ≠ .null)

/-- The members of a change; anything but an object has none. -/
def changeMembers : Json → Data
  | .obj members => members
  | _ => []

/-- What a change does to the copy of its entity. -/
def ServerChange.edit (texts : Texts) (change : ServerChange) : Edit RowKey String Json :=
  patchEdit change.key (normalizedPatch change.kind (camelizeObject texts (changeMembers change.patch)) "")

theorem lookup_mergeData (patch data : Data) (name : String) :
    (mergeData patch data).lookup name = ((mergeData patch []).lookup name).or (data.lookup name) := by
  induction patch using List.reverseRecOn with
  | nil => rfl
  | append_singleton patch member ih =>
      obtain ⟨key, value⟩ := member
      have hlast : ∀ start, mergeData (patch ++ [(key, value)]) start =
          Json.putMember key value (mergeData patch start) := by
        intro start
        rw [mergeData, List.foldl_append]
        rfl
      rw [hlast, hlast, Json.lookup_putMember, Json.lookup_putMember]
      split
      · rfl
      · exact ih

theorem seen_mergeData (key : RowKey) (patch data : Data) :
    seen (mergeData patch data) = (patchEdit key patch).onto (seen data) := by
  ext name value
  · show (if name = "deletedAt" then none else _) = some value ↔ (Option.or (if name = "deletedAt" then none
      else _) (if name = "deletedAt" then none else _)) = some value
    by_cases hname : name = "deletedAt"
    · rw [if_pos hname, if_pos hname, if_pos hname]
      rfl
    · rw [if_neg hname, if_neg hname, if_neg hname, lookup_mergeData]
  · show Option.any _ _ = Option.getD (Option.map _ _) (Option.any _ _)
    rw [lookup_mergeData]
    cases (mergeData patch []).lookup "deletedAt" <;> rfl

/-- The clock of the device does not show in what a copy says. -/
theorem patchEdit_normalizedPatch (key : RowKey) (kind : MutationKind) (patch : Data) (now other : String) :
    patchEdit key (normalizedPatch kind patch now) = patchEdit key (normalizedPatch kind patch other) := by
  cases kind with
  | create => rfl
  | patch => rfl
  | restore => rfl
  | delete =>
      rw [normalizedPatch, normalizedPatch]
      split
      · rfl
      · rename_i hnone
        have hput : ∀ text, Json.putMember "deletedAt" (.str text) patch =
            patch ++ [("deletedAt", .str text)] := by
          intro text
          induction patch with
          | nil => rfl
          | cons member rest ih =>
              obtain ⟨name, value⟩ := member
              rw [Json.lookup_cons_eq_ite] at hnone
              by_cases hname : name = "deletedAt"
              · rw [if_pos hname.symm] at hnone
                exact absurd rfl hnone
              · rw [if_neg fun h => hname h.symm] at hnone
                rw [Json.putMember, if_neg hname, ih hnone, List.cons_append]
        have hmerged : ∀ text, mergeData (patch ++ [("deletedAt", .str text)]) [] =
            Json.putMember "deletedAt" (.str text) (mergeData patch []) := by
          intro text
          rw [mergeData, List.foldl_append]
          rfl
        rw [hput, hput, patchEdit, patchEdit, hmerged, hmerged]
        congr 1
        · funext name
          rw [Json.lookup_putMember, Json.lookup_putMember]
          split
          · rfl
          · rfl
        · rw [Json.lookup_putMember, Json.lookup_putMember, if_pos rfl, if_pos rfl]
          rfl

section

variable {texts : Texts} {now : String} {store after : Store} {tx next : Tx}

theorem seen_nil : seen [] = Record.blank := by
  ext name value
  · show (if name = "deletedAt" then none else none) = some value ↔ none = some value
    rw [ite_self]
  · rfl

theorem seen_shadowPayload (store : Store) (key : RowKey) :
    seen (shadowPayload store key) = (store.copies key).getD Record.blank := by
  rw [shadowPayload, Store.copies]
  cases store.shadow.lookup key with
  | none => exact seen_nil
  | some copy => rfl

/-- A change edits the copy of its entity and no other. -/
theorem copies_applyServerChange {change : ServerChange} (h : applyServerChange texts now tx change = .ok next) :
    next.store.copies = (change.edit texts).apply tx.store.copies := by
  obtain ⟨object, hobject, hchange⟩ := bind_eq_ok_iff.mp h
  have hmembers : object = changeMembers change.patch := by
    cases hpatch : change.patch with
    | obj members =>
        rw [hpatch] at hobject
        exact (Except.ok.inj hobject).symm
    | null =>
        rw [hpatch] at hobject
        exact (Except.ok.inj hobject).symm
    | _ =>
        rw [hpatch] at hobject
        cases hobject
  obtain ⟨rows, hrows⟩ := wroteRows_of_applyMaterializedChange hchange
  have hedit : change.edit texts = patchEdit change.key
      (normalizedPatch change.kind (camelizeObject texts object) now) := by
    rw [ServerChange.edit, hmembers]
    exact patchEdit_normalizedPatch _ _ _ _ _
  rw [hedit, Edit.eq_apply_iff]
  subst hrows
  constructor
  · show ((tx.store.shadow.insert change.key _).lookup change.key).map _ = _
    rw [Table.lookup_insert_eq_ite, if_pos rfl, Option.map_some, seen_mergeData change.key, seen_shadowPayload]
    rfl
  · intro key hkey
    have hother : key ≠ change.key := hkey
    show ((tx.store.shadow.insert change.key _).lookup key).map _ = _
    rw [Table.lookup_insert_eq_ite, if_neg hother]
    rfl

theorem copies_applyServerChanges {changes : List ServerChange}
    (h : changes.foldlM (applyServerChange texts now) tx = .ok next) :
    next.store.copies = replay (changes.map (ServerChange.edit texts)) tx.store.copies := by
  induction changes generalizing tx with
  | nil =>
      cases h
      rfl
  | cons change rest ih =>
      rw [List.foldlM_cons] at h
      obtain ⟨middle, hchange, hrest⟩ := bind_eq_ok_iff.mp h
      rw [ih hrest, copies_applyServerChange hchange]
      rfl

/-- An answer is replayed on the copies, and takes the cursor along. -/
theorem copies_applyServerResult {request : ApplyServerResultRequest}
    (h : applyServerResult texts now store request = .ok after) :
    after.copies = replay (request.changes.map (ServerChange.edit texts)) store.copies ∧
      after.kv.syncCursor = request.nextCursor := by
  obtain ⟨-, tx, hchanges, -, rows, -, rfl⟩ := applyServerResult_ok h
  exact ⟨copies_applyServerChanges hchanges, rfl⟩

/-- Two stores with the same copies under the same cursor. -/
structure SameCopies (store after : Store) : Prop where
  shadow : after.shadow = store.shadow
  cursor : after.kv.syncCursor = store.kv.syncCursor

theorem keptByStatements_sameCopies (store : Store) :
    KeptByStatements fun tx => SameCopies store tx.store where
  write hsame h := by
    obtain ⟨_, rfl⟩ := Tx.statement_ok h
    exact ⟨hsame.shadow, hsame.cursor⟩
  append hsame h := by
    obtain ⟨-, rfl⟩ := Tx.appendMutation_ok h
    exact ⟨hsame.shadow, hsame.cursor⟩

theorem sameCopies_clearRejected (h : syncClearRejected texts now store = .ok after) :
    SameCopies store after := by
  obtain ⟨tx, hproject, hafter⟩ := bind_eq_ok_iff.mp h
  obtain ⟨rows, hrows⟩ := reprojectEntities_ok texts _ now _
  rw [hrows] at hproject
  cases hproject
  cases hafter
  exact ⟨rfl, rfl⟩

/-- Only an import that replaces everything throws the copies away. -/
def LocalOp.keepsCopies : LocalOp → Bool
  | .importData _ .replace => false
  | _ => true

theorem sameCopies_perform {request : Request} {tx : Tx} (hkeeps : request.op.keepsCopies = true)
    (h : request.perform texts store = .ok tx) : SameCopies store tx.store := by
  apply (keptByStatements_sameCopies store).perform ?_ h
  have hstart : request.op.start store = store := by
    cases hop : request.op with
    | importData bundle mode =>
        cases mode with
        | merge => rfl
        | replace =>
            rw [hop] at hkeeps
            cases hkeeps
    | _ => rfl
  show SameCopies store (request.op.start store)
  rw [hstart]
  exact ⟨rfl, rfl⟩

end

/-! ### The account -/

/-- A round of a device that is under way. -/
inductive DeviceRound where
  | asked (body : SyncBody)
  | answered (response : SyncResponse)

structure Replica where
  store : Store
  round : Option DeviceRound

structure Fleet where
  db : Db
  replicas : Uuid → Replica

/-- What can happen next. A round that fails, or whose answer is lost, is given up; the next one asks again. -/
inductive FleetEvent where
  | elsewhere (event : ServerEvent)
  | edit (device : Uuid) (request : Request)
  | clearRejected (device : Uuid) (now : String)
  | setSession (device : Uuid) (session : Option String)
  | ask (device : Uuid) (limit : Nat)
  | serve (device : Uuid) (clock : Clock)
  | receive (device : Uuid) (sessionId : Option String) (now : String)
  | giveUp (device : Uuid)

namespace Fleet

/-- The devices are bound to the account and have nothing yet. -/
def start (env : Env) : Fleet where
  db := Db.empty
  replicas device := ⟨syncSetEnabled (.open (env.uuid.render device)) true, none⟩

variable (fleet : Fleet)

def put (device : Uuid) (replica : Replica) : Fleet :=
  { fleet with replicas := Function.update fleet.replicas device replica }

/-- A transaction of a device; an error rolls it back. -/
def commit (device : Uuid) (outcome : StoreResult Store) : Fleet :=
  match outcome with
  | .ok store => fleet.put device { fleet.replicas device with store := store }
  | .error _ => fleet

/-- The transaction of the server that an event asks for. -/
def serverEvent (env : Env) (userId : Uuid) : FleetEvent → Option ServerEvent
  | .elsewhere event => some event
  | .serve device clock =>
      match (fleet.replicas device).round with
      | some (.asked body) => (body.read env).map (.request clock ⟨userId, device⟩)
      | _ => none
  | _ => none

end Fleet

/-- A device has one round under way at a time, and asks with what its store says then. -/
def fleetStep (env : Env) (texts : Texts) (userId : Uuid) (fleet : Fleet) : FleetEvent → Fleet
  | .elsewhere event => { fleet with db := (server env).step fleet.db event }
  | .edit device request =>
      fleet.commit device ((request.perform texts (fleet.replicas device).store).map Tx.store)
  | .clearRejected device now =>
      fleet.commit device (syncClearRejected texts now (fleet.replicas device).store)
  | .setSession device session =>
      fleet.commit device (.ok (syncSetSession (fleet.replicas device).store session))
  | .ask device limit =>
      match (fleet.replicas device).round with
      | none =>
          let store := (fleet.replicas device).store
          fleet.put device ⟨store, some (.asked (Recurring.syncRequest store limit))⟩
      | some _ => fleet
  | .serve device clock =>
      match (fleet.replicas device).round with
      | some (.asked body) =>
          match body.read env with
          | none => fleet
          | some request =>
              match serveSync env clock ⟨userId, device⟩ request fleet.db with
              | (.ok response, db) => { fleet with db := db }.put device
                  ⟨(fleet.replicas device).store, some (.answered response)⟩
              | (.error _, db) => { fleet with db := db }.put device ⟨(fleet.replicas device).store, none⟩
      | _ => fleet
  | .receive device sessionId now =>
      match (fleet.replicas device).round with
      | some (.answered response) =>
          (fleet.put device ⟨(fleet.replicas device).store, none⟩).commit device
            (applyServerResult texts now (fleet.replicas device).store
              (Recurring.serverResult env response sessionId))
      | _ => fleet
  | .giveUp device => fleet.put device ⟨(fleet.replicas device).store, none⟩

def fleetEmit (env : Env) (userId : Uuid) (fleet : Fleet) (event : FleetEvent) : List OpStep :=
  ((fleet.serverEvent env userId event).map (serverEmit env fleet.db)).getD []

/-- The account takes steps; it emits what the server does with each operation. -/
def fleet (env : Env) (texts : Texts) (userId : Uuid) : Machine Fleet FleetEvent OpStep where
  step := fleetStep env texts userId
  emit := fleetEmit env userId

/-- The log is pruned in the order it is read, and no device throws its copies away while it keeps its cursor. -/
def Careful (fleet : Fleet) : FleetEvent → Prop
  | .elsewhere event => PrunesInOrder fleet.db event
  | .edit _ request => request.op.keepsCopies = true
  | _ => True

/-! ### Reading the log -/

section

variable (env : Env) (texts : Texts)

/-- What a row of the log does to the copies of a device that reads it. -/
def received (row : ChangeRow) : Edit RowKey String Json :=
  (Recurring.serverChange env row.toChange).edit texts

def readThrough (rows : List ChangeRow) (copies : Feed RowKey String Json) : Feed RowKey String Json :=
  replay (rows.map (received env texts)) copies

/-- The copies of a device that has read the whole log. -/
def wholeLog (given : List ChangeRow) : Feed RowKey String Json :=
  readThrough env texts given fun _ => none

/-- The store has read that many changes of the log: with the others its copies say what the whole log says. -/
structure HasRead (given : List ChangeRow) (store : Store) (cursor : Nat) : Prop where
  text : store.kv.syncCursor = ChangeCursor.render cursor
  bound : cursor ≤ given.length
  copies : readThrough env texts (given.drop cursor) store.copies = wholeLog env texts given

/-- An answer with the next changes of the log. -/
def Continues (given : List ChangeRow) (cursor : Nat) (response : SyncResponse) : Prop :=
  ∃ count, cursor + count ≤ given.length ∧
    response.changes = ((given.drop cursor).take count).map ChangeRow.toChange ∧
      response.nextCursor = ChangeCursor.render ↑(cursor + count)

def RoundSound (given : List ChangeRow) (cursor : Nat) : Option DeviceRound → Prop
  | none => True
  | some (.asked body) => body.cursor = ChangeCursor.render cursor
  | some (.answered response) => Continues given cursor response

def ReplicaSound (given : List ChangeRow) (replica : Replica) : Prop :=
  ∃ cursor, HasRead env texts given replica.store cursor ∧ RoundSound given cursor replica.round

end

variable {env : Env} {texts : Texts} {given later : List ChangeRow} {store after : Store} {cursor : Nat}

theorem readThrough_append (first second : List ChangeRow) (copies : Feed RowKey String Json) :
    readThrough env texts (first ++ second) copies =
      readThrough env texts second (readThrough env texts first copies) := by
  rw [readThrough, List.map_append, replay_append]
  rfl

/-- The log goes on for everyone. -/
theorem HasRead.grow (h : HasRead env texts given store cursor) :
    HasRead env texts (given ++ later) store cursor where
  text := h.text
  bound := by
    have := h.bound
    rw [List.length_append]
    omega
  copies := by
    rw [List.drop_append_of_le_length h.bound, readThrough_append, h.copies, wholeLog, wholeLog,
      readThrough_append]

theorem Continues.grow {response : SyncResponse} (h : Continues given cursor response) :
    Continues (given ++ later) cursor response := by
  obtain ⟨count, hbound, hchanges, hnext⟩ := h
  have hdrop : cursor ≤ given.length := by omega
  have htake : count ≤ (given.drop cursor).length := by
    rw [List.length_drop]
    omega
  refine ⟨count, ?_, ?_, hnext⟩
  · rw [List.length_append]
    omega
  · rw [List.drop_append_of_le_length hdrop, List.take_append_of_le_length htake]
    exact hchanges

theorem RoundSound.grow {round : Option DeviceRound} (h : RoundSound given cursor round) :
    RoundSound (given ++ later) cursor round := by
  cases round with
  | none => trivial
  | some round =>
      cases round with
      | asked body => exact h
      | answered response => exact Continues.grow h

theorem ReplicaSound.grow {replica : Replica} (h : ReplicaSound env texts given replica) :
    ReplicaSound env texts (given ++ later) replica := by
  obtain ⟨cursor, hread, hround⟩ := h
  exact ⟨cursor, hread.grow, hround.grow⟩

theorem HasRead.of_same (h : HasRead env texts given store cursor) (hsame : SameCopies store after) :
    HasRead env texts given after cursor where
  text := hsame.cursor.trans h.text
  bound := h.bound
  copies := by
    have hcopies : after.copies = store.copies := by
      funext key
      show (after.shadow.lookup key).map _ = (store.shadow.lookup key).map _
      rw [hsame.shadow]
    rw [hcopies]
    exact h.copies

/-- An answer brings the device on by the changes it carries. -/
theorem HasRead.receive (h : HasRead env texts given store cursor) {response : SyncResponse}
    (hanswer : Continues given cursor response) {now : String} {sessionId : Option String}
    (hresult : applyServerResult texts now store (Recurring.serverResult env response sessionId) = .ok after) :
    ∃ count, HasRead env texts given after (cursor + count) := by
  obtain ⟨count, hbound, hchanges, hnext⟩ := hanswer
  obtain ⟨hcopies, hcursor⟩ := copies_applyServerResult hresult
  have hreplayed : after.copies = readThrough env texts ((given.drop cursor).take count) store.copies := by
    rw [hcopies, readThrough]
    show replay ((response.changes.map (Recurring.serverChange env)).map _) _ = _
    rw [hchanges, List.map_map, List.map_map]
    rfl
  refine ⟨count, hcursor.trans hnext, hbound, ?_⟩
  rw [hreplayed, ← h.copies, ← readThrough_append, ← List.drop_drop, List.take_append_drop]

/-! ### The page of an answer -/

/-- Rows with the same numbers are the same rows where a number names a row. -/
theorem eq_of_map_eq {α β : Type*} {number : α → β} {left right : List α}
    (hunique : ∀ a ∈ left, ∀ b ∈ right, number a = number b → a = b)
    (h : left.map number = right.map number) : left = right := by
  induction left generalizing right with
  | nil => exact (List.map_eq_nil_iff.mp h.symm).symm
  | cons head rest ih =>
      cases right with
      | nil => cases h
      | cons other others =>
          obtain ⟨hhead, hrest⟩ := List.cons.inj h
          rw [hunique head List.mem_cons_self other List.mem_cons_self hhead]
          rw [ih (fun a ha b hb => hunique a (List.mem_cons_of_mem head ha) b
            (List.mem_cons_of_mem other hb)) hrest]

/-- The sequences of the changes after a cursor. -/
theorem drop_range (cursor : Nat) {next : Int} (h : (cursor : Int) < next) :
    (Int.range 1 next).drop cursor = Int.range (cursor + 1) next := by
  have hsplit := range_append (show (1 : Int) ≤ cursor + 1 by omega) (show (cursor : Int) + 1 ≤ next by omega)
  have hlength := length_range (show (1 : Int) ≤ cursor + 1 by omega)
  rw [← hsplit]
  apply List.drop_left'
  omega

theorem range_take (cursor count : Nat) {next : Int} (h : (cursor : Int) + 1 + count ≤ next) :
    (Int.range (cursor + 1) next).take count = Int.range (cursor + 1) (cursor + 1 + count) := by
  have hsplit := range_append (show (cursor : Int) + 1 ≤ cursor + 1 + count by omega) h
  have hlength := length_range (show (cursor : Int) + 1 ≤ cursor + 1 + count by omega)
  rw [← hsplit]
  apply List.take_left'
  omega

/-- The last of the next changes has brought the cursor on by their number. -/
theorem getLast_serverSeq {rows : List ChangeRow}
    (h : rows.map ChangeRow.serverSeq = Int.range (cursor + 1) (cursor + 1 + rows.length)) :
    (rows.getLast?.map ChangeRow.serverSeq).getD cursor = cursor + rows.length := by
  rcases rows.eq_nil_or_concat with rfl | ⟨init, last, rfl⟩
  · simp
  · rw [List.concat_eq_append] at h ⊢
    have hlength : ((init ++ [last]).length : Int) = init.length + 1 := by simp
    have hlast : (cursor : Int) + 1 + (init ++ [last]).length = cursor + 1 + init.length + 1 := by omega
    rw [hlast, range_succ (by omega), List.map_append] at h
    have hseq : last.serverSeq = cursor + 1 + init.length := by
      have hboth := (List.append_inj' h rfl).2
      exact (List.cons.inj hboth).1
    rw [List.getLast?_concat]
    show last.serverSeq = _
    omega

theorem length_givenTo {db : Db} {past : List OpStep} (h : History db past) (userId : Uuid) :
    ((givenTo past userId).length : Int) = (db.syncState userId).nextServerSeq - 1 := by
  obtain ⟨hpos, hsequence⟩ := h.sequence userId
  have hlength := congrArg List.length hsequence
  have hrange := length_range hpos
  rw [List.length_map] at hlength
  omega

section Request

variable {db : Db} {past : List OpStep} {userId : Uuid}

/-- An accepted cursor is answered with the changes after it, of the log as it was given. -/
theorem changesAfter_eq_drop (hhistory : History db past) (hgapless : Gapless db userId)
    (haccepted : checkCursor (db.syncState userId) cursor = .ok ()) :
    db.changesAfter userId cursor = (givenTo past userId).drop cursor := by
  obtain ⟨hahead, -⟩ := checkCursor_eq_ok_iff.mp haccepted
  have hserved := hgapless.cursorSound.served cursor (Int.natCast_nonneg cursor) haccepted
  have hsequence := (hhistory.sequence userId).2
  have hnodup : ((givenTo past userId).map ChangeRow.serverSeq).Nodup := by
    rw [hsequence]
    exact nodup_range _ _
  have hmem : ∀ row ∈ db.changesAfter userId cursor, row ∈ givenTo past userId := by
    intro row hrow
    rw [Db.changesAfter, List.mem_insertionSort] at hrow
    obtain ⟨hlog, hkeep⟩ := List.mem_filter.mp hrow
    have howner := (Bool.and_eq_true_iff.mp hkeep).1
    exact hhistory.given_of_mem (List.mem_filter.mpr ⟨hlog, howner⟩)
  have hnumbers : (db.changesAfter userId cursor).map ChangeRow.serverSeq =
      ((givenTo past userId).drop cursor).map ChangeRow.serverSeq := by
    rw [hserved, List.map_drop, hsequence, drop_range cursor hahead]
  refine eq_of_map_eq (fun row hrow other hother hsame => ?_) hnumbers
  exact List.inj_on_of_nodup_map hnodup (hmem row hrow) (List.mem_of_mem_drop hother) hsame

/-- A page continues where its cursor stands. -/
theorem syncPage_continues (hhistory : History db past) (hgapless : Gapless db userId)
    (haccepted : checkCursor (db.syncState userId) cursor = .ok ()) (limit : Nat) (acks : List Ack)
    (answer : Instant) :
    Continues (givenTo past userId) cursor (syncPage db userId cursor limit acks answer) := by
  obtain ⟨hahead, -⟩ := checkCursor_eq_ok_iff.mp haccepted
  have hlength := length_givenTo hhistory userId
  have hpage : ((db.changesAfter userId cursor).take (limit + 1)).take limit =
      ((givenTo past userId).drop cursor).take limit := by
    rw [changesAfter_eq_drop hhistory hgapless haccepted, List.take_take, Nat.min_eq_left (by omega)]
  have hcount : (((givenTo past userId).drop cursor).take limit).length =
      min limit ((givenTo past userId).length - cursor) := by
    rw [List.length_take, List.length_drop]
  have hsequences : (((givenTo past userId).drop cursor).take limit).map ChangeRow.serverSeq =
      Int.range (cursor + 1) (cursor + 1 + (((givenTo past userId).drop cursor).take limit).length) := by
    rw [List.take_eq_take_min, List.length_drop, List.map_take, List.map_drop, (hhistory.sequence userId).2,
      drop_range cursor hahead, range_take cursor _ (by omega), List.length_take, List.length_drop]
    congr 2
    omega
  refine ⟨(((givenTo past userId).drop cursor).take limit).length, by omega, ?_, ?_⟩
  · show (((db.changesAfter userId cursor).take (limit + 1)).take limit).map _ = _
    rw [hpage, hcount, ← List.length_drop, ← List.take_eq_take_min]
  · show ChangeCursor.render ((((((db.changesAfter userId cursor).take (limit + 1)).take limit).map
      ChangeRow.toChange).getLast?.map Change.serverSeq).getD cursor) = _
    rw [hpage, List.getLast?_map, Option.map_map]
    show ChangeCursor.render ((Option.map ChangeRow.serverSeq _).getD _) = _
    rw [getLast_serverSeq hsequences, Nat.cast_add]

theorem continues_committed {env : Env} {clock : Clock} {auth : AuthUser} {body : SyncRequest}
    (committed : Committed env clock auth body db) (hhistory : History committed.result past)
    (hgapless : Gapless committed.result auth.userId) (hcursor : body.cursor = ChangeCursor.render cursor) :
    Continues (givenTo past auth.userId) cursor committed.response := by
  have hread := readCursor_eq_ok committed.hcursor
  rw [hcursor] at hread
  have hsame := ChangeCursor.parse_render hread
  have haccepted : checkCursor (committed.result.syncState auth.userId) cursor = .ok () := by
    obtain ⟨hahead, hbehind⟩ := checkCursor_eq_ok_iff.mp committed.hcheck
    rw [syncState_ensureSyncState] at hahead hbehind
    have hgrown := committed.lastSeq_le auth.userId
    have hmin := committed.minAvailableSeq_eq auth.userId
    unfold Db.lastSeq at hgrown
    exact checkCursor_eq_ok_iff.mpr ⟨by omega, by omega⟩
  rw [Committed.response, hsame]
  exact syncPage_continues hhistory hgapless haccepted _ _ _

end Request

/-! ### Every run -/

/-- What holds of the account in every state. -/
structure FleetInv (env : Env) (texts : Texts) (userId : Uuid) (fleet : Fleet) (past : List OpStep) : Prop where
  history : History fleet.db past
  gapless : Gapless fleet.db userId
  replicas : ∀ device, ReplicaSound env texts (givenTo past userId) (fleet.replicas device)

variable {userId device : Uuid} {fleet : Fleet} {past : List OpStep}

theorem FleetInv.server (h : FleetInv env texts userId fleet past) (event : ServerEvent)
    (horder : PrunesInOrder fleet.db event) :
    FleetInv env texts userId { fleet with db := (ShishiTodo.server env).step fleet.db event }
      (past ++ (ShishiTodo.server env).emit fleet.db event) where
  history := h.history.step event
  gapless := h.gapless.step horder
  replicas device := by
    rw [givenTo_append]
    exact (h.replicas device).grow

theorem FleetInv.put (h : FleetInv env texts userId fleet past) {replica : Replica}
    (hsound : ReplicaSound env texts (givenTo past userId) replica) :
    FleetInv env texts userId (fleet.put device replica) past where
  history := h.history
  gapless := h.gapless
  replicas other := by
    show ReplicaSound env texts _ (Function.update fleet.replicas device replica other)
    by_cases hother : other = device
    · rw [hother, Function.update_self]
      exact hsound
    · rw [Function.update_of_ne hother]
      exact h.replicas other

/-- A device goes on from a store with the same copies. -/
theorem FleetInv.commit (h : FleetInv env texts userId fleet past) {outcome : StoreResult Store}
    (hsame : ∀ after, outcome = .ok after → SameCopies (fleet.replicas device).store after) :
    FleetInv env texts userId (fleet.commit device outcome) past := by
  cases houtcome : outcome with
  | error error => exact h
  | ok after =>
      obtain ⟨cursor, hread, hround⟩ := h.replicas device
      exact h.put ⟨cursor, hread.of_same (hsame after houtcome), hround⟩

theorem FleetInv.idle (h : FleetInv env texts userId fleet past) :
    FleetInv env texts userId (fleet.put device ⟨(fleet.replicas device).store, none⟩) past := by
  obtain ⟨cursor, hread, -⟩ := h.replicas device
  exact h.put ⟨cursor, hread, trivial⟩

/-- An event at which the server does nothing. -/
theorem FleetInv.silent {next : Fleet} {event : FleetEvent} (h : FleetInv env texts userId next past)
    (hnothing : fleetEmit env userId fleet event = []) :
    FleetInv env texts userId next (past ++ fleetEmit env userId fleet event) := by
  rw [hnothing, List.append_nil]
  exact h

theorem fleetInv_start (env : Env) (texts : Texts) (userId : Uuid) :
    FleetInv env texts userId (Fleet.start env) [] where
  history := History.empty
  gapless := .empty userId
  replicas device := by
    refine ⟨0, ⟨rfl, Nat.zero_le _, ?_⟩, trivial⟩
    rfl

theorem fleetInv_serve (h : FleetInv env texts userId fleet past) (clock : Clock) :
    FleetInv env texts userId (fleetStep env texts userId fleet (.serve device clock))
      (past ++ fleetEmit env userId fleet (.serve device clock)) := by
  rw [fleetStep, fleetEmit, Fleet.serverEvent]
  cases hround : (fleet.replicas device).round with
  | none => simpa using h
  | some round =>
      cases round with
      | answered response => simpa using h
      | asked body =>
          cases hbody : body.read env with
          | none => simpa [hbody] using h
          | some request =>
              obtain ⟨cursor, hread, hasked⟩ := h.replicas device
              rw [hround] at hasked
              have hcursor : request.cursor = ChangeCursor.render cursor := by
                obtain ⟨deviceId, -, hbody⟩ := Option.bind_eq_some_iff.mp hbody
                obtain ⟨ops, -, hbody⟩ := Option.bind_eq_some_iff.mp hbody
                cases hbody
                exact hasked
              have hserved := h.server (.request clock ⟨userId, device⟩ request) trivial
              simp only [hbody, Option.map_some, Option.getD_some]
              cases hsync : sync env clock ⟨userId, device⟩ request fleet.db with
              | error error =>
                  have hserve : serveSync env clock ⟨userId, device⟩ request fleet.db =
                      (.error error, fleet.db) := by
                    rw [serveSync, hsync]
                  rw [hserve]
                  have hnext : (ShishiTodo.server env).step fleet.db (.request clock ⟨userId, device⟩ request) =
                      fleet.db := congrArg Prod.snd hserve
                  rw [hnext] at hserved
                  exact hserved.idle
              | ok answer =>
                  obtain ⟨committed, hdb, hresponse⟩ := sync_eq_ok hsync
                  have hserve : serveSync env clock ⟨userId, device⟩ request fleet.db =
                      (.ok committed.response, committed.result) := by
                    rw [serveSync, hsync, ← hdb, ← hresponse]
                  rw [hserve]
                  have hnext : (ShishiTodo.server env).step fleet.db (.request clock ⟨userId, device⟩ request) =
                      committed.result := congrArg Prod.snd hserve
                  rw [hnext] at hserved
                  apply hserved.put
                  refine ⟨cursor, ?_, continues_committed committed hserved.history hserved.gapless hcursor⟩
                  rw [givenTo_append]
                  exact hread.grow

theorem fleetInv_step (h : FleetInv env texts userId fleet past) (event : FleetEvent)
    (hcareful : Careful fleet event) :
    FleetInv env texts userId (fleetStep env texts userId fleet event)
      (past ++ fleetEmit env userId fleet event) := by
  cases event with
  | elsewhere event => exact h.server event hcareful
  | serve device clock => exact fleetInv_serve h clock
  | edit device request =>
      refine FleetInv.silent (h.commit fun after hafter => ?_) rfl
      obtain ⟨tx, hperform, rfl⟩ := map_eq_ok_iff.mp hafter
      exact sameCopies_perform hcareful hperform
  | clearRejected device now =>
      exact FleetInv.silent (h.commit fun after hafter => sameCopies_clearRejected hafter) rfl
  | setSession device session =>
      refine FleetInv.silent ?_ rfl
      show FleetInv env texts userId (fleet.commit device (.ok _)) past
      apply h.commit
      intro after hafter
      cases hafter
      exact ⟨rfl, rfl⟩
  | ask device limit =>
      refine FleetInv.silent ?_ rfl
      rw [fleetStep]
      split
      · obtain ⟨cursor, hread, -⟩ := h.replicas device
        exact h.put ⟨cursor, hread, hread.text⟩
      · exact h
  | receive device sessionId now =>
      refine FleetInv.silent ?_ rfl
      rw [fleetStep]
      split
      · rename_i response hround
        obtain ⟨cursor, hread, hanswer⟩ := h.replicas device
        rw [hround] at hanswer
        cases hresult : applyServerResult texts now (fleet.replicas device).store
            (Recurring.serverResult env response sessionId) with
        | error error => exact h.idle
        | ok after =>
            obtain ⟨count, hreceived⟩ := hread.receive hanswer hresult
            apply h.idle.put
            refine ⟨cursor + count, hreceived, ?_⟩
            show RoundSound _ _ (Function.update fleet.replicas device _ device).round
            rw [Function.update_self]
            trivial
      · exact h
  | giveUp device => exact FleetInv.silent h.idle rfl

/-- A device whose cursor is at the account's last change. -/
def UpToDate (fleet : Fleet) (userId device : Uuid) : Prop :=
  ChangeCursor.parse (fleet.replicas device).store.kv.syncCursor = some (fleet.db.lastSeq userId)

/-- The devices of an account follow its log, which numbers its changes from one. -/
structure CatchUp (env : Env) (texts : Texts) (userId : Uuid) (fleet : Fleet) (given : List ChangeRow) : Prop where
  numbered : given.map ChangeRow.serverSeq = Int.range 1 (fleet.db.lastSeq userId + 1)
  follows : ∀ device, ∃ cursor, HasRead env texts given (fleet.replicas device).store cursor
  agree : ∀ device other, UpToDate fleet userId device → UpToDate fleet userId other →
    (fleet.replicas device).store.copies = (fleet.replicas other).store.copies

/-- In every run whose prunes keep the log gapless and whose devices keep their copies, each device has the copies that the changes up to its cursor leave: the ones after it bring them to what the whole log says. Devices that are up to date agree. -/
theorem devices_catch_up (env : Env) (texts : Texts) (userId : Uuid) (events : List FleetEvent)
    (hcareful : (Native.fleet env texts userId).Along Careful (.start env) events) :
    CatchUp env texts userId ((Native.fleet env texts userId).run (.start env) events)
      (givenTo ((Native.fleet env texts userId).trace (.start env) events) userId) := by
  have hinv := (Native.fleet env texts userId).invariant_along Careful (FleetInv env texts userId)
    (fun _ _ event h hevent => fleetInv_step h event hevent) events (.start env) []
    (fleetInv_start env texts userId) hcareful
  rw [List.nil_append] at hinv
  have hwhole : ∀ device, UpToDate ((Native.fleet env texts userId).run (.start env) events) userId device →
      (((Native.fleet env texts userId).run (.start env) events).replicas device).store.copies =
        wholeLog env texts (givenTo ((Native.fleet env texts userId).trace (.start env) events) userId) := by
    intro device hdate
    obtain ⟨cursor, hread, -⟩ := hinv.replicas device
    have hlength := length_givenTo hinv.history userId
    rw [UpToDate, hread.text] at hdate
    have hend := ChangeCursor.parse_render hdate
    unfold Db.lastSeq at hend
    have hnone : (givenTo ((Native.fleet env texts userId).trace (.start env) events) userId).drop cursor = [] :=
      List.drop_eq_nil_of_le (by omega)
    rw [← hread.copies, hnone]
    rfl
  refine ⟨?_, fun device => ?_, fun device other hdevice hother => ?_⟩
  · rw [(hinv.history.sequence userId).2, Db.lastSeq, sub_add_cancel]
  · obtain ⟨cursor, hread, -⟩ := hinv.replicas device
    exact ⟨cursor, hread⟩
  · rw [hwhole device hdevice, hwhole other hother]

/-- The phone makes a list, and both devices sync. -/
def listShared : List FleetEvent :=
  let supply : Supply := {
    now := "2026-10-21T05:00:00.000Z"
    id := Codecs.uuid.render ⟨30⟩
    planId := Codecs.uuid.render ⟨31⟩
    opId := fun seq => Codecs.uuid.render ⟨BitVec.ofInt 128 (40 + seq)⟩ }
  let round (device : Uuid) : List FleetEvent :=
    [.ask device 100, .serve device ⟨⟨1000⟩, ⟨2000⟩⟩, .receive device none "2026-10-21T06:00:00.000Z"]
  [.elsewhere (.signUp ⟨1⟩), .elsewhere (.signIn ⟨⟨1⟩, ⟨10⟩⟩), .elsewhere (.signIn ⟨⟨1⟩, ⟨20⟩⟩),
    .edit ⟨10⟩ ⟨.createList ⟨"Groceries", none, none⟩, supply⟩] ++ round ⟨10⟩ ++ round ⟨20⟩

instance (fleet : Fleet) (userId device : Uuid) : Decidable (UpToDate fleet userId device) :=
  inferInstanceAs (Decidable (_ = _))

instance (db : Db) (cutoff : Instant) : Decidable (InOrderBelow db cutoff) :=
  inferInstanceAs (Decidable (∀ early ∈ db.changeLog, ∀ late ∈ db.changeLog, early.userId = late.userId →
    early.serverSeq < late.serverSeq → late.createdAt.nanos < cutoff.nanos →
    early.createdAt.nanos ≤ late.createdAt.nanos))

instance (db : Db) : (event : ServerEvent) → Decidable (PrunesInOrder db event)
  | .pruneChangeLog cutoff _ => inferInstanceAs (Decidable (InOrderBelow db cutoff))
  | .signUp _ | .signIn _ | .revokeDevice _ _ | .request _ _ _ | .cleanupReceipts _ _ => isTrue trivial

instance (fleet : Fleet) : (event : FleetEvent) → Decidable (Careful fleet event)
  | .elsewhere event => inferInstanceAs (Decidable (PrunesInOrder fleet.db event))
  | .edit _ request => inferInstanceAs (Decidable (request.op.keepsCopies = true))
  | .clearRejected _ _ | .setSession _ _ | .ask _ _ | .serve _ _ | .receive _ _ _ | .giveUp _ => isTrue trivial

theorem devices_catch_up_shared :
    (((Native.fleet Env.utc Texts.utc ⟨1⟩).run (.start Env.utc) listShared).replicas ⟨10⟩).store.copies =
        (((Native.fleet Env.utc Texts.utc ⟨1⟩).run (.start Env.utc) listShared).replicas ⟨20⟩).store.copies ∧
      ((((Native.fleet Env.utc Texts.utc ⟨1⟩).run (.start Env.utc) listShared).replicas ⟨20⟩).store.copies
        (.list, Codecs.uuid.render ⟨30⟩)).isSome := by
  have hcatch := devices_catch_up Env.utc Texts.utc ⟨1⟩ listShared (by decide)
  exact ⟨hcatch.agree ⟨10⟩ ⟨20⟩ (by decide) (by decide), by decide⟩

end ShishiTodo.Native
