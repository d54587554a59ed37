import ShishiTodo.Shared.Copies

/-!
# Copies along runs

The invariant of one member's engine next to the server. A fresh write is a step that changes one task, and so is the step that a receipt records. A receipt that is older answers with whatever revision the list has by then, and that step may be somebody else's: the condition on runs excludes it.
-/

namespace ShishiTodo

open Lib

/-! ### The server -/

/-- Revisions name contents, no receipt is ahead of its list, and a receipt of an operation of the engine records a step that changed only its task. -/
structure ServerOk (account : Uuid) (issued : Table Uuid (Uuid × Uuid)) (history : List SharedDb)
    (db : SharedDb) : Prop where
  versions : listVersions.History history db
  receipts : ∀ listId opId receipt, db.receipts.lookup (listId, opId) = some receipt →
    ∃ current, db.revisionOf listId = some current ∧ receipt.revision ≤ current
  own : ∀ opId listId taskId revision, issued.lookup opId = some (listId, taskId) →
    db.receipts.lookup (listId, opId) = some ⟨account, revision⟩ →
    listVersions.OnlyItem history listId (revision - 1) taskId

section Server

variable {account : Uuid} {issued : Table Uuid (Uuid × Uuid)} {history : List SharedDb}
  {db next : SharedDb}

/-- A request that leaves the lists and the receipts alone. -/
theorem ServerOk.same (h : ServerOk account issued history db) (hlists : next.lists = db.lists)
    (htasks : next.tasks = db.tasks) (hreceipts : next.receipts = db.receipts) :
    ServerOk account issued (next :: history) next := by
  have hrevision : ∀ listId, next.revisionOf listId = db.revisionOf listId := by
    intro listId
    simp only [SharedDb.revisionOf, hlists]
  have hitem : ∀ listId, next.liveTasks listId = db.liveTasks listId := by
    intro listId
    funext taskId
    simp only [SharedDb.liveTasks, SharedDb.liveTask, htasks]
  refine ⟨h.versions.unchanged hrevision hitem, ?_, ?_⟩
  · intro listId opId receipt hlookup
    rw [hreceipts] at hlookup
    rw [hrevision]
    exact h.receipts listId opId receipt hlookup
  · intro opId listId taskId revision hissued hlookup
    rw [hreceipts] at hlookup
    exact (h.own opId listId taskId revision hissued hlookup).mono (List.subset_cons_self next history)

/-- A write, by the engine or elsewhere. -/
theorem ServerOk.write (h : ServerOk account issued history db) {call : SharedCall} {listId : Uuid}
    {opId touched : Option Uuid} (hwrite : ListWrite call listId opId touched db next)
    (hown : call.actor = account → ∀ taskId,
      issued.lookup (opId.getD call.receiptId) = some (listId, taskId) →
      touched = some taskId ∧ (db.revisionOf listId).isSome) :
    ServerOk account issued (next :: history) next where
  versions := h.versions.write hwrite.write
  receipts := by
    intro other used receipt hlookup
    rw [hwrite.receipts, Table.lookup_insert_eq_ite] at hlookup
    split at hlookup
    · rename_i hkey
      cases hkey
      cases hlookup
      exact ⟨_, hwrite.write.revision, Int.le_refl _⟩
    · obtain ⟨current, hcurrent, hle⟩ := h.receipts other used receipt hlookup
      obtain ⟨later, hlater, hgrown⟩ := (h.versions.write hwrite.write).grows db
        (List.mem_cons_of_mem next h.versions.now_mem) other current hcurrent
      exact ⟨later, hlater, by omega⟩
  own := by
    intro used other taskId revision hissued hlookup
    rw [hwrite.receipts, Table.lookup_insert_eq_ite] at hlookup
    split at hlookup
    · rename_i hkey
      cases hkey
      simp only [Option.some.injEq, SharedReceiptRow.mk.injEq] at hlookup
      obtain ⟨hactor, rfl⟩ := hlookup
      obtain ⟨htouched, hsome⟩ := hown hactor taskId hissued
      obtain ⟨current, hcurrent⟩ := Option.isSome_iff_exists.mp hsome
      rw [hcurrent, Option.getD_some, Int.add_sub_cancel]
      exact hwrite.write.onlyItem h.versions.now_mem hcurrent htouched
    · exact (h.own used other taskId revision hissued hlookup).mono
        (List.subset_cons_self next history)

end Server

/-! ### Runs -/

/-- What an exchange may still bring. -/
def ExchangeOk (issued : Table Uuid (Uuid × Uuid)) (history : List SharedDb)
    (exchange : Exchange) : Prop :=
  match exchange.call with
  | .push op expected =>
      Issued issued op ∧ (∃ db ∈ history, db.revisionOf op.listId = some expected) ∧
        ∀ response task, exchange.answer = some (.ok response) →
          knownResult op expected response = some task → Foldable history op expected task
  | .pull listId =>
      ∀ snapshot, exchange.answer = some (.ok (.snapshot snapshot)) → ∃ db ∈ history,
        db.revisionOf listId = some snapshot.revision ∧
          Holds snapshot.tasks (db.liveTasks listId)
  | _ => True

theorem ExchangeOk.mono {issued : Table Uuid (Uuid × Uuid)} {history later : List SharedDb}
    (hsub : history ⊆ later) {exchange : Exchange} (h : ExchangeOk issued history exchange) :
    ExchangeOk issued later exchange := by
  unfold ExchangeOk at h ⊢
  split at h
  · obtain ⟨hissued, ⟨db, hmem, hrev⟩, hfold⟩ := h
    exact ⟨hissued, ⟨db, hsub hmem, hrev⟩, fun response task hanswer hknown =>
      (hfold response task hanswer hknown).mono hsub⟩
  · intro snapshot hanswer
    obtain ⟨db, hmem, hread⟩ := h snapshot hanswer
    exact ⟨db, hsub hmem, hread⟩
  · trivial

theorem ExchangeOk.insert {issued : Table Uuid (Uuid × Uuid)} {history : List SharedDb}
    {exchange : Exchange} (h : ExchangeOk issued history exchange) {opId : Uuid}
    (value : Uuid × Uuid) (hnew : issued.lookup opId = none) :
    ExchangeOk (issued.insert opId value) history exchange := by
  unfold ExchangeOk at h ⊢
  split at h
  · rename_i op expected _
    refine ⟨?_, h.2⟩
    have hne : op.opId ≠ opId := by
      intro heq
      have hop := h.1
      rw [Issued, heq, hnew] at hop
      cases hop
    rw [Issued, AList.lookup_insert_ne hne]
    exact h.1
  · exact h
  · trivial

/-- The invariant of every run that meets the condition. -/
structure MemberOk (account : Uuid) (state : MemberState) : Prop where
  server : ServerOk account state.issued state.history state.db
  copies : CopiesOf state.history state.space
  outbox : OpsAll (Issued state.issued) state.space
  selected : ∀ op, state.selected = some op → Issued state.issued op
  exchanges : ∀ exchange ∈ state.exchanges, ExchangeOk state.issued state.history exchange

/-- The condition on a step. When the server answers a repeated push from its receipt, the list stands one revision past the copy the push was made from, and the receipt is older than that revision, then the write that made the revision changed no task but that of the push. -/
def ReplayIsOwn (account : Uuid) (state : MemberState) : MemberEvent → Prop
  | .deliver index _ _ _ =>
      ∀ op expected waiting receipt, state.exchanges[index]? =
          some { call := .push op expected, waiting := waiting, answer := none } →
        op.kind ≠ .delete → state.db.mayEdit op.listId account →
        state.db.receipts.lookup (op.listId, op.opId) = some ⟨account, receipt⟩ →
        receipt ≤ expected → state.db.revisionOf op.listId = some (expected + 1) →
        (state.db.liveTasks op.listId op.taskId).isSome →
        listVersions.OnlyItem state.history op.listId expected op.taskId
  | _ => True

theorem knownResult_eq_some {op : SharedOpRecord} {expected : Int} {response : SharedResponse}
    {task : SharedTask} (h : knownResult op expected response = some task) :
    response = .task task ∧ op.kind ≠ .delete ∧ task.revision = expected + 1 := by
  unfold knownResult at h
  split at h
  · split at h
    · rename_i hknown
      cases h
      exact ⟨rfl, hknown⟩
    · cases h
  · cases h

theorem opRequest_outcome {call : SharedCall} {op : SharedOpRecord} {expected : Int}
    {db next : SharedDb} {response : SharedResponse}
    (h : handleShared call db (opRequest op expected) = .ok (response, next)) :
    TaskOutcome call op.listId op.taskId (some op.opId) (some expected) none db response next := by
  unfold opRequest at h
  split at h
  · exact createTask_outcome h
  · exact patchTask_outcome h
  · exact deleteTask_outcome h

section Steps

variable {account : Uuid} {state : MemberState}

theorem ServerOk.serve (h : ServerOk account state.issued state.history state.db)
    {call : SharedCall} {request : SharedRequest}
    (helse : state.elsewhere account call request = true) :
    ServerOk account state.issued ((serveShared call state.db request).2 :: state.history)
      (serveShared call state.db request).2 := by
  unfold serveShared
  cases hhandle : handleShared call state.db request with
  | error error => exact h.same rfl rfl rfl
  | ok result =>
      obtain ⟨response, next⟩ := result
      rcases handleShared_effect hhandle with rfl | ⟨listId, touched, hwrite⟩
      · exact h.same rfl rfl rfl
      · refine h.write hwrite ?_
        intro hactor taskId hissued
        simp [MemberState.elsewhere, hactor, hissued] at helse

/-- A push that reaches the server, under the condition on the step: the server stays right, and an answer that will be folded may be. -/
theorem ServerOk.push (h : ServerOk account state.issued state.history state.db)
    {call : SharedCall} (hactor : call.actor = account) {op : SharedOpRecord} {expected : Int}
    (hissued : Issued state.issued op)
    (hexpected : ∃ db ∈ state.history, db.revisionOf op.listId = some expected)
    (hcondition : ∀ receipt, op.kind ≠ .delete → state.db.mayEdit op.listId account →
      state.db.receipts.lookup (op.listId, op.opId) = some ⟨account, receipt⟩ →
      receipt ≤ expected → state.db.revisionOf op.listId = some (expected + 1) →
      (state.db.liveTasks op.listId op.taskId).isSome →
      listVersions.OnlyItem state.history op.listId expected op.taskId)
    {response : SharedResponse} {next : SharedDb}
    (hhandle : handleShared call state.db (opRequest op expected) = .ok (response, next)) :
    ServerOk account state.issued (next :: state.history) next ∧
      ∀ task, knownResult op expected response = some task →
        Foldable (next :: state.history) op expected task := by
  subst hactor
  cases opRequest_outcome hhandle with
  | replayed revision allowed receipt same answer =>
      subst same
      refine ⟨h.same rfl rfl rfl, ?_⟩
      intro task hknown
      obtain ⟨hresponse, hkind, hrevision⟩ := knownResult_eq_some hknown
      obtain ⟨hid, hcurrent, hshown⟩ := fetchTask_eq_ok (answer task hresponse)
      rw [hrevision] at hcurrent
      obtain ⟨used, hused, hreceipt⟩ := replayReceipt_eq_some receipt
      cases hused
      refine ⟨hid, hrevision, ?_, state.db, List.mem_cons_of_mem _ h.versions.now_mem, hcurrent,
        hshown⟩
      refine VersionView.OnlyItem.mono (List.subset_cons_self _ _) ?_
      by_cases hold : revision ≤ expected
      · exact hcondition revision hkind allowed hreceipt hold hcurrent (by rw [hshown]; rfl)
      · -- The receipt is of the present revision, so that revision is the operation's own.
        obtain ⟨current, hfound, hle⟩ := h.receipts op.listId op.opId _ hreceipt
        rw [hcurrent, Option.some.injEq] at hfound
        dsimp only at hle
        have hown := h.own op.opId op.listId op.taskId revision hissued hreceipt
        rwa [show revision - 1 = expected by omega] at hown
  | written found given current write raised answer =>
      have hfound : found = expected := by
        simp only [expectedRevision, checkPositive] at given
        split at given
        · cases given
        · cases given
          rfl
      subst hfound
      refine ⟨h.write write ?_, ?_⟩
      · intro _ taskId hother
        rw [Option.getD_some, hissued] at hother
        cases hother
        exact ⟨rfl, by rw [current]; rfl⟩
      · intro task hknown
        obtain ⟨hresponse, -, -⟩ := knownResult_eq_some hknown
        obtain ⟨hid, hrevision, hshown⟩ := answer task hresponse
        exact ⟨hid, hrevision, write.write.onlyItem h.versions.now_mem current rfl, next,
          List.mem_cons_self, raised, hshown⟩

theorem MemberOk.committed (h : MemberOk account state) {next : SharedDb}
    (hserver : ServerOk account state.issued (next :: state.history) next) :
    MemberOk account (state.committed next) where
  server := hserver
  copies := fun listId record hlookup =>
    (h.copies listId record hlookup).mono (List.subset_cons_self next state.history)
  outbox := h.outbox
  selected := h.selected
  exchanges := fun exchange hmem =>
    (h.exchanges exchange hmem).mono (List.subset_cons_self next state.history)

theorem MemberOk.setExchange (h : MemberOk account state) (index : Nat) {exchange : Exchange}
    (hexchange : ExchangeOk state.issued state.history exchange) :
    MemberOk account (state.setExchange index exchange) where
  server := h.server
  copies := h.copies
  outbox := h.outbox
  selected := h.selected
  exchanges := by
    intro other hmem
    rcases List.mem_or_eq_of_mem_set hmem with hmem | rfl
    · exact h.exchanges other hmem
    · exact hexchange

theorem MemberOk.started (h : MemberOk account state) {call : EngineCall}
    (hexchange : ExchangeOk state.issued state.history
      { call := call, waiting := true, answer := none }) :
    MemberOk account (state.started call) where
  server := h.server
  copies := h.copies
  outbox := h.outbox
  selected := h.selected
  exchanges := by
    intro other hmem
    rcases List.mem_append.mp hmem with hmem | hmem
    · exact h.exchanges other hmem
    · rw [List.mem_singleton.mp hmem]
      exact hexchange

/-- A transaction of the engine that keeps the copies right and adds no operation. -/
theorem MemberOk.transact (h : MemberOk account state) {space : SharedSpace}
    (hcopies : CopiesOf state.history space) (houtbox : OpsAll (Issued state.issued) space) :
    MemberOk account { state with space := space } where
  server := h.server
  copies := hcopies
  outbox := houtbox
  selected := h.selected
  exchanges := h.exchanges

theorem MemberOk.edited (h : MemberOk account state) {listId opId taskId : Uuid}
    {space : SharedSpace} (hlists : space.lists = state.space.lists)
    (houtbox : OpsAll (Issued (state.issued.insert opId (listId, taskId))) state.space →
      OpsAll (Issued (state.issued.insert opId (listId, taskId))) space) :
    MemberOk account (state.edited listId opId taskId space) := by
  unfold MemberState.edited
  split
  · rename_i hfresh
    simp only [MemberState.freshOp, Bool.and_eq_true, Option.isNone_iff_eq_none,
      Bool.not_eq_true', Table.any_eq_false_iff] at hfresh
    obtain ⟨hnew, hunused⟩ := hfresh
    refine ⟨⟨h.server.versions, h.server.receipts, ?_⟩, h.copies.of_lists_eq hlists,
      houtbox (h.outbox.insert _ hnew), ?_, ?_⟩
    · intro used other item revision hissued hlookup
      have hne : used ≠ opId := by
        rintro rfl
        have := hunused (other, used) _ hlookup
        simp at this
      rw [AList.lookup_insert_ne hne] at hissued
      exact h.server.own used other item revision hissued hlookup
    · intro op hselected
      have hop := h.selected op hselected
      have hne : op.opId ≠ opId := by
        intro heq
        rw [Issued, heq, hnew] at hop
        cases hop
      rw [Issued, AList.lookup_insert_ne hne]
      exact hop
    · exact fun exchange hmem => (h.exchanges exchange hmem).insert _ hnew
  · exact h

theorem MemberOk.serve (h : MemberOk account state) (call : SharedCall) (request : SharedRequest) :
    MemberOk account (state.serve account call request) := by
  unfold MemberState.serve
  split
  · rename_i helse
    exact h.committed (h.server.serve helse)
  · exact h

theorem MemberOk.pushSelected (h : MemberOk account state) :
    MemberOk account state.pushSelected := by
  unfold MemberState.pushSelected
  split
  · exact h
  · rename_i op hselected
    have hcleared : MemberOk account { state with selected := none } :=
      ⟨h.server, h.copies, h.outbox, (fun _ hnone => nomatch hnone), h.exchanges⟩
    dsimp only
    split
    · exact hcleared
    · rename_i record hrecord
      obtain ⟨hlookup, hactive⟩ := Option.filter_eq_some_iff.mp hrecord
      simp only [Bool.and_eq_true] at hactive
      obtain ⟨shadow, hshadow⟩ := Option.isSome_iff_exists.mp hactive.2
      obtain ⟨db, hmem, hrevision, -⟩ := (h.copies op.listId record hlookup).copy shadow hshadow
      refine hcleared.started ⟨h.selected op hselected, ⟨db, hmem, hrevision⟩, ?_⟩
      intro response task hanswer
      cases hanswer

theorem MemberOk.received (h : MemberOk account state) (index : Nat) (now : Instant) :
    MemberOk account (state.received index now) := by
  unfold MemberState.received
  split
  · exact h
  · rename_i exchange hexchange
    have hok := h.exchanges exchange (List.mem_of_getElem? hexchange)
    split
    · rename_i answer hwaiting hanswer
      refine MemberOk.setExchange (h.transact ?_ (h.outbox.answered exchange.call answer now)) index hok
      unfold SharedSpace.answered
      unfold ExchangeOk at hok
      split
      · rename_i op expected response hcall
        rw [hcall] at hok
        exact h.copies.settle h.server.versions now (fun task hknown =>
          hok.2.2 response task hanswer hknown)
      · exact h.copies.pushFailed h.server.versions _ _ _ _
      · rename_i listId snapshot hcall
        rw [hcall] at hok
        exact h.copies.pulled now (hok snapshot hanswer)
      · split
        · exact h.copies.loseAccess _ _ _
        · exact h.copies
      · exact h.copies.indexed _
      · exact h.copies.putList _ (copyOf_emptyRecord _ _)
      · exact h.copies.joined _
      · exact h.copies
    · exact h

theorem MemberOk.delivered (h : MemberOk account state) {index : Nat} {now : Instant}
    {newId receiptId : Uuid}
    (hcondition : ReplayIsOwn account state (.deliver index now newId receiptId)) :
    MemberOk account (state.delivered account index
      { actor := account, now := now, newId := newId, receiptId := receiptId }) := by
  unfold MemberState.delivered
  split
  · exact h
  · rename_i exchange hexchange
    have hok := h.exchanges exchange (List.mem_of_getElem? hexchange)
    dsimp only
    split
    · exact h
    · rename_i hguard
      simp only [Bool.or_eq_true, Bool.not_eq_true', not_or, Option.not_isSome_iff_eq_none,
        Bool.not_eq_false] at hguard
      obtain ⟨hanswer, hown⟩ := hguard
      obtain ⟨call, waiting, answer⟩ := exchange
      dsimp only at hanswer hown hok ⊢
      subst hanswer
      cases call with
      | push op expected =>
          obtain ⟨hissued, hexpected, -⟩ := hok
          have hreplay := hcondition op expected waiting
          dsimp only [EngineCall.request, serveShared]
          cases hhandle : handleShared _ state.db (opRequest op expected) with
          | error error =>
              refine (h.committed (h.server.same rfl rfl rfl)).setExchange index
                ⟨hissued, ?_, fun _ _ herror => nomatch herror⟩
              obtain ⟨db, hmem, hrevision⟩ := hexpected
              exact ⟨db, List.mem_cons_of_mem _ hmem, hrevision⟩
          | ok result =>
              obtain ⟨response, next⟩ := result
              obtain ⟨hserver, hfold⟩ := h.server.push rfl hissued hexpected
                (fun receipt => hreplay receipt hexchange) hhandle
              refine (h.committed hserver).setExchange index ⟨hissued, ?_, ?_⟩
              · obtain ⟨db, hmem, hrevision⟩ := hexpected
                exact ⟨db, List.mem_cons_of_mem _ hmem, hrevision⟩
              · rintro _ task heq hknown
                cases heq
                exact hfold task hknown
      | pull listId =>
          refine (h.committed (h.server.serve hown)).setExchange index ?_
          intro snapshot hread
          dsimp only [EngineCall.request, serveShared, handleShared] at hread ⊢
          split at hread
          · rename_i response next hhandle
            obtain ⟨rfl, found, rfl, hrevision, htasks⟩ := getList_eq_ok hhandle
            cases hread
            refine ⟨state.db, List.mem_cons_of_mem _ h.server.versions.now_mem, hrevision, ?_⟩
            rw [htasks]
            exact snapshotTasks_holds state.db listId snapshot.revision
          · cases hread
      | index => exact (h.committed (h.server.serve hown)).setExchange index trivial
      | createList request => exact (h.committed (h.server.serve hown)).setExchange index trivial
      | accept invitationId opId =>
          exact (h.committed (h.server.serve hown)).setExchange index trivial

/-- Every step that meets the condition keeps the invariant. -/
theorem MemberOk.step (h : MemberOk account state) (event : MemberEvent)
    (hcondition : ReplayIsOwn account state event) :
    MemberOk account (MemberState.step account state event) := by
  cases event with
  | register userId row =>
      dsimp only [MemberState.step]
      split
      · exact h
      · exact h.committed (h.server.same rfl rfl rfl)
  | serve call request => exact h.serve call request
  | createTask listId opId taskId input now =>
      exact h.edited (lists_createTask ..) (fun hops => hops.createTask (AList.lookup_insert _) _ _)
  | updateTask listId opId taskId patch now =>
      exact h.edited (lists_updateTask ..) (fun hops => hops.updateTask (AList.lookup_insert _) _ _)
  | deleteTask listId opId taskId now =>
      exact h.edited (lists_deleteTask ..) (fun hops => hops.deleteTask (AList.lookup_insert _) _)
  | discardOp listId opId =>
      exact h.transact (h.copies.of_lists_eq (lists_discardOp ..))
        (h.outbox.discardOp (fun _ _ hop => hop) listId opId)
  | retryOp listId opId =>
      exact h.transact (h.copies.of_lists_eq (lists_retryOp ..)) (h.outbox.retryOp listId opId)
  | removeLocalCopy listId =>
      exact h.transact (h.copies.removeLocalCopy listId) (h.outbox.removeLocalCopy listId)
  | selectOp listId =>
      refine ⟨h.server, h.copies, h.outbox, ?_, h.exchanges⟩
      intro op hselected
      exact h.outbox.of_mem (List.mem_of_find?_eq_some hselected)
  | startPush => exact h.pushSelected
  | startPull listId => exact h.started (fun snapshot hread => nomatch hread)
  | startIndex => exact h.started trivial
  | startCreateList request => exact h.started trivial
  | startAccept invitationId opId => exact h.started trivial
  | deliver index now newId receiptId => exact h.delivered hcondition
  | receive index now => exact h.received index now
  | lose index =>
      dsimp only [MemberState.step, MemberState.lost]
      split
      · exact h
      · rename_i exchange hexchange
        exact h.setExchange index (h.exchanges exchange (List.mem_of_getElem? hexchange))

end Steps

theorem memberOk_init (account : Uuid) : MemberOk account .init where
  server := {
    versions := .start _
    receipts := fun _ _ _ hlookup => nomatch hlookup
    own := fun _ _ _ _ hissued => nomatch hissued }
  copies := fun _ _ hlookup => nomatch hlookup
  outbox := fun _ _ hlookup => nomatch hlookup
  selected := fun _ hselected => nomatch hselected
  exchanges := fun _ hmem => nomatch hmem

theorem memberOk_run (account : Uuid) (events : List MemberEvent)
    (halong : (memberRuns account).Along (ReplayIsOwn account) .init events) :
    MemberOk account ((memberRuns account).run .init events) :=
  (memberRuns account).invariant_along (ReplayIsOwn account) (fun state _ => MemberOk account state)
    (fun _ _ event hok hcondition => hok.step event hcondition) events .init []
    (memberOk_init account) halong

/-- In every run whose replays meet the condition, whatever the interleaving, each copy in the store is the list that the server had at the revision of the record. -/
theorem shared_copy_faithful (account : Uuid) (events : List MemberEvent)
    (halong : (memberRuns account).Along (ReplayIsOwn account) .init events)
    (listId : Uuid) (record : SharedListRecord) (shadow : SharedShadow)
    (hrecord : ((memberRuns account).run .init events).space.lists.lookup listId = some record)
    (hshadow : record.snapshot = some shadow) :
    (∃ db ∈ ((memberRuns account).run .init events).history,
        db.revisionOf listId = some record.revision) ∧
      ∀ db ∈ ((memberRuns account).run .init events).history,
        db.revisionOf listId = some record.revision →
        Holds shadow.tasks (db.liveTasks listId) := by
  have hok := memberOk_run account events halong
  obtain ⟨read, hread, hrevision, hholds⟩ := (hok.copies listId record hrecord).copy shadow hshadow
  refine ⟨⟨read, hread, hrevision⟩, ?_⟩
  intro db hmem hsame
  have hlive : read.liveTasks listId = db.liveTasks listId :=
    hok.server.versions.same read hread db hmem listId record.revision hrevision hsame
  rw [← hlive]
  exact hholds

/-! ### Lost answers -/

/-- No push is answered from a receipt that its copy is already past. -/
def ReplayIsRecent (account : Uuid) (state : MemberState) : MemberEvent → Prop
  | .deliver index _ _ _ =>
      match state.exchanges[index]? with
      | some { call := .push op expected, waiting := _, answer := none } =>
          (state.db.receipts.lookup (op.listId, op.opId)).all (fun receipt =>
            receipt.actorId != account || decide (expected < receipt.revision)) = true
      | _ => True
  | _ => True

instance (account : Uuid) (state : MemberState) (event : MemberEvent) :
    Decidable (ReplayIsRecent account state event) := by
  unfold ReplayIsRecent
  split
  · split <;> infer_instance
  · infer_instance

theorem ReplayIsRecent.isOwn {account : Uuid} {state : MemberState} {event : MemberEvent}
    (h : ReplayIsRecent account state event) : ReplayIsOwn account state event := by
  cases event with
  | deliver index now newId receiptId =>
      intro op expected waiting receipt hexchange _ _ hreceipt hle
      simp only [ReplayIsRecent, hexchange, hreceipt, Option.all_some, bne_self_eq_false,
        Bool.false_or, decide_eq_true_eq] at h
      omega
  | _ => trivial

def anna : Uuid := ⟨1⟩

def ben : Uuid := ⟨2⟩

def sharedGroceries : Uuid := ⟨10⟩

def sharedMilk : Uuid := ⟨11⟩

def sharedBread : Uuid := ⟨12⟩

def minute (minutes : Int) : Instant := ⟨minutes * 60000000000⟩

/-- Anna makes a list, opens it and adds a task; the server takes the task, and its answer is lost. -/
def addedMilk : List MemberEvent := [
  .register anna ⟨"anna@example.org", none⟩,
  .register ben ⟨"ben@example.org", none⟩,
  .startCreateList ⟨"Groceries", none, none, some ⟨100⟩⟩,
  .deliver 0 (minute 1) sharedGroceries ⟨200⟩,
  .receive 0 (minute 1),
  .startPull sharedGroceries,
  .deliver 1 (minute 2) ⟨20⟩ ⟨201⟩,
  .receive 1 (minute 2),
  .createTask sharedGroceries ⟨101⟩ sharedMilk ⟨"Milk", none, none, none⟩ (minute 3),
  .selectOp sharedGroceries,
  .startPush,
  .deliver 2 (minute 4) ⟨21⟩ ⟨202⟩,
  .lose 2]

/-- The task is pushed again from the same copy. -/
def retriedMilk : List MemberEvent := addedMilk ++ [
  .selectOp sharedGroceries,
  .startPush,
  .deliver 3 (minute 5) ⟨22⟩ ⟨203⟩,
  .receive 3 (minute 5)]

theorem shared_copy_faithful_retried : ∃ record shadow,
    ((memberRuns anna).run .init retriedMilk).space.lists.lookup sharedGroceries = some record ∧
      record.snapshot = some shadow ∧ record.revision = 2 ∧ shadow.tasks.length = 1 ∧
      Holds shadow.tasks (((memberRuns anna).run .init retriedMilk).db.liveTasks sharedGroceries) := by
  have hrecent : (memberRuns anna).Along (ReplayIsRecent anna) .init retriedMilk := by
    decide
  have hown := (memberRuns anna).along_mono (fun _ _ h => ReplayIsRecent.isOwn h) _ _ hrecent
  have hcopy : (((memberRuns anna).run .init retriedMilk).space.lists.lookup sharedGroceries).any
      (fun record => record.revision == 2 && record.snapshot.any fun shadow =>
        shadow.tasks.length == 1) = true := by
    decide
  have hrevision : ((memberRuns anna).run .init retriedMilk).db.revisionOf sharedGroceries =
      some 2 := by
    decide
  cases hrecord : ((memberRuns anna).run .init retriedMilk).space.lists.lookup sharedGroceries with
  | none =>
      rw [hrecord] at hcopy
      cases hcopy
  | some record =>
      rw [hrecord, Option.any_some, Bool.and_eq_true, beq_iff_eq] at hcopy
      obtain ⟨hraised, hshadow⟩ := hcopy
      cases hfound : record.snapshot with
      | none =>
          rw [hfound] at hshadow
          cases hshadow
      | some shadow =>
          rw [hfound, Option.any_some, beq_iff_eq] at hshadow
          have hok := memberOk_run anna retriedMilk hown
          obtain ⟨-, hfaithful⟩ := shared_copy_faithful anna retriedMilk hown sharedGroceries record
            shadow hrecord hfound
          exact ⟨record, shadow, rfl, hfound, hraised, hshadow,
            hfaithful _ hok.server.versions.now_mem (by rw [hraised, hrevision])⟩

/-- Anna's copy takes the task from a pull; Ben adds a task; then hers is pushed again. -/
def outpacedMilk : List MemberEvent := [
  .register anna ⟨"anna@example.org", none⟩,
  .register ben ⟨"ben@example.org", none⟩,
  .startCreateList ⟨"Groceries", none, none, some ⟨100⟩⟩,
  .deliver 0 (minute 1) sharedGroceries ⟨200⟩,
  .receive 0 (minute 1),
  .serve ⟨anna, minute 1, ⟨30⟩, ⟨301⟩⟩
    (.addMember sharedGroceries (some 1) ⟨"ben@example.org", "editor", none, none⟩),
  .serve ⟨ben, minute 1, ⟨31⟩, ⟨302⟩⟩ (.acceptInvitation ⟨30⟩ none),
  .startPull sharedGroceries,
  .deliver 1 (minute 2) ⟨20⟩ ⟨201⟩,
  .receive 1 (minute 2),
  .createTask sharedGroceries ⟨101⟩ sharedMilk ⟨"Milk", none, none, none⟩ (minute 3),
  .selectOp sharedGroceries,
  .startPush,
  .deliver 2 (minute 4) ⟨21⟩ ⟨202⟩,
  .lose 2,
  .startPull sharedGroceries,
  .deliver 3 (minute 5) ⟨22⟩ ⟨203⟩,
  .receive 3 (minute 5),
  .serve ⟨ben, minute 6, ⟨32⟩, ⟨303⟩⟩
    (.createTask sharedGroceries (some 4) ⟨some sharedBread, "Bread", none, none, none, none, none⟩),
  .selectOp sharedGroceries,
  .startPush,
  .deliver 4 (minute 7) ⟨23⟩ ⟨204⟩,
  .receive 4 (minute 7)]

/-- The push is answered with the revision that Ben's task made, one past the copy; it is folded, and the copy lacks his task. -/
theorem shared_copy_outpaced : ¬ ∀ account events listId record shadow,
    ((memberRuns account).run .init events).space.lists.lookup listId = some record →
    record.snapshot = some shadow →
    ∀ db ∈ ((memberRuns account).run .init events).history,
      db.revisionOf listId = some record.revision → Holds shadow.tasks (db.liveTasks listId) := by
  intro hclaim
  have hcopy : (((memberRuns anna).run .init outpacedMilk).space.lists.lookup sharedGroceries).any
      (fun record => record.revision == 5 && record.snapshot.any fun shadow =>
        shadow.tasks.all fun task => task.id != sharedBread) = true := by
    decide
  have hserver : ((memberRuns anna).run .init outpacedMilk).history.any (fun db =>
      db.revisionOf sharedGroceries == some 5 &&
        (db.liveTasks sharedGroceries sharedBread).isSome) = true := by
    decide
  cases hrecord : ((memberRuns anna).run .init outpacedMilk).space.lists.lookup sharedGroceries with
  | none =>
      rw [hrecord] at hcopy
      cases hcopy
  | some record =>
      rw [hrecord, Option.any_some, Bool.and_eq_true, beq_iff_eq] at hcopy
      obtain ⟨hraised, hshadow⟩ := hcopy
      cases hfound : record.snapshot with
      | none =>
          rw [hfound] at hshadow
          cases hshadow
      | some shadow =>
          rw [hfound, Option.any_some, List.all_eq_true] at hshadow
          obtain ⟨db, hmem, hdb⟩ := List.any_eq_true.mp hserver
          rw [Bool.and_eq_true, beq_iff_eq] at hdb
          obtain ⟨content, hlive⟩ := Option.isSome_iff_exists.mp hdb.2
          have hholds := hclaim anna outpacedMilk sharedGroceries record shadow hrecord hfound db hmem
            (by rw [hdb.1, hraised])
          obtain ⟨task, htask, hid, -⟩ := (hholds.same sharedBread content).mp hlive
          have hother := hshadow task htask
          simp [hid] at hother

end ShishiTodo
