import Mathlib.Data.List.Perm.Basic
import ShishiTodo.Recurring.Occurrences
import ShishiTodo.Server.LogTip

/-!
# One live task for each occurrence

Every step of a household keeps the marks, so as long as no completion inserts an occurrence again, no two tasks have the same one, on any device and on the server. Nothing on a device stops the second insertion: a task that is completed, reopened and completed again has two next tasks there, and the one that the server refuses stays.
-/

namespace ShishiTodo.Recurring

open Lib Native Sync

variable {env : Env} {texts : Texts} {userId : Uuid} {past : List Occurrence} {mark : String → Mark}
  {state : Household} {device : Uuid}

/-! ### Calls -/

/-- The next task of a completion takes the identifier that was drawn for it. -/
theorem completeTask_awaits {store : Store} {id newId : String} {reading : Reading} {call : Call} {next : Task}
    (h : StoreBears env texts mark store)
    (hcomplete : completeTask store id reading newId = .ok (some call)) (hnext : call.next = some next) :
    next.id = newId ∧ ∃ series, next.seriesId = some (env.uuid.render series) := by
  obtain ⟨task, hrequire, hcomplete⟩ := bind_eq_ok_iff.mp hcomplete
  split at hcomplete
  · cases hcomplete
  · obtain ⟨completionDate, -, hcomplete⟩ := bind_eq_ok_iff.mp hcomplete
    obtain ⟨found, hfound, hcomplete⟩ := bind_eq_ok_iff.mp hcomplete
    cases hcomplete
    change found = some next at hnext
    rw [hnext] at hfound
    have hrecurring : nextRecurringTask { task with status := .completed } completionDate newId
        reading.now = .ok (some next) := by
      cases hresult : nextRecurringTask { task with status := .completed } completionDate newId
          reading.now with
      | error error =>
          rw [hresult] at hfound
          cases hfound
      | ok result =>
          rw [hresult] at hfound
          cases hfound
          rfl
    obtain ⟨hid, hseries, -⟩ := nextRecurringTask_eq_some hrecurring
    refine ⟨hid, ?_⟩
    obtain ⟨_, -, hrequire⟩ := bind_eq_ok_iff.mp hrequire
    split at hrequire
    · rename_i found hlive
      cases hrequire
      obtain ⟨-, ⟨spelled, hspelled⟩, hrow⟩ := h.liveTask hlive
      cases hold : task.seriesId with
      | none =>
          refine ⟨spelled, ?_⟩
          rw [hseries, hspelled]
          exact congrArg some (congrArg (fun old => old.getD task.id) hold)
      | some text =>
          obtain ⟨series, -, hrender⟩ := Option.map_eq_some_iff.mp (hrow.series text hold)
          refine ⟨series, ?_⟩
          rw [hseries, hrender]
          exact congrArg some (congrArg (fun old => old.getD task.id) hold)
    · cases hrequire

theorem Call.write_bears {store : Store} {supply : Supply} {tx : Tx} {call : Call}
    (h : StoreBears env texts mark store) (hwrite : call.write texts supply store = .ok tx)
    (hnext : ∀ next, call.next = some next → Spelled env next.id ∧ RowBears env (mark next.id) next) :
    StoreBears env texts mark tx.store := by
  cases call with
  | commitCompletion commit =>
      obtain ⟨done, hdone, rfl⟩ := map_eq_ok_iff.mp hwrite
      exact commitCompletion_bears h hdone hnext
  | uncompleteTask id =>
      obtain ⟨patched, hpatched, rfl⟩ := map_eq_ok_iff.mp hwrite
      exact patchTask_bears h hpatched

/-! ### One step -/

theorem signIn_entities (db : Db) (auth : AuthUser) : (db.signIn auth).entities = db.entities := by
  unfold Db.signIn
  repeat' split
  all_goals rfl

/-- A new task is drawn and marked in one step. -/
theorem Holds.createTask (h : Holds env texts userId past mark state) (huuid : env.uuid.RoundTrips)
    {id : Uuid} (hid : id ∉ state.drawn) (input : NewTask) (supply : Supply) :
    ∃ later, Holds env texts userId past later ((state.draw id).commit device
      ((Native.createTask texts { supply with id := env.uuid.render id } (state.stores device)
        input).map fun created => created.2.store)) := by
  let given : Mark := ⟨none, input.dueOn⟩
  have hblank := h.marked.blank huuid hid
  have hmarked := (h.draw id).marked.assign given ⟨id, List.mem_cons_self, rfl⟩
    fun shared hshared => by cases hshared
  have hlater : Holds env texts userId past (assign mark (env.uuid.render id) given) (state.draw id) := by
    apply (h.draw id).extend (assign_extends given hblank)
    · have hnone : given.occurrence env = none := rfl
      rwa [hnone, Option.toList_none, List.append_nil] at hmarked
    · intro called hcalled next hnext
      have hwaits := h.calls called hcalled next hnext
      have hother : next.id ≠ env.uuid.render id := by
        obtain ⟨task, htask, hrender⟩ := hwaits.drawn
        intro heq
        have hparse := huuid task
        rw [hrender, heq, huuid id] at hparse
        exact hid (Option.some.inj hparse ▸ htask)
      rw [assign, Function.update_of_ne hother]
      exact hwaits.unmarked
  refine ⟨_, hlater.commit fun store hstore => ?_⟩
  obtain ⟨created, hcreate, rfl⟩ := map_eq_ok_iff.mp hstore
  have hgiven : assign mark (env.uuid.render id) given (env.uuid.render id) = given := by
    rw [assign, Function.update_self]
  exact createTask_bears (hlater.stores device) hcreate ⟨id, rfl⟩ hgiven

/-- The task that a completion inserts is marked with its occurrence, which is new. -/
theorem Holds.insertNext (h : Holds env texts userId past mark state) {index : Nat} {call : Call}
    (hcall : state.calls[index]? = some (device, call)) {supply : Supply} {tx : Tx}
    (hwrite : call.write texts supply (state.stores device) = .ok tx) {next : Task}
    (hnext : call.next = some next) (hfresh : ∀ shared, occurrence next = some shared → shared ∉ past) :
    ∃ later, Holds env texts userId (past ++ (occurrence next).toList) later
      ({ state with calls := state.calls.eraseIdx index }.withStore device tx.store) := by
  obtain ⟨hindex, hget⟩ := List.getElem?_eq_some_iff.mp hcall
  have hmem : (device, call) ∈ state.calls := List.mem_of_getElem? hcall
  have hwaits := h.calls _ hmem next hnext
  obtain ⟨series, hseries⟩ := hwaits.series
  let given : Mark := ⟨some series, next.occurrenceKey⟩
  have hgiven : given.occurrence env = occurrence next := by
    rw [occurrence, hseries]
    rfl
  have hmarked := h.marked.assign given hwaits.drawn (hgiven ▸ hfresh)
  rw [hgiven] at hmarked
  have hlater := (h.eraseCall index).extend (assign_extends given hwaits.unmarked) hmarked
    fun called hcalled waiting hwaiting => by
      have hother : waiting.id ≠ next.id := by
        have hperm := List.getElem_cons_eraseIdx_perm hindex
        have hdistinct := (hperm.filterMap fun called => called.2.next.map Task.id).nodup_iff.mpr h.distinct
        rw [hget, List.filterMap_cons_some (by rw [hnext]; rfl), List.nodup_cons] at hdistinct
        intro heq
        apply hdistinct.1
        rw [← heq]
        exact List.mem_filterMap.mpr ⟨called, hcalled, by rw [hwaiting]; rfl⟩
      rw [assign, Function.update_of_ne hother]
      exact (h.calls called (List.mem_of_mem_eraseIdx hcalled) waiting hwaiting).unmarked
  refine ⟨_, hlater.withStore (Call.write_bears (hlater.stores device) hwrite fun found hfound => ?_)⟩
  cases hnext.symm.trans hfound
  obtain ⟨task, -, hrender⟩ := hwaits.drawn
  refine ⟨⟨task, hrender⟩, ?_⟩
  rw [assign, Function.update_self]
  exact ⟨fun text htext => hseries.symm.trans htext, fun text htext => htext⟩

theorem Holds.step (huuid : env.uuid.RoundTrips) (h : Holds env texts userId past mark state)
    (event : Event) (hnodup : (past ++ householdEmit texts state event).Nodup) :
    ∃ later, Holds env texts userId (past ++ householdEmit texts state event) later
      (householdStep env texts userId state event) := by
  have hquiet : ∀ {following : Household} (later : String → Mark),
      Holds env texts userId past later following → householdEmit texts state event = [] →
      ∃ later, Holds env texts userId (past ++ householdEmit texts state event) later following := by
    intro following later hlater hnothing
    rw [hnothing, List.append_nil]
    exact ⟨later, hlater⟩
  cases event with
  | signIn device =>
      refine hquiet mark { h with log := ?_, unrepeated := ?_ } rfl
      · change ∀ row ∈ (state.db.signIn ⟨userId, device⟩).changeLog, _
        rw [(signIn_frame state.db ⟨userId, device⟩ userId).2]
        exact h.log
      · change Unrepeated (state.db.signIn ⟨userId, device⟩).entities userId
        rw [signIn_entities]
        exact h.unrepeated
  | createTask device id input supply =>
      simp only [householdStep]
      split
      · exact hquiet _ h rfl
      · rename_i hid
        obtain ⟨later, hlater⟩ := h.createTask huuid hid input supply
        exact hquiet _ hlater rfl
  | patchTask device id patch supply =>
      refine hquiet _ (h.commit fun store hstore => ?_) rfl
      obtain ⟨patched, hpatched, rfl⟩ := map_eq_ok_iff.mp hstore
      exact patchTask_bears (h.stores device) hpatched
  | deleteTask device id supply =>
      refine hquiet _ (h.commit fun store hstore => ?_) rfl
      obtain ⟨tx, hdeleted, rfl⟩ := map_eq_ok_iff.mp hstore
      exact deleteTask_bears (h.stores device) hdeleted
  | restoreTask device id supply =>
      refine hquiet _ (h.commit fun store hstore => ?_) rfl
      obtain ⟨tx, hrestored, rfl⟩ := map_eq_ok_iff.mp hstore
      exact restoreTask_bears (h.stores device) hrestored
  | completeTask device id reading newId =>
      simp only [householdStep]
      split
      · exact hquiet _ h rfl
      · rename_i hdrawn
        refine hquiet _ ((h.draw newId).goOn fun call hcall next hnext => ?_) rfl
        obtain ⟨hid, hseries⟩ := completeTask_awaits (h.stores device) hcall hnext
        refine ⟨⟨?_, ⟨newId, List.mem_cons_self, hid.symm⟩, hseries⟩, ?_⟩
        · rw [hid]
          exact h.marked.blank huuid hdrawn
        · intro called hcalled waiting hwaiting heq
          obtain ⟨task, htask, hrender⟩ := (h.calls called hcalled waiting hwaiting).drawn
          have hparse := huuid task
          rw [hrender, heq, hid, huuid newId] at hparse
          exact hdrawn (Option.some.inj hparse ▸ htask)
  | uncompleteTask device id =>
      refine hquiet _ (h.goOn fun call hcall next hnext => ?_) rfl
      obtain ⟨task, -, hopen⟩ := bind_eq_ok_iff.mp hcall
      split at hopen <;> cases hopen
      cases hnext
  | write index supply =>
      cases hcall : state.calls[index]? with
      | none =>
          simp only [householdStep, hcall]
          exact hquiet _ h (by simp only [householdEmit, hcall])
      | some called =>
          obtain ⟨device, call⟩ := called
          simp only [householdStep, hcall]
          cases hwrite : call.write texts supply (state.stores device) with
          | error error =>
              exact hquiet _ (h.eraseCall index) (by simp only [householdEmit, hcall, hwrite])
          | ok tx =>
              cases hnext : call.next with
              | none =>
                  refine hquiet mark ((h.eraseCall index).withStore
                    (Call.write_bears (h.stores device) hwrite fun next hsome => ?_)) ?_
                  · rw [hnext] at hsome
                    cases hsome
                  · simp only [householdEmit, hcall, hwrite, hnext]
                    rfl
              | some next =>
                  have hemit : householdEmit texts state (.write index supply) =
                      (occurrence next).toList := by
                    simp only [householdEmit, hcall, hwrite, hnext]
                    rfl
                  rw [hemit] at hnodup ⊢
                  apply h.insertNext hcall hwrite hnext
                  intro shared hshared hpast
                  rw [hshared, List.nodup_append] at hnodup
                  exact hnodup.2.2 shared hpast shared (List.mem_singleton_self shared) rfl
  | send device limit =>
      refine hquiet mark { h with requests := ?_ } rfl
      intro sent hsent op hop
      rcases List.mem_append.mp hsent with hold | hnew
      · exact h.requests sent hold op hop
      · cases List.mem_singleton.mp hnew
        exact syncRequest_bears (h.stores device) limit op hop
  | serve index clock =>
      cases hsent : state.requests[index]? with
      | none =>
          simp only [householdStep, hsent]
          exact hquiet _ h rfl
      | some sent =>
          simp only [householdStep, hsent]
          exact hquiet _ (h.serve huuid (h.requests sent (List.mem_of_getElem? hsent)) clock) rfl
  | receive index sessionId now =>
      cases hanswer : state.answers[index]? with
      | none =>
          simp only [householdStep, hanswer]
          exact hquiet _ h rfl
      | some answer =>
          simp only [householdStep, hanswer]
          refine hquiet _ (h.commit fun store hstore => ?_) rfl
          apply applyServerResult_bears (h.stores answer.1) _ hstore
          intro change hchange
          obtain ⟨sent, hsent, rfl⟩ := List.mem_map.mp hchange
          exact serverChange_bears (h.answers answer (List.mem_of_getElem? hanswer) sent hsent)
  | clearRejected device now =>
      exact hquiet _ (h.commit fun store hstore => syncClearRejected_bears (h.stores device) hstore) rfl

/-! ### Whole runs -/

theorem holds_start : Holds env texts userId [] (fun _ => .blank) (.start env userId) where
  marked := marked_start
  stores device := storeBears_open (env.uuid.render device) true
  log row hrow := by
    change row ∈ (Db.empty.signUp userId).changeLog at hrow
    rw [(signUp_frame Db.empty userId userId).2] at hrow
    cases hrow
  requests sent hsent := by cases hsent
  answers answer hanswer := by cases hanswer
  calls called hcalled := by cases hcalled
  distinct := List.nodup_nil
  unrepeated id other row twin hrow := by
    change (Db.empty.signUp userId).entities.tasks.lookup id = some row at hrow
    cases hrow

theorem holds_run (huuid : env.uuid.RoundTrips) (events : List Event)
    (hnodup : ((household env texts userId).trace (.start env userId) events).Nodup) :
    ∃ mark, Holds env texts userId ((household env texts userId).trace (.start env userId) events) mark
      ((household env texts userId).run (.start env userId) events) := by
  have hinvariant := (household env texts userId).invariant
    (fun state past => past.Nodup → ∃ mark, Holds env texts userId past mark state)
    (fun state past event hpast hlonger => by
      obtain ⟨mark, hmark⟩ := hpast (List.nodup_append.mp hlonger).1
      exact hmark.step huuid event hlonger)
    (fun _ => ⟨_, holds_start⟩) events
  exact hinvariant hnodup

theorem Holds.oneEach (h : Holds env texts userId past mark state) : state.OneEach userId where
  devices device id other task twin htask htwin _ _ shared hshared htwinShared :=
    h.marked.apart id other shared
      (((h.stores device).tasks id task htask).2.occurrence hshared)
      (((h.stores device).tasks other twin htwin).2.occurrence htwinShared)
  server := h.unrepeated.serverOneEach

/-- What a call of the store draws, with identifiers counted from a number. -/
def drawnFrom (first : Nat) : Supply where
  now := "2026-10-21T05:00:00.000Z"
  id := ""
  planId := Codecs.uuid.render ⟨BitVec.ofNat 128 first⟩
  opId seq := Codecs.uuid.render ⟨BitVec.ofNat 128 (first + seq.toNat)⟩

def onThatDay : Reading where
  now := "2026-10-21T05:00:00.000Z"
  timeZone := "UTC"
  today := some "2026-10-21"

def waterThePlants : NewTask where
  title := "Water the plants"
  listId := none
  note := none
  tags := []
  important := none
  dueOn := some "2026-10-21"
  remindAt := none
  remindTimezone := none
  recurrence := some (.obj [("frequency", .str "daily")])
  rank := none
  planDate := none

/-- A daily task is made and completed. -/
def completedOnce : List Event :=
  [.signIn ⟨2⟩,
    .createTask ⟨2⟩ ⟨10⟩ waterThePlants (drawnFrom 1000),
    .completeTask ⟨2⟩ (Codecs.uuid.render ⟨10⟩) onThatDay ⟨11⟩,
    .write 0 (drawnFrom 2000)]

/-- Then it is reopened and completed again, and synced. -/
def completedTwice : List Event :=
  completedOnce ++
    [.uncompleteTask ⟨2⟩ (Codecs.uuid.render ⟨10⟩),
      .write 0 (drawnFrom 3000),
      .completeTask ⟨2⟩ (Codecs.uuid.render ⟨10⟩) onThatDay ⟨12⟩,
      .write 0 (drawnFrom 4000),
      .send ⟨2⟩ 100,
      .serve 0 ⟨⟨1000⟩, ⟨2000⟩⟩,
      .receive 0 none "2026-10-21T06:00:00.000Z",
      .clearRejected ⟨2⟩ "2026-10-21T06:00:00.000Z"]

end ShishiTodo.Recurring
