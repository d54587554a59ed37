import ShishiTodo.Navigation.Navigator

/-!
# What a navigation may do

The record of a run is read entry by entry: a call resolves true only when the view shows its task and nothing came between since it began, only the newest call commits, once, and a selection is put back only while it is the one that the call committed. One attempt at most is unsettled.

The navigator knows the account and the selection by their values only. It takes an account that was left and is there again for one that never changed, and a selection of the same task by somebody else for its own.
-/

namespace ShishiTodo.Navigation

open Lib

/-! ### Reading the record -/

/-- The task on screen. -/
def lastShown : List Entry → Option String
  | [] => none
  | .rendered taskId :: _ => taskId
  | _ :: earlier => lastShown earlier

/-- The call that made the selection, if a call did. -/
def lastSelector : List Entry → Option Nat
  | [] => none
  | .committed call :: _ => some call
  | .restored _ :: _ => none
  | .selected :: _ => none
  | _ :: earlier => lastSelector earlier

/-- The newest call and its task. -/
def newest : List Entry → Option (Nat × String)
  | [] => none
  | .begun call taskId :: _ => some (call, taskId)
  | _ :: earlier => newest earlier

/-- Since the call began no other began, and nothing of the kind happened. -/
def without (kind : Entry → Bool) (call : Nat) : List Entry → Bool
  | [] => false
  | .begun other _ :: _ => other = call
  | entry :: earlier => !kind entry && without kind call earlier

/-- What ends a call. -/
def ends (call : Nat) : Entry → Bool
  | .aborted other => other = call
  | .invalidated => true
  | .disposed => true
  | _ => false

def changesAccount : Entry → Bool
  | .accountChanged => true
  | _ => false

def Unsettled (call : Nat) (history : List Entry) : Prop :=
  (∃ taskId, .begun call taskId ∈ history) ∧ ∀ opened, .resolved call opened ∉ history

/-- What may happen after what happened before. -/
def Allowed (earlier : List Entry) : Entry → Prop
  | .resolved call true =>
      (∃ taskId, newest earlier = some (call, taskId) ∧ lastShown earlier = some taskId) ∧
        without (fun entry => ends call entry || changesAccount entry) call earlier = true
  | .committed call =>
      (∃ taskId, newest earlier = some (call, taskId)) ∧ (∀ opened, .resolved call opened ∉ earlier) ∧
        .committed call ∉ earlier
  | .restored call => lastSelector earlier = some call
  | _ => True

/-- Everything was allowed when it happened, and never were two calls unsettled. -/
def Transactional : List Entry → Prop
  | [] => True
  | entry :: earlier =>
      Allowed earlier entry ∧
        (∀ call other, Unsettled call (entry :: earlier) → Unsettled other (entry :: earlier) → call = other) ∧
        Transactional earlier

/-! ### The condition -/

section

variable {Task : Type}

/-- If the selection is the task that the attempt committed, the attempt made it. -/
def SelectionKept (s : State Task) (transaction : Transaction Task) : Prop :=
  transaction.committed = true → s.selectedId = some transaction.taskId →
    lastSelector s.history = some transaction.generation

/-- If the account is the one that the attempt began with, it has been all along. -/
def AccountKept (s : State Task) (transaction : Transaction Task) : Prop :=
  s.accountId = transaction.accountId →
    without changesAccount transaction.generation s.history = true

/-- A report does not confirm an attempt whose account was left in between, and does not roll one back after another's selection of its task. -/
def CarefulReport (s : State Task) : Report → Prop
  | .mk taskId generation _ => ∀ transaction ∈ s.active, s.accountId = transaction.accountId →
      (taskId = some transaction.taskId → transaction.generation ≤ generation → AccountKept s transaction) ∧
        (taskId ≠ some transaction.taskId → SelectionKept s transaction)

/-- The step neither confirms, or commits, an attempt whose account was left in between, nor rolls one back after somebody else's selection of its task. -/
def Careful (s : State Task) : Event Task → Prop
  | .navigate _ aborted _ => s.disposed = false → aborted = false →
      ∀ transaction ∈ s.active, SelectionKept s transaction
  | .loaded call (.done (some _)) _ _ => ∀ transaction ∈ s.active, transaction.generation = call →
      s.selectedId = transaction.previousId ∨ s.selectedId = some transaction.taskId →
      AccountKept s transaction
  | .abort call _ => ∀ transaction ∈ s.active, transaction.generation = call → SelectionKept s transaction
  | .report report => CarefulReport s report
  | _ => True

instance (s : State Task) (transaction : Transaction Task) : Decidable (SelectionKept s transaction) :=
  inferInstanceAs (Decidable (_ → _ → _))

instance (s : State Task) (transaction : Transaction Task) : Decidable (AccountKept s transaction) :=
  inferInstanceAs (Decidable (_ → _))

instance decidableCarefulReport (s : State Task) :
    (report : Report) → Decidable (CarefulReport s report)
  | .mk taskId generation _ => inferInstanceAs (Decidable (∀ transaction ∈ s.active,
      s.accountId = transaction.accountId →
      (taskId = some transaction.taskId → transaction.generation ≤ generation → AccountKept s transaction) ∧
        (taskId ≠ some transaction.taskId → SelectionKept s transaction)))

instance decidableCareful (s : State Task) : (event : Event Task) → Decidable (Careful s event)
  | .navigate _ aborted _ => inferInstanceAs (Decidable (s.disposed = false → aborted = false →
      ∀ transaction ∈ s.active, SelectionKept s transaction))
  | .loaded call (.done (some _)) _ _ => inferInstanceAs (Decidable (∀ transaction ∈ s.active,
      transaction.generation = call →
      s.selectedId = transaction.previousId ∨ s.selectedId = some transaction.taskId →
      AccountKept s transaction))
  | .loaded _ (.done none) _ _ => .isTrue trivial
  | .loaded _ .failed _ _ => .isTrue trivial
  | .abort call _ => inferInstanceAs (Decidable (∀ transaction ∈ s.active,
      transaction.generation = call → SelectionKept s transaction))
  | .report report => decidableCarefulReport s report
  | .select _ => .isTrue trivial
  | .details _ => .isTrue trivial
  | .switchAccount _ => .isTrue trivial
  | .invalidateAll => .isTrue trivial
  | .dispose => .isTrue trivial

/-! ### Entries -/

/-- A call begins or resolves. -/
def counts : Entry → Bool
  | .begun _ _ => true
  | .resolved _ _ => true
  | _ => false

def shows : Entry → Bool
  | .rendered _ => true
  | _ => false

/-- The call that begins, commits, puts back or resolves. -/
def Entry.call : Entry → Nat
  | .begun call _ => call
  | .committed call => call
  | .restored call => call
  | .resolved call _ => call
  | _ => 0

variable {history : List Entry} {entry : Entry} {call : Nat}

/-- Which calls are unsettled changes only when one begins or resolves. -/
theorem unsettled_cons (h : counts entry = false) :
    Unsettled call (entry :: history) ↔ Unsettled call history := by
  have hbegun : ∀ taskId, Entry.begun call taskId ≠ entry := by
    rintro taskId rfl
    cases h
  have hresolved : ∀ opened, Entry.resolved call opened ≠ entry := by
    rintro opened rfl
    cases h
  simp only [Unsettled, List.mem_cons, hbegun, hresolved, false_or]

theorem unsettled_begun {began : Nat} {taskId : String} (h : Unsettled call (.begun began taskId :: history)) :
    call = began ∨ Unsettled call history := by
  obtain ⟨⟨other, hmem⟩, hnone⟩ := h
  rcases List.mem_cons.mp hmem with hsame | hmem
  · exact .inl (Entry.begun.inj hsame).1
  · exact .inr ⟨⟨other, hmem⟩, fun opened h => hnone opened (List.mem_cons_of_mem _ h)⟩

theorem unsettled_resolved {settled : Nat} {opened : Bool}
    (h : Unsettled call (.resolved settled opened :: history)) : call ≠ settled ∧ Unsettled call history := by
  obtain ⟨⟨taskId, hmem⟩, hnone⟩ := h
  refine ⟨?_, ⟨taskId, (List.mem_cons.mp hmem).resolve_left nofun⟩,
    fun opened h => hnone opened (List.mem_cons_of_mem _ h)⟩
  rintro rfl
  exact hnone opened List.mem_cons_self

/-- The entry kinds that end a call and those that change the account are looked for apart. -/
theorem without_or (kind other : Entry → Bool) :
    without (fun entry => kind entry || other entry) call history = true ↔
      without kind call history = true ∧ without other call history = true := by
  induction history with
  | nil => simp [without]
  | cons entry earlier ih =>
      cases entry with
      | begun other taskId => simp [without]
      | _ =>
          simp only [without, ih, Bool.not_or, Bool.and_eq_true]
          exact and_and_and_comm

theorem lastShown_cons (h : shows entry = false) : lastShown (entry :: history) = lastShown history := by
  cases entry with
  | rendered taskId => cases h
  | _ => rfl

theorem newest_cons (h : counts entry = false) : newest (entry :: history) = newest history := by
  cases entry with
  | begun other taskId => cases h
  | _ => rfl

theorem without_cons (h : counts entry = false) (kind : Entry → Bool) :
    without kind call (entry :: history) = (!kind entry && without kind call history) := by
  cases entry with
  | begun other taskId => cases h
  | _ => rfl

theorem begun_of_newest {taskId : String} (h : newest history = some (call, taskId)) :
    .begun call taskId ∈ history := by
  induction history with
  | nil => cases h
  | cons entry earlier ih =>
      cases entry with
      | begun other task =>
          cases h
          exact List.mem_cons_self
      | _ => exact List.mem_cons_of_mem _ (ih h)

theorem Transactional.unique (h : Transactional history) {other : Nat} (hcall : Unsettled call history)
    (hother : Unsettled other history) : call = other := by
  cases history with
  | nil => exact absurd hcall.1.choose_spec List.not_mem_nil
  | cons last earlier => exact h.2.1 call other hcall hother

theorem Transactional.cons (h : Transactional history) (hallowed : Allowed history entry)
    (hcounts : counts entry = false) : Transactional (entry :: history) := by
  refine ⟨hallowed, fun first second hfirst hsecond => ?_, h⟩
  exact h.unique ((unsettled_cons hcounts).mp hfirst) ((unsettled_cons hcounts).mp hsecond)

/-! ### The invariant -/

/-- The record is in order, and agrees with the state. -/
structure Recorded (s : State Task) : Prop where
  transactional : Transactional s.history
  shown : lastShown s.history = s.shown
  calls : ∀ entry ∈ s.history, entry.call ≤ s.generation

/-- At most this call is unsettled. -/
def OnlyUnsettled (s : State Task) (call : Nat) : Prop := ∀ other, Unsettled other s.history → other = call

/-- The attempt is the newest, nothing ended it, and it commits only after its load. -/
structure Owns (s : State Task) (transaction : Transaction Task) : Prop where
  enabled : s.disposed = false
  newest : newest s.history = some (transaction.generation, transaction.taskId)
  goesOn : without (ends transaction.generation) transaction.generation s.history = true
  only : OnlyUnsettled s transaction.generation
  unresolved : ∀ opened, .resolved transaction.generation opened ∉ s.history
  loading : transaction.loading = true → .committed transaction.generation ∉ s.history

/-- No attempt is active and no promise open. -/
structure Idle (s : State Task) : Prop where
  recorded : Recorded s
  none : s.active = []
  settled : ∀ call, ¬ Unsettled call s.history

/-- One attempt is active. -/
structure Pending (s : State Task) (transaction : Transaction Task) : Prop where
  recorded : Recorded s
  one : s.active = [transaction]
  owns : Owns s transaction

/-- An attempt was settled and its promise was not: the view may be reporting. -/
structure Settling (s : State Task) (call : Nat) : Prop where
  recorded : Recorded s
  none : s.active = []
  only : OnlyUnsettled s call
  known : call ≤ s.generation

def Ordered (s : State Task) : Prop := Idle s ∨ ∃ transaction, Pending s transaction

variable {s : State Task} {transaction : Transaction Task} {inside : State Task → State Task}

/-! ### The record grows -/

theorem Recorded.log (h : Recorded s) (hallowed : Transactional (entry :: s.history))
    (hshown : shows entry = false) (hcall : entry.call ≤ s.generation) :
    Recorded (s.log entry) where
  transactional := hallowed
  shown := (lastShown_cons hshown).trans h.shown
  calls := by
    intro other hmem
    rcases List.mem_cons.mp hmem with rfl | hmem
    · exact hcall
    · exact h.calls other hmem

theorem Recorded.render (h : Recorded s) (taskId : Option String) : Recorded (s.render taskId) where
  transactional := h.transactional.cons trivial rfl
  shown := rfl
  calls := by
    intro other hmem
    rcases List.mem_cons.mp hmem with rfl | hmem
    · exact Nat.zero_le _
    · exact h.calls other hmem

theorem Settling.render (h : Settling s call) (taskId : Option String) : Settling (s.render taskId) call where
  recorded := h.recorded.render taskId
  none := h.none
  only other hother := h.only other ((unsettled_cons rfl).mp hother)
  known := h.known

/-- Without an active attempt a report only changes what is shown. -/
theorem report_idle (hnone : s.active = []) (taskId : Option String) (generation : Nat)
    (rendered : List Report) : report (.mk taskId generation rendered) s = s.render taskId := by
  have hnone' : (s.render taskId).active = [] := hnone
  rw [report, listener, hnone', List.foldl_nil, ite_self]

theorem Settling.reports (h : Settling s call) (list : List Report) :
    Settling (reports list s) call := by
  induction list generalizing s with
  | nil =>
      rw [Navigation.reports]
      exact h
  | cons first rest ih =>
      obtain ⟨taskId, generation, rendered⟩ := first
      rw [Navigation.reports, report_idle h.none]
      exact ih (h.render taskId)

theorem Settling.restore (h : Settling s call) (hsame : transaction.generation = call)
    (hselector : lastSelector s.history = some call) : Settling (s.restoreSelection transaction) call where
  recorded := by
    have hbase : Recorded { s with
        selectedId := transaction.previousId, selectedTask := transaction.previousTask } :=
      ⟨h.recorded.transactional, h.recorded.shown, h.recorded.calls⟩
    have hallowed : Allowed s.history (.restored transaction.generation) := by
      rw [hsame]
      exact hselector
    exact hbase.log (h.recorded.transactional.cons hallowed rfl) rfl (by rw [Entry.call, hsame]; exact h.known)
  none := h.none
  only other hother := h.only other ((unsettled_cons rfl).mp hother)
  known := h.known

theorem Settling.resolve (h : Settling s call) {opened : Bool}
    (hallowed : Allowed s.history (.resolved call opened)) : Idle (s.log (.resolved call opened)) := by
  have hnone : ∀ other, ¬ Unsettled other (.resolved call opened :: s.history) := by
    intro other hother
    obtain ⟨hne, hunsettled⟩ := unsettled_resolved hother
    exact hne (h.only other hunsettled)
  refine ⟨?_, h.none, hnone⟩
  exact h.recorded.log ⟨hallowed, fun first _ hfirst => absurd hfirst (hnone first), h.recorded.transactional⟩
    rfl h.known

/-! ### Settling -/

theorem find_pending (hone : s.active = [transaction]) : s.find transaction.generation = some transaction := by
  rw [State.find, hone, List.find?_singleton, if_pos (decide_eq_true rfl)]

theorem settle_none {generation : Nat} {opened rollback : Bool} (h : s.find generation = none) :
    settle inside generation opened rollback s = s := by
  rw [settle, h]

theorem settle_pending (hone : s.active = [transaction]) {opened rollback : Bool} :
    settle inside transaction.generation opened rollback s =
      (if rollback ∧ transaction.committed ∧ s.selectedId = some transaction.taskId then
        inside ({ s with active := [] }.restoreSelection transaction)
      else { s with active := [] }).log (.resolved transaction.generation opened) := by
  have hwithout : s.without transaction.generation = { s with active := [] } := by
    rw [State.without, hone]
    simp
  rw [settle, find_pending hone]
  simp only [hwithout]

theorem Pending.known (h : Pending s transaction) : transaction.generation ≤ s.generation :=
  h.recorded.calls _ (begun_of_newest h.owns.newest)

theorem Pending.settling (h : Pending s transaction) :
    Settling { s with active := [] } transaction.generation :=
  ⟨⟨h.recorded.transactional, h.recorded.shown, h.recorded.calls⟩, rfl, h.owns.only, h.known⟩

/-- An attempt that is given up is rolled back only over its own selection. -/
theorem Settling.settle_false (hone : s.active = [transaction])
    (h : Settling { s with active := [] } transaction.generation) {rollback : Bool}
    (hinside : ∀ s, Settling s transaction.generation → Settling (inside s) transaction.generation)
    (hkept : rollback = true → SelectionKept s transaction) :
    Idle (settle inside transaction.generation false rollback s) := by
  rw [settle_pending hone]
  split
  · rename_i hback
    obtain ⟨hrollback, hcommitted, hselected⟩ := hback
    have hselector := hkept hrollback hcommitted hselected
    exact (hinside _ (h.restore rfl hselector)).resolve trivial
  · exact h.resolve trivial

theorem Pending.settle_false (h : Pending s transaction) {rollback : Bool}
    (hinside : ∀ s, Settling s transaction.generation → Settling (inside s) transaction.generation)
    (hkept : rollback = true → SelectionKept s transaction) :
    Idle (settle inside transaction.generation false rollback s) :=
  Settling.settle_false h.one h.settling hinside hkept

theorem Pending.settle_true (h : Pending s transaction) (hshown : s.shown = some transaction.taskId)
    (haccount : without changesAccount transaction.generation s.history = true) :
    Idle (settle inside transaction.generation true false s) := by
  rw [settle_pending h.one, if_neg (by simp)]
  refine h.settling.resolve ⟨⟨transaction.taskId, h.owns.newest, ?_⟩, ?_⟩
  · exact h.recorded.shown.trans hshown
  · exact (without_or _ _).mpr ⟨h.owns.goesOn, haccount⟩

/-! ### Reports -/

theorem Idle.log (h : Idle s) (hallowed : Allowed s.history entry) (hcounts : counts entry = false)
    (hshown : shows entry = false) (hcall : entry.call ≤ s.generation) : Idle (s.log entry) where
  recorded := h.recorded.log (h.recorded.transactional.cons hallowed hcounts) hshown hcall
  none := h.none
  settled other hother := h.settled other ((unsettled_cons hcounts).mp hother)

theorem Idle.render (h : Idle s) (taskId : Option String) : Idle (s.render taskId) where
  recorded := h.recorded.render taskId
  none := h.none
  settled other hother := h.settled other ((unsettled_cons rfl).mp hother)

theorem Idle.reports (h : Idle s) (list : List Report) : Idle (reports list s) := by
  induction list generalizing s with
  | nil =>
      rw [Navigation.reports]
      exact h
  | cons first rest ih =>
      obtain ⟨taskId, generation, rendered⟩ := first
      rw [Navigation.reports, report_idle h.none]
      exact ih (h.render taskId)

theorem Owns.grown (h : Owns s transaction) {s' : State Task} (hhistory : s'.history = entry :: s.history)
    (henabled : s'.disposed = s.disposed) (hcounts : counts entry = false)
    (hends : ends transaction.generation entry = false)
    (hcommits : transaction.loading = true → entry ≠ .committed transaction.generation) :
    Owns s' transaction := by
  obtain ⟨enabled, newest, goesOn, only, unresolved, loading⟩ := h
  refine ⟨henabled.trans enabled, ?_, ?_, ?_, ?_, ?_⟩
  · rw [hhistory, newest_cons hcounts]
    exact newest
  · rw [hhistory, without_cons hcounts, hends]
    exact goesOn
  · intro other hother
    rw [hhistory] at hother
    exact only other ((unsettled_cons hcounts).mp hother)
  · rintro opened hmem
    rw [hhistory] at hmem
    rcases List.mem_cons.mp hmem with rfl | hmem
    · cases hcounts
    · exact unresolved opened hmem
  · intro hloading hmem
    rw [hhistory] at hmem
    rcases List.mem_cons.mp hmem with hsame | hmem
    · exact hcommits hloading hsame.symm
    · exact loading hloading hmem

theorem Pending.log (h : Pending s transaction) (hallowed : Allowed s.history entry)
    (hcounts : counts entry = false) (hshown : shows entry = false) (hcall : entry.call ≤ s.generation)
    (hends : ends transaction.generation entry = false)
    (hcommits : transaction.loading = true → entry ≠ .committed transaction.generation) :
    Pending (s.log entry) transaction where
  recorded := h.recorded.log (h.recorded.transactional.cons hallowed hcounts) hshown hcall
  one := h.one
  owns := h.owns.grown rfl rfl hcounts hends hcommits

theorem Pending.render (h : Pending s transaction) (taskId : Option String) :
    Pending (s.render taskId) transaction where
  recorded := h.recorded.render taskId
  one := h.one
  owns := h.owns.grown rfl rfl rfl rfl nofun

/-- A report leaves the attempt as it is, or settles it. -/
theorem Pending.report (h : Pending s transaction) {taskId : Option String} {generation : Nat}
    {rendered : List Report} (hcareful : CarefulReport s (.mk taskId generation rendered)) :
    report (.mk taskId generation rendered) s = s.render taskId ∨
      Idle (report (.mk taskId generation rendered) s) := by
  have hmem : transaction ∈ s.active := by
    rw [h.one]
    exact List.mem_singleton.mpr rfl
  have hcareful := hcareful transaction hmem
  have hrender := h.render taskId
  have henabled : ¬ (s.render taskId).disposed = true := by
    rw [hrender.owns.enabled]
    exact Bool.false_ne_true
  rw [Navigation.report, listener, if_neg henabled, hrender.one, List.foldl_cons, List.foldl_nil, confirm]
  have hinside : ∀ s : State Task, Settling s transaction.generation →
      Settling (Navigation.reports rendered s) transaction.generation := fun s hs => hs.reports rendered
  split
  · exact .inr (hrender.settle_false hinside nofun)
  · rename_i haccount
    obtain ⟨hconfirm, hback⟩ := hcareful (not_not.mp haccount)
    split
    · rename_i hshown
      split
      · rename_i hgeneration
        have hkept := hconfirm hshown hgeneration (not_not.mp haccount)
        exact .inr (hrender.settle_true hshown hkept)
      · exact .inl rfl
    · rename_i hother
      exact .inr (hrender.settle_false hinside fun _ => hback hother)

theorem Ordered.report (h : Ordered s) {rendered : Report} (hcareful : CarefulReport s rendered) :
    Ordered (report rendered s) := by
  obtain ⟨taskId, generation, inside⟩ := rendered
  rcases h with hidle | ⟨transaction, hpending⟩
  · rw [report_idle hidle.none]
    exact .inl (hidle.render taskId)
  · rcases hpending.report hcareful with hsame | hidle
    · rw [hsame]
      exact .inr ⟨transaction, hpending.render taskId⟩
    · exact .inl hidle

/-- The attempt's account and selection are its own: nothing that the view reports can be wrong. -/
structure Steady (s : State Task) (transaction : Transaction Task) : Prop where
  pending : Pending s transaction
  account : without changesAccount transaction.generation s.history = true
  selection : SelectionKept s transaction

theorem Steady.reports (h : Steady s transaction) (list : List Report) :
    Idle (reports list s) ∨ Steady (reports list s) transaction := by
  induction list generalizing s with
  | nil =>
      rw [Navigation.reports]
      exact .inr h
  | cons first rest ih =>
      obtain ⟨taskId, generation, rendered⟩ := first
      have hcareful : CarefulReport s (.mk taskId generation rendered) := by
        intro other hother _
        rw [h.pending.one, List.mem_singleton] at hother
        rw [hother]
        exact ⟨fun _ _ _ => h.account, fun _ => h.selection⟩
      rw [Navigation.reports]
      rcases h.pending.report hcareful with hsame | hidle
      · rw [hsame]
        exact ih ⟨h.pending.render taskId, h.account, h.selection⟩
      · exact .inl (hidle.reports rest)

/-! ### Loads -/

theorem modify_pending (hone : s.active = [transaction]) (change : Transaction Task → Transaction Task) :
    s.modify transaction.generation change = { s with active := [change transaction] } := by
  rw [State.modify, hone]
  simp

theorem Pending.modify (h : Pending s transaction) (change : Transaction Task → Transaction Task)
    (hgeneration : (change transaction).generation = transaction.generation)
    (htask : (change transaction).taskId = transaction.taskId)
    (hloading : (change transaction).loading = true → .committed transaction.generation ∉ s.history) :
    Pending (s.modify transaction.generation change) (change transaction) := by
  rw [modify_pending h.one]
  obtain ⟨⟨transactional, shown, calls⟩, -, enabled, newest, goesOn, only, unresolved, -⟩ := h
  refine ⟨⟨transactional, shown, calls⟩, rfl, enabled, ?_, ?_, ?_, ?_, ?_⟩
  · rw [hgeneration, htask]
    exact newest
  · rw [hgeneration]
    exact goesOn
  · rw [hgeneration]
    exact only
  · rw [hgeneration]
    exact unresolved
  · rw [hgeneration]
    exact hloading

theorem Idle.modify (h : Idle s) (generation : Nat) (change : Transaction Task → Transaction Task) :
    Idle (s.modify generation change) := by
  have hsame : s.modify generation change = { s with active := [] } := by
    rw [State.modify, h.none]
    rfl
  rw [hsame]
  exact ⟨⟨h.recorded.transactional, h.recorded.shown, h.recorded.calls⟩, rfl, h.settled⟩

theorem find_idle (hnone : s.active = []) (generation : Nat) : s.find generation = none := by
  rw [State.find, hnone]
  rfl

theorem settling_id (s : State Task) (h : Settling s call) : Settling (id s) call := h

/-- What the commit leaves before the view reports. -/
theorem Pending.commitSelection (h : Pending s transaction) (hloading : transaction.loading = false)
    (hfresh : .committed transaction.generation ∉ s.history)
    (haccount : without changesAccount transaction.generation s.history = true) (task : Task) :
    Steady (s.commitSelection task transaction.taskId transaction.generation) transaction := by
  have hselected : Pending { s with selectedId := some transaction.taskId, selectedTask := some task }
      transaction :=
    ⟨⟨h.recorded.transactional, h.recorded.shown, h.recorded.calls⟩, h.one,
      ⟨h.owns.enabled, h.owns.newest, h.owns.goesOn, h.owns.only, h.owns.unresolved, h.owns.loading⟩⟩
  refine ⟨hselected.log ?_ rfl rfl h.known rfl ?_, haccount, fun _ _ => rfl⟩
  · exact ⟨⟨transaction.taskId, h.owns.newest⟩, h.owns.unresolved, hfresh⟩
  · intro hloads
    rw [hloading] at hloads
    cases hloads

theorem Pending.commit (h : Pending s transaction) (hloading : transaction.loading = false)
    (hfresh : .committed transaction.generation ∉ s.history)
    (haccount : without changesAccount transaction.generation s.history = true)
    {found : Transaction Task} (hfound : found.generation = transaction.generation)
    (htask : found.taskId = transaction.taskId) (task : Task) (inside : List Report) (throws : Bool) :
    Ordered (commit found task inside throws s) := by
  have hcommitted := h.modify (fun transaction => { transaction with committed := true }) rfl rfl
    (fun hloads => absurd hloads (by rw [hloading]; exact Bool.false_ne_true))
  have hsteady := hcommitted.commitSelection hloading hfresh haccount task
  unfold Navigation.commit
  rw [hfound, htask]
  simp only
  rcases hsteady.reports inside with hidle | hsteady
  · generalize Navigation.reports inside _ = after at *
    split
    · rw [settle_none (find_idle (hidle.modify _ _).none _)]
      exact .inl (hidle.modify _ _)
    · rw [find_idle hidle.none]
      exact .inl hidle
  · generalize Navigation.reports inside _ = after at *
    have hpending := hsteady.pending
    split
    · have hthrown := hpending.modify (fun transaction => { transaction with committed := false })
        rfl rfl (fun hloads => absurd hloads (by rw [hloading]; exact Bool.false_ne_true))
      exact .inl (hthrown.settle_false settling_id nofun)
    · have hfind := find_pending hpending.one
      split
      · exact .inr ⟨_, hpending⟩
      · split
        · rename_i hshown
          exact .inl (hpending.settle_true (of_decide_eq_true hshown.2) hsteady.account)
        · exact .inr ⟨_, hpending⟩

theorem Ordered.advance (h : Ordered s) (generation : Nat) (loaded : Loaded Task) (inside : List Report)
    (throws : Bool) (hcareful : Careful s (.loaded generation loaded inside throws)) :
    Ordered (advance generation loaded inside throws s) := by
  unfold Navigation.advance
  rcases h with hidle | ⟨transaction, hpending⟩
  · rw [find_idle hidle.none]
    exact .inl hidle
  · cases hfind : (s.find generation).filter fun transaction => transaction.loading with
    | none => exact .inr ⟨transaction, hpending⟩
    | some found =>
        obtain ⟨hfound, hloading⟩ := Option.filter_eq_some_iff.mp hfind
        obtain ⟨hmem, hsame⟩ : found = transaction ∧ found.generation = generation := by
          have hmem := List.mem_of_find?_eq_some hfound
          rw [hpending.one, List.mem_singleton] at hmem
          exact ⟨hmem, of_decide_eq_true (List.find?_some hfound :)⟩
        subst hmem hsame
        have hloaded := hpending.modify (fun transaction => { transaction with loading := false })
          rfl rfl nofun
        have hfresh := hpending.owns.loading hloading
        have hinside : found ∈ s.active := by
          rw [hpending.one]
          exact List.mem_singleton.mpr rfl
        simp only
        cases loaded with
        | failed => exact .inl (hloaded.settle_false settling_id nofun)
        | done task =>
            simp only
            split
            · exact .inr ⟨_, hloaded⟩
            split
            · exact .inl (hloaded.settle_false settling_id nofun)
            rename_i haccount
            split
            · exact .inl (hloaded.settle_false settling_id nofun)
            rename_i hview
            cases task with
            | none => exact .inl (hloaded.settle_false settling_id nofun)
            | some task =>
                have hmine : s.selectedId = found.previousId ∨ s.selectedId = some found.taskId :=
                  Decidable.or_iff_not_not_and_not.mpr hview
                have hkept := hcareful found hinside rfl hmine (not_not.mp haccount)
                exact hloaded.commit rfl hfresh hkept rfl rfl task inside throws

/-! ### Calls -/

/-- All that are active are settled, one at most. -/
theorem Ordered.settle_all (h : Ordered s) (inside : State Task → State Task) (rollback : Bool)
    (hinside : ∀ s call, Settling s call → Settling (inside s) call)
    (hkept : rollback = true → ∀ transaction ∈ s.active, SelectionKept s transaction) :
    Idle (s.active.foldl
      (fun s transaction => Navigation.settle inside transaction.generation false rollback s) s) := by
  rcases h with hidle | ⟨transaction, hpending⟩
  · rw [hidle.none]
    exact hidle
  · have hmem : transaction ∈ s.active := by
      rw [hpending.one]
      exact List.mem_singleton.mpr rfl
    rw [hpending.one, List.foldl_cons, List.foldl_nil]
    exact hpending.settle_false (fun s hs => hinside s _ hs) fun hrollback =>
      hkept hrollback transaction hmem

/-- The navigator is in use, has counted to this generation, and every entry is of an earlier call. -/
structure Counted (bound generation : Nat) (s : State Task) : Prop where
  generation : s.generation = generation
  enabled : s.disposed = false
  calls : ∀ entry ∈ s.history, entry.call ≤ bound

theorem Counted.grown {bound generation : Nat} (h : Counted bound generation s) {s' : State Task}
    (hgeneration : s'.generation = s.generation) (henabled : s'.disposed = s.disposed)
    (hhistory : s'.history = entry :: s.history) (hcall : entry.call ≤ bound) :
    Counted bound generation s' := by
  refine ⟨hgeneration.trans h.generation, henabled.trans h.enabled, fun other hmem => ?_⟩
  rw [hhistory] at hmem
  rcases List.mem_cons.mp hmem with rfl | hmem
  · exact hcall
  · exact h.calls other hmem

theorem Counted.reports {bound generation : Nat} (h : Counted bound generation s) (hnone : s.active = [])
    (list : List Report) : Counted bound generation (reports list s) := by
  induction list generalizing s with
  | nil =>
      rw [Navigation.reports]
      exact h
  | cons first rest ih =>
      obtain ⟨taskId, number, rendered⟩ := first
      rw [Navigation.reports, report_idle hnone]
      have hrendered : Counted bound generation (s.render taskId) := h.grown rfl rfl rfl (Nat.zero_le _)
      exact ih hrendered hnone

theorem Counted.settle_all {bound generation : Nat} (h : Counted bound generation s) (hordered : Ordered s)
    (list : List Report) : Counted bound generation (s.active.foldl
      (fun s older => Navigation.settle (Navigation.reports list) older.generation false true s) s) := by
  rcases hordered with hidle | ⟨transaction, hpending⟩
  · rw [hidle.none]
    exact h
  · have hcall : transaction.generation ≤ bound := h.calls _ (begun_of_newest hpending.owns.newest)
    have hsettled : Counted bound generation { s with active := [] } := ⟨h.generation, h.enabled, h.calls⟩
    have hrestored : Counted bound generation ({ s with active := [] }.restoreSelection transaction) :=
      hsettled.grown rfl rfl rfl hcall
    rw [hpending.one, List.foldl_cons, List.foldl_nil, settle_pending hpending.one]
    split
    · exact (hrestored.reports rfl list).grown rfl rfl rfl hcall
    · exact hsettled.grown rfl rfl rfl hcall

theorem Ordered.counted (h : Ordered s) : Ordered { s with generation := s.generation + 1 } := by
  rcases h with hidle | ⟨transaction, hpending⟩
  · exact .inl ⟨⟨hidle.recorded.transactional, hidle.recorded.shown, fun entry hmem =>
      Nat.le_succ_of_le (hidle.recorded.calls entry hmem)⟩, hidle.none, hidle.settled⟩
  · have howns := hpending.owns
    exact .inr ⟨transaction, ⟨hpending.recorded.transactional, hpending.recorded.shown, fun entry hmem =>
      Nat.le_succ_of_le (hpending.recorded.calls entry hmem)⟩, hpending.one,
      ⟨howns.enabled, howns.newest, howns.goesOn, howns.only, howns.unresolved, howns.loading⟩⟩

/-- A call that begins when none is active is the only one unsettled. -/
theorem Idle.begin (h : Idle s) {bound : Nat} (hcounted : Counted bound (bound + 1) s) (taskId : String) :
    Settling (s.log (.begun (bound + 1) taskId)) (bound + 1) := by
  have honly : ∀ other, Unsettled other (.begun (bound + 1) taskId :: s.history) → other = bound + 1 :=
    fun other hother => (unsettled_begun hother).resolve_right (h.settled other)
  have hknown : bound + 1 ≤ s.generation := Nat.le_of_eq hcounted.generation.symm
  refine ⟨?_, h.none, honly, hknown⟩
  refine h.recorded.log ⟨trivial, fun first second hfirst hsecond => ?_, h.recorded.transactional⟩ rfl hknown
  rw [honly first hfirst, honly second hsecond]

theorem Ordered.navigateToTask (h : Ordered s) {taskId : String} {aborted : Bool} {inside : List Report}
    (hcareful : Careful s (.navigate taskId aborted inside)) :
    Ordered (navigateToTask taskId aborted inside s) := by
  unfold Navigation.navigateToTask
  split
  · exact h
  rename_i hrefused
  obtain ⟨henabled, haborted⟩ := not_or.mp hrefused
  have henabled := Bool.eq_false_iff.mpr henabled
  have hkept := hcareful henabled (Bool.eq_false_iff.mpr haborted)
  have hrecorded : Recorded s := by
    rcases h with hidle | ⟨transaction, hpending⟩
    · exact hidle.recorded
    · exact hpending.recorded
  have hidle := h.counted.settle_all (Navigation.reports inside) true
    (fun s call hs => hs.reports inside) fun _ => hkept
  have hcounted : Counted s.generation (s.generation + 1) { s with generation := s.generation + 1 } :=
    ⟨rfl, henabled, hrecorded.calls⟩
  have hcounted := hcounted.settle_all h.counted inside
  simp only at hidle hcounted ⊢
  generalize List.foldl _ _ _ = after at *
  have hbegun := hidle.begin hcounted taskId
  have hfresh : ∀ entry ∈ after.history, entry.call ≠ s.generation + 1 := fun entry hmem =>
    Nat.ne_of_lt (Nat.lt_succ_of_le (hcounted.calls entry hmem))
  split
  · rename_i hshown
    refine .inl (hbegun.resolve ⟨⟨taskId, rfl, ?_⟩, ?_⟩)
    · exact hbegun.recorded.shown.trans (of_decide_eq_true hshown.2)
    · exact decide_eq_true rfl
  · refine .inr ⟨_, ⟨hbegun.recorded.transactional, hbegun.recorded.shown, hbegun.recorded.calls⟩,
      by rw [hbegun.none]; rfl, ?_⟩
    refine ⟨hcounted.enabled, rfl, decide_eq_true rfl, hbegun.only, ?_, ?_⟩
    · intro opened hmem
      exact hfresh _ ((List.mem_cons.mp hmem).resolve_left nofun) rfl
    · intro _ hmem
      exact hfresh _ ((List.mem_cons.mp hmem).resolve_left nofun) rfl

/-! ### Runs -/

theorem Settling.log (h : Settling s call) (hallowed : Allowed s.history entry)
    (hcounts : counts entry = false) (hshown : shows entry = false) (hcall : entry.call ≤ s.generation) :
    Settling (s.log entry) call where
  recorded := h.recorded.log (h.recorded.transactional.cons hallowed hcounts) hshown hcall
  none := h.none
  only other hother := h.only other ((unsettled_cons hcounts).mp hother)
  known := h.known

theorem Ordered.onAbort (h : Ordered s) {generation : Nat} {inside : List Report}
    (hcareful : Careful s (.abort generation inside)) : Ordered (onAbort generation inside s) := by
  rcases h with hidle | ⟨transaction, hpending⟩
  · have haborted : Idle (s.log (.aborted generation)) := hidle.log trivial rfl rfl (Nat.zero_le _)
    rw [Navigation.onAbort, settle_none (find_idle haborted.none generation)]
    exact .inl haborted
  · have hmem : transaction ∈ s.active := by
      rw [hpending.one]
      exact List.mem_singleton.mpr rfl
    rw [Navigation.onAbort]
    by_cases hsame : transaction.generation = generation
    · subst hsame
      have hsettling : Settling ({ s with active := [] }.log (.aborted transaction.generation))
          transaction.generation := hpending.settling.log trivial rfl rfl (Nat.zero_le _)
      exact .inl (Settling.settle_false (s := s.log (.aborted transaction.generation)) hpending.one hsettling
        (fun s hs => hs.reports inside) fun _ => hcareful transaction hmem rfl)
    · have hother : ends transaction.generation (.aborted generation) = false :=
        decide_eq_false fun h => hsame h.symm
      have haborted : Pending (s.log (.aborted generation)) transaction :=
        hpending.log trivial rfl rfl (Nat.zero_le _) hother nofun
      have hnone : (s.log (.aborted generation)).find generation = none := by
        rw [State.find, haborted.one, List.find?_singleton, if_neg (by simpa using hsame)]
      rw [settle_none hnone]
      exact .inr ⟨transaction, haborted⟩

/-- At most one attempt is active; something may have ended it already. -/
def Ending (s : State Task) : Prop :=
  Idle s ∨ ∃ transaction, s.active = [transaction] ∧
    Settling { s with active := [] } transaction.generation

theorem Ordered.ending (h : Ordered s) : Ending s := by
  rcases h with hidle | ⟨transaction, hpending⟩
  · exact .inl hidle
  · exact .inr ⟨transaction, hpending.one, hpending.settling⟩

theorem Ending.log (h : Ending s) (hallowed : Allowed s.history entry) (hcounts : counts entry = false)
    (hshown : shows entry = false) (hcall : entry.call ≤ s.generation) : Ending (s.log entry) := by
  rcases h with hidle | ⟨transaction, hone, hsettling⟩
  · exact .inl (hidle.log hallowed hcounts hshown hcall)
  · exact .inr ⟨transaction, hone, hsettling.log hallowed hcounts hshown hcall⟩

/-- Whatever is active is given up without a rollback. -/
theorem Ending.invalidateAll (h : Ending s) : Idle (Navigation.invalidateAll s) := by
  have hlogged : Ending (s.log .invalidated) := h.log trivial rfl rfl (Nat.zero_le _)
  have hactive : (s.log .invalidated).active = s.active := rfl
  rw [Navigation.invalidateAll, ← hactive]
  rcases hlogged with hidle | ⟨transaction, hone, hsettling⟩
  · rw [hidle.none]
    exact hidle
  · rw [hone, List.foldl_cons, List.foldl_nil]
    exact Settling.settle_false hone hsettling settling_id nofun

/-- What is not about a call leaves the attempts alone. -/
theorem Ordered.grown (h : Ordered s) {s' : State Task} (hrecorded : Recorded s')
    (hactive : s'.active = s.active) (henabled : s'.disposed = s.disposed)
    (hhistory : s'.history = entry :: s.history) (hcounts : counts entry = false)
    (hends : ∀ generation, ends generation entry = false)
    (hcommits : ∀ generation, entry ≠ .committed generation) : Ordered s' := by
  rcases h with hidle | ⟨transaction, hpending⟩
  · refine .inl ⟨hrecorded, hactive.trans hidle.none, fun call hunsettled => ?_⟩
    rw [hhistory] at hunsettled
    exact hidle.settled call ((unsettled_cons hcounts).mp hunsettled)
  · exact .inr ⟨transaction, hrecorded, hactive.trans hpending.one,
      hpending.owns.grown hhistory henabled hcounts (hends _) fun _ => hcommits _⟩

theorem Ordered.recorded (h : Ordered s) : Recorded s := by
  rcases h with hidle | ⟨transaction, hpending⟩
  · exact hidle.recorded
  · exact hpending.recorded

theorem Ordered.step (h : Ordered s) (event : Event Task) (hcareful : Careful s event) :
    Ordered (step s event) := by
  obtain ⟨transactional, shown, calls⟩ := h.recorded
  cases event with
  | navigate taskId aborted inside => exact h.navigateToTask hcareful
  | loaded generation result inside throws => exact h.advance generation result inside throws hcareful
  | abort generation inside => exact h.onAbort hcareful
  | report rendered => exact h.report hcareful
  | select id =>
      have hselected : Recorded { s with selectedId := id } := ⟨transactional, shown, calls⟩
      exact h.grown (hselected.log (transactional.cons trivial rfl) rfl (Nat.zero_le _)) rfl rfl rfl rfl
        (fun _ => rfl) nofun
  | details task =>
      rcases h with hidle | ⟨transaction, hpending⟩
      · exact .inl ⟨⟨transactional, shown, calls⟩, hidle.none, hidle.settled⟩
      · have howns := hpending.owns
        exact .inr ⟨transaction, ⟨transactional, shown, calls⟩, hpending.one,
          ⟨howns.enabled, howns.newest, howns.goesOn, howns.only, howns.unresolved, howns.loading⟩⟩
  | switchAccount id =>
      rw [Navigation.step]
      split
      · exact h
      · have hswitched : Recorded { s with accountId := id } := ⟨transactional, shown, calls⟩
        exact h.grown (hswitched.log (transactional.cons trivial rfl) rfl (Nat.zero_le _)) rfl rfl rfl rfl
          (fun _ => rfl) nofun
  | invalidateAll => exact .inl h.ending.invalidateAll
  | dispose =>
      rw [Navigation.step, dispose]
      split
      · exact h
      · have hdisposed : Ending (s.log .disposed) := h.ending.log trivial rfl rfl (Nat.zero_le _)
        have hidle := hdisposed.invalidateAll
        exact .inl ⟨⟨hidle.recorded.transactional, hidle.recorded.shown, hidle.recorded.calls⟩, hidle.none,
          hidle.settled⟩

variable (selectedId : Option String) (selectedTask : Option Task) (shown : Option String)
  (accountId : String)

theorem ordered_created : Ordered (created selectedId selectedTask shown accountId) := by
  refine .inl ⟨⟨⟨trivial, ?_, trivial⟩, rfl, ?_⟩, rfl, ?_⟩
  · rintro call other ⟨⟨taskId, hmem⟩, -⟩
    exact absurd (List.mem_singleton.mp hmem) nofun
  · intro entry hmem
    rw [List.mem_singleton.mp hmem]
    exact Nat.zero_le _
  · rintro call ⟨⟨taskId, hmem⟩, -⟩
    exact absurd (List.mem_singleton.mp hmem) nofun

end

/-- The task is committed and shown, then a second call is aborted after its commit. -/
def twoCalls : List (Event String) :=
  [.navigate "groceries" false [], .loaded 1 (.done (some "milk")) [.mk (some "groceries") 1 []] false,
    .navigate "laundry" false [], .loaded 2 (.done (some "shirts")) [] false,
    .abort 2 [.mk (some "groceries") 2 []], .navigate "groceries" false []]

/-- The task is selected again by hand before the view, without a task yet, reports. -/
def selectedAgain : List (Event String) :=
  [.navigate "groceries" false [], .loaded 1 (.done (some "milk")) [] false, .select (some "groceries"),
    .report (.mk none 1 [])]

/-- The account is left during the load, and is there again when the load comes back. -/
def backAgain : List (Event String) :=
  [.navigate "groceries" false [], .switchAccount "ben", .switchAccount "anna",
    .loaded 1 (.done (some "milk")) [.mk (some "groceries") 1 []] false]

end ShishiTodo.Navigation
