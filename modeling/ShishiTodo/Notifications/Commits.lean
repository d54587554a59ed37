import Mathlib.Data.List.Nodup
import ShishiTodo.Notifications.Slots

/-!
# What a listener is given

The queue in front of a listener, as one line: what is in flight, then what waits, in the order of admission. An activation leaves it, or is committed, comes back with a reload once, and is committed again.
-/

namespace ShishiTodo

namespace Notifications

open Lib

/-! ### Reading a log -/

inductive Move where
  | committed
  | requeued
  deriving DecidableEq, Repr

def Entry.moveOf (activationId : String) : Entry → Option Move
  | .committed activation _ _ => if activation.activationId = activationId then some .committed else none
  | .requeued other => if other = activationId then some .requeued else none
  | _ => none

/-- What happens to an activation on its way to the listener. -/
def movesOf (activationId : String) (log : List Entry) : List Move :=
  log.filterMap (Entry.moveOf activationId)

def Entry.admission : Entry → Option String
  | .admitted activationId _ => some activationId
  | _ => none

def admittedIds (log : List Entry) : List String := log.filterMap Entry.admission

def Entry.commission : Entry → Option String
  | .committed activation _ _ => some activation.activationId
  | _ => none

def committedIds (log : List Entry) : List String := log.filterMap Entry.commission

/-- The ids that were committed, in the order of their first commits. -/
def firstCommits (log : List Entry) : List String := (committedIds log).eraseDups

/-- The whole way of an activation: a second commit comes after a reload took the first one back. -/
def fullDelivery : List Move := [.committed, .requeued, .committed]

variable {past log : List Entry} {entry : Entry} {activationId : String}

@[simp] theorem movesOf_append (first second : List Entry) :
    movesOf activationId (first ++ second) = movesOf activationId first ++ movesOf activationId second :=
  List.filterMap_append

@[simp] theorem admittedIds_append (first second : List Entry) :
    admittedIds (first ++ second) = admittedIds first ++ admittedIds second := List.filterMap_append

@[simp] theorem committedIds_append (first second : List Entry) :
    committedIds (first ++ second) = committedIds first ++ committedIds second := List.filterMap_append

theorem mem_committedIds : activationId ∈ committedIds log ↔ .committed ∈ movesOf activationId log := by
  simp only [committedIds, movesOf, List.mem_filterMap]
  constructor
  · rintro ⟨entry, hentry, hid⟩
    refine ⟨entry, hentry, ?_⟩
    cases entry with
    | committed activation sessionId now =>
        simp only [Entry.commission, Option.some.injEq] at hid
        simp [Entry.moveOf, hid]
    | admitted other now => cases hid
    | requeued other => cases hid
    | opened target now => cases hid
  · rintro ⟨entry, hentry, hmove⟩
    refine ⟨entry, hentry, ?_⟩
    cases entry with
    | committed activation sessionId now =>
        simp only [Entry.moveOf] at hmove
        split at hmove
        · simpa [Entry.commission]
        · cases hmove
    | admitted other now => cases hmove
    | requeued other =>
        simp only [Entry.moveOf] at hmove
        split at hmove
        · cases hmove
        · cases hmove
    | opened target now => cases hmove

/-- A commit is a first commit or leaves the first commits as they are. -/
theorem firstCommits_append_committed {activation : Activation} {sessionId : String} {now : Instant} :
    firstCommits (past ++ [.committed activation sessionId now]) =
      if .committed ∈ movesOf activation.activationId past then firstCommits past
      else firstCommits past ++ [activation.activationId] := by
  have hone : committedIds [.committed activation sessionId now] = [activation.activationId] := rfl
  rw [firstCommits, committedIds_append, hone, List.eraseDups_append]
  by_cases hcommitted : activation.activationId ∈ committedIds past
  · rw [if_pos (mem_committedIds.mp hcommitted)]
    simp [List.removeAll, hcommitted, firstCommits]
  · rw [if_neg (fun h => hcommitted (mem_committedIds.mpr h))]
    simp [List.removeAll, hcommitted, firstCommits, List.eraseDups_cons]

theorem firstCommits_append_of_none (hentry : entry.commission = none) :
    firstCommits (past ++ [entry]) = firstCommits past := by
  simp [firstCommits, committedIds, hentry]

/-! ### The line -/

/-- The title is looked up again for every delivery. -/
def Activation.untitled (activation : Activation) : Activation := { activation with taskTitle := "" }

namespace DeliveryState

def waiting (state : DeliveryState) : List Activation :=
  (state.reserved.toList.map ReservedActivation.activation ++ state.pending).map Activation.untitled

def flying (state : DeliveryState) : Option Activation :=
  state.inFlight.map fun inFlight => inFlight.activation.untitled

end DeliveryState

/-- What a section does to the line, by what there is to say of it. -/
inductive LineStep (before after : DeliveryState) : List Entry → Prop
  | quiet (hwaiting : after.waiting.Sublist before.waiting)
      (hflying : after.flying = before.flying ∨ after.flying = none) : LineStep before after []
  | opened (target : NotificationTargetV1) (now : Instant) (hwaiting : after.waiting = before.waiting)
      (hflying : after.flying = none) : LineStep before after [.opened target now]
  | admitted (activation : Activation) (now : Instant)
      (hnew : activation.bookkeeping = .admittedAt now)
      (hwaiting : after.waiting.Sublist (before.waiting ++ [activation]))
      (hflying : after.flying = before.flying) :
      LineStep before after [.admitted activation.activationId now]
  | requeued (activation : Activation) (hflown : before.flying = some activation)
      (hunspent : activation.bookkeeping.requeuesUsed = 0)
      (hwaiting : after.waiting = activation.requeue :: before.waiting) (hflying : after.flying = none) :
      LineStep before after [.requeued activation.activationId]
  | committed (activation delivered : Activation) (sessionId : String) (now : Instant)
      (hwaited : before.waiting = activation :: after.waiting) (hflown : before.flying = none)
      (hflying : after.flying = some activation.attempt)
      (hid : delivered.activationId = activation.activationId)
      (hattempts : activation.bookkeeping.attempts < maxDeliveryAttempts)
      (hfresh : activation.isExpired now = false) :
      LineStep before after [.committed delivered sessionId now]

namespace DeliveryState

variable {state : DeliveryState} {now : Instant} {sessionId : String} {ticket : UInt64}

@[simp] theorem waiting_terminateAcked (activation : Activation) :
    (state.terminateAcked activation sessionId now).waiting = state.waiting := by
  simp only [waiting, terminateAcked]

@[simp] theorem flying_terminateAcked (activation : Activation) :
    (state.terminateAcked activation sessionId now).flying = state.flying := by
  simp only [flying, terminateAcked]

@[simp] theorem waiting_terminateRejected (activation : Activation) (code : RejectionCode) :
    (state.terminateRejected activation code sessionId now).waiting = state.waiting := by
  simp only [waiting, terminateRejected, pushRejection]

@[simp] theorem flying_terminateRejected (activation : Activation) (code : RejectionCode) :
    (state.terminateRejected activation code sessionId now).flying = state.flying := by
  simp only [flying, terminateRejected, pushRejection]

theorem displace_line (state : DeliveryState) (now : Instant) :
    (state.displace now).waiting.Sublist state.waiting ∧ (state.displace now).flying = state.flying := by
  unfold displace
  split
  · rcases hpending : state.pending with _ | ⟨victim, rest⟩
    · exact ⟨List.Sublist.refl _, rfl⟩
    · rw [waiting_terminateRejected, flying_terminateRejected]
      refine ⟨List.Sublist.map _ ?_, rfl⟩
      rw [hpending]
      exact (List.sublist_cons_self victim rest).append_left _
  · exact ⟨List.Sublist.refl _, rfl⟩

theorem put_line (activation : Activation) :
    LineStep state (state.put activation now) [.admitted activation.activationId now] := by
  have hdisplaced := displace_line
    { state with
      audit := { state.audit with admitted := insert activation.activationId state.audit.admitted } } now
  refine LineStep.admitted
    ({ activation with bookkeeping := .admittedAt now } : Activation).untitled now rfl ?_ ?_
  · unfold put enqueue
    dsimp only
    split
    · rw [waiting_terminateRejected]
      exact hdisplaced.1.trans (List.sublist_append_left _ _)
    · refine List.Sublist.trans ?_ (hdisplaced.1.append_right _)
      simp [waiting]
  · unfold put enqueue
    dsimp only
    split
    · rw [flying_terminateRejected]
      exact hdisplaced.2
    · exact hdisplaced.2

theorem listenerReady_line (hexclusive : state.Exclusive) :
    LineStep state (state.listenerReady sessionId now).2
      (state.entriesOf now (.listenerReady sessionId)) := by
  simp only [listenerReady, entriesOf]
  by_cases hvalid : validComponent sessionId
  · by_cases hnew : state.sessionId ≠ some sessionId
    · simp only [hvalid, hnew, not_true, if_false, if_true, ne_eq, not_false_eq_true, and_self]
      unfold reload requeues
      rcases hinFlight : state.inFlight with _ | inFlight
      · exact LineStep.quiet (List.Sublist.refl _) (.inl rfl)
      · have hreserved : state.reserved = none := by
          rcases hreserved : state.reserved with _ | reserved
          · rfl
          · have hfree := hexclusive (by rw [hreserved]; rfl)
            rw [hinFlight] at hfree
            cases hfree
        dsimp only
        split
        · refine LineStep.quiet ?_ (.inr rfl)
          exact List.Sublist.refl _
        · rename_i hspent
          refine LineStep.requeued inFlight.activation.untitled ?_ ?_ ?_ rfl
          · rw [flying, hinFlight]
            rfl
          · simp only [Activation.spent, Bool.or_eq_true, not_or, Bool.not_eq_true] at hspent
            exact Nat.lt_one_iff.mp (Nat.lt_of_not_le (of_decide_eq_false hspent.1))
          · simp only [waiting, hreserved]
            rfl
    · simp only [hvalid, hnew, not_true, if_false, and_false]
      exact LineStep.quiet (List.Sublist.refl _) (.inl rfl)
  · simp only [hvalid]
    exact LineStep.quiet (List.Sublist.refl _) (.inl rfl)

theorem reserve_line : LineStep state (state.reserveForSession sessionId now).2 [] := by
  unfold reserveForSession
  split
  · exact LineStep.quiet (List.Sublist.refl _) (.inl rfl)
  · rename_i hfree
    simp only [not_or, Option.not_isSome_iff_eq_none] at hfree
    obtain ⟨-, hinFlight, hreserved⟩ := hfree
    rcases hpending : state.pending with _ | ⟨activation, rest⟩
    · exact LineStep.quiet (List.Sublist.refl _) (.inl rfl)
    · have hleft : (({ state with pending := rest } : DeliveryState).forgetOpened now).waiting.Sublist
          state.waiting := by
        simp only [waiting, forgetOpened, hpending]
        exact List.Sublist.map _ ((List.sublist_cons_self activation rest).append_left _)
      dsimp only
      split
      · refine LineStep.quiet ?_ (.inl (flying_terminateAcked _))
        rwa [waiting_terminateAcked]
      · split
        · refine LineStep.quiet ?_ (.inl (flying_terminateRejected _ _))
          rwa [waiting_terminateRejected]
        · refine LineStep.quiet ?_ (.inl rfl)
          simp [waiting, forgetOpened, hpending, hreserved]

theorem release_line {reserved : ReservedActivation} {left : DeliveryState}
    (h : state.release ticket = some (reserved, left)) :
    state.waiting = reserved.activation.untitled :: left.waiting ∧ left.flying = state.flying ∧
      left.sessionId = state.sessionId ∧ left.inFlight = state.inFlight ∧ left.reserved = none := by
  unfold release at h
  rcases hreserved : state.reserved with _ | found
  · rw [hreserved] at h
    cases h
  · rw [hreserved] at h
    dsimp only at h
    split at h
    · cases h
    · cases h
      refine ⟨?_, rfl, rfl, rfl, rfl⟩
      simp [waiting, hreserved]

/-- Back to the front of the queue, when nothing else is reserved. -/
theorem waiting_front {left : DeliveryState} (hreserved : left.reserved = none) (activation : Activation) :
    ({ left with pending := activation :: left.pending } : DeliveryState).waiting =
      activation.untitled :: left.waiting := by
  simp [waiting, hreserved]

theorem restore_line : LineStep state (state.restoreReservation ticket now) [] := by
  unfold restoreReservation
  rcases hrelease : state.release ticket with _ | ⟨reserved, left⟩
  · exact LineStep.quiet (List.Sublist.refl _) (.inl rfl)
  · obtain ⟨hwaiting, hflying, -, -, hreserved⟩ := release_line hrelease
    dsimp only
    split
    · refine LineStep.quiet ?_ (.inl ?_)
      · rw [waiting_terminateRejected, hwaiting]
        exact List.sublist_cons_self _ _
      · rw [flying_terminateRejected, hflying]
    · refine LineStep.quiet ?_ (.inl hflying)
      rw [waiting_front hreserved, hwaiting]

theorem reject_line {code : RejectionCode} : LineStep state (state.rejectReservation ticket code now) [] := by
  unfold rejectReservation
  rcases hrelease : state.release ticket with _ | ⟨reserved, left⟩
  · exact LineStep.quiet (List.Sublist.refl _) (.inl rfl)
  · obtain ⟨hwaiting, hflying, -, -, -⟩ := release_line hrelease
    refine LineStep.quiet ?_ (.inl ?_)
    · rw [waiting_terminateRejected, hwaiting]
      exact List.sublist_cons_self _ _
    · rw [flying_terminateRejected, hflying]

theorem commit_line {taskTitle : String} :
    LineStep state (state.commitReservation ticket sessionId taskTitle now).2
      (state.entriesOf now (.commit ticket sessionId taskTitle)) := by
  simp only [commitReservation, entriesOf]
  rcases hrelease : state.release ticket with _ | ⟨reserved, left⟩
  · exact LineStep.quiet (List.Sublist.refl _) (.inl rfl)
  · obtain ⟨hwaiting, hflying, -, -, hreserved⟩ := release_line hrelease
    dsimp only
    split
    · refine LineStep.quiet ?_ (.inl hflying)
      rw [waiting_front hreserved, hwaiting]
    · generalize htitled : ({ reserved.activation with taskTitle := taskTitle } : Activation) = activation
      have huntitled : activation.untitled = reserved.activation.untitled := by
        rw [← htitled]
        rfl
      rw [← huntitled] at hwaiting
      unfold deliver
      split
      · refine LineStep.quiet ?_ (.inl ?_)
        · rw [waiting_terminateRejected, hwaiting]
          exact List.sublist_cons_self _ _
        · rw [flying_terminateRejected, hflying]
      · rename_i hfresh
        split
        · refine LineStep.quiet ?_ (.inl ?_)
          · rw [waiting_terminateRejected, hwaiting]
            exact List.sublist_cons_self _ _
          · rw [flying_terminateRejected, hflying]
        · rename_i hattempts
          split
          · refine LineStep.quiet ?_ (.inl hflying)
            rw [waiting_front hreserved, hwaiting]
          · rename_i hfree
            simp only [not_or, Option.not_isSome_iff_eq_none] at hfree
            refine LineStep.committed activation.untitled activation.attempt sessionId now hwaiting ?_
              rfl rfl (Nat.lt_of_not_le hattempts) (Bool.eq_false_iff.mpr hfresh)
            rw [← hflying, flying, hfree.2]
            rfl

theorem acknowledge_line {activationId outcome : String} :
    LineStep state (state.acknowledge sessionId activationId outcome now).2
      (state.entriesOf now (.acknowledge sessionId activationId outcome)) := by
  simp only [entriesOf]
  obtain ⟨inFlight, hinFlight, hfinish⟩ | ⟨⟨diagnostics, hkept⟩, hnothing⟩ :=
    state.acknowledge_spec now sessionId activationId outcome
  · have hwaiting : (state.finish inFlight sessionId outcome now).waiting = state.waiting := by
      unfold finish
      rw [waiting_terminateAcked]
      rfl
    have hflying : (state.finish inFlight sessionId outcome now).flying = none := by
      unfold finish
      rw [flying_terminateAcked]
      rfl
    rw [hinFlight, hfinish]
    dsimp only
    by_cases hopened : outcome = "opened"
    · rw [if_pos ⟨rfl, hopened⟩]
      exact LineStep.opened _ _ hwaiting hflying
    · rw [if_neg fun h => hopened h.2]
      exact LineStep.quiet (by rw [hwaiting]) (.inr hflying)
  · have hquiet : LineStep state (state.acknowledge sessionId activationId outcome now).2 [] := by
      rw [hkept]
      exact LineStep.quiet (List.Sublist.refl _) (.inl rfl)
    rcases hnothing with hinFlight | hrefused
    · rw [hinFlight]
      exact hquiet
    · rw [hrefused]
      rcases state.inFlight with _ | inFlight
      · exact hquiet
      · exact hquiet

theorem enter_line (now : Instant) (hexclusive : state.Exclusive) (step : Section) :
    LineStep state (state.enter now step) (state.entriesOf now step) := by
  cases step with
  | put activation => exact put_line activation
  | listenerReady sessionId => exact listenerReady_line hexclusive
  | reserve sessionId => exact reserve_line
  | commit ticket sessionId taskTitle => exact commit_line
  | reject ticket code => exact reject_line
  | restore ticket => exact restore_line
  | acknowledge sessionId activationId outcome => exact acknowledge_line

end DeliveryState

/-! ### The way of an activation -/

/-- What has happened to an activation that waits. -/
def Activation.Waits (activation : Activation) (moves : List Move) : Prop :=
  activation.bookkeeping.attempts = 0 ∧ activation.bookkeeping.requeuesUsed = 0 ∧ moves = [] ∨
  activation.bookkeeping.attempts = 1 ∧ activation.bookkeeping.requeuesUsed = 1 ∧
    moves = [.committed, .requeued]

/-- What has happened to an activation that is in flight. -/
def Activation.Flies (activation : Activation) (moves : List Move) : Prop :=
  activation.bookkeeping.attempts = 1 ∧ activation.bookkeeping.requeuesUsed = 0 ∧ moves = [.committed] ∨
  activation.bookkeeping.attempts = 2 ∧ activation.bookkeeping.requeuesUsed = 1 ∧ moves = fullDelivery

/-- An activation that waits for its first delivery. -/
def Activation.isFirst (activation : Activation) : Bool := activation.bookkeeping.attempts == 0

/-- What the sections keep, when no id is admitted twice. -/
structure LineInv (flying : Option Activation) (waiting : List Activation) (past : List Entry) : Prop where
  order : ((flying.toList ++ waiting).map Activation.activationId).Sublist (admittedIds past)
  waits : ∀ activation ∈ waiting, activation.Waits (movesOf activation.activationId past)
  flies : ∀ activation ∈ flying, activation.Flies (movesOf activation.activationId past)
  dated : ∀ activation ∈ flying.toList ++ waiting, ∃ admittedAt,
    activation.bookkeeping.enqueuedAt = some admittedAt ∧
      .admitted activation.activationId admittedAt ∈ past
  first : (firstCommits past ++ (waiting.filter Activation.isFirst).map Activation.activationId).Sublist
    (admittedIds past)
  ways : ∀ activationId, movesOf activationId past <+: fullDelivery
  unknown : ∀ activationId, activationId ∉ admittedIds past → movesOf activationId past = []
  timely : ∀ activation sessionId now, .committed activation sessionId now ∈ past →
    ∃ admittedAt, .admitted activation.activationId admittedAt ∈ past ∧ now < admittedAt + activationTtl

variable {flying : Option Activation} {waiting rest : List Activation} {activation : Activation}

theorem mem_admittedIds : activationId ∈ admittedIds log ↔ ∃ now, .admitted activationId now ∈ log := by
  simp only [admittedIds, List.mem_filterMap]
  constructor
  · rintro ⟨entry, hentry, hid⟩
    cases entry with
    | admitted other now =>
        cases hid
        exact ⟨now, hentry⟩
    | committed activation sessionId now => cases hid
    | requeued other => cases hid
    | opened target now => cases hid
  · rintro ⟨now, hentry⟩
    exact ⟨_, hentry, rfl⟩

/-- Fewer may wait, and the delivery may end. -/
theorem LineInv.fewer {left : List Activation} {still : Option Activation} (h : LineInv flying waiting past)
    (hleft : left.Sublist waiting) (hstill : still = flying ∨ still = none) : LineInv still left past := by
  have hline : (still.toList ++ left).Sublist (flying.toList ++ waiting) := by
    rcases hstill with hsame | hnone
    · rw [hsame]
      exact hleft.append_left _
    · rw [hnone]
      exact hleft.trans (List.sublist_append_right _ _)
  exact
    { order := (hline.map _).trans h.order
      waits := fun activation hmem => h.waits activation (hleft.subset hmem)
      flies := fun activation hmem => by
        rcases hstill with hsame | hnone
        · exact h.flies activation (hsame ▸ hmem)
        · rw [hnone] at hmem
          cases hmem
      dated := fun activation hmem => h.dated activation (hline.subset hmem)
      first := (((hleft.filter _).map _).append_left _).trans h.first
      ways := h.ways
      unknown := h.unknown
      timely := h.timely }

/-- An entry that moves no activation. -/
theorem LineInv.opened (h : LineInv flying waiting past) (target : NotificationTargetV1) (now : Instant) :
    LineInv flying waiting (past ++ [.opened target now]) := by
  have hmoves : ∀ id, movesOf id (past ++ [.opened target now]) = movesOf id past := fun id => by
    simp [movesOf, Entry.moveOf]
  have hadmitted : admittedIds (past ++ [.opened target now]) = admittedIds past := by
    simp [admittedIds, Entry.admission]
  exact
    { order := hadmitted ▸ h.order
      waits := fun activation hmem => hmoves activation.activationId ▸ h.waits activation hmem
      flies := fun activation hmem => hmoves activation.activationId ▸ h.flies activation hmem
      dated := fun activation hmem => by
        obtain ⟨admittedAt, hat, hentry⟩ := h.dated activation hmem
        exact ⟨admittedAt, hat, List.mem_append_left _ hentry⟩
      first := by
        rw [hadmitted, firstCommits_append_of_none rfl]
        exact h.first
      ways := fun id => hmoves id ▸ h.ways id
      unknown := fun id hid => by
        rw [hmoves]
        exact h.unknown id (hadmitted ▸ hid)
      timely := fun activation sessionId commitAt hmem => by
        obtain ⟨admittedAt, hentry, hlt⟩ := h.timely activation sessionId commitAt (by simpa using hmem)
        exact ⟨admittedAt, List.mem_append_left _ hentry, hlt⟩ }

theorem LineInv.admitted {now : Instant} (h : LineInv flying waiting past)
    (hbookkeeping : activation.bookkeeping = .admittedAt now)
    (hnew : activation.activationId ∉ admittedIds past) :
    LineInv flying (waiting ++ [activation]) (past ++ [.admitted activation.activationId now]) := by
  have hmoves : ∀ id, movesOf id (past ++ [.admitted activation.activationId now]) = movesOf id past :=
    fun id => by simp [movesOf, Entry.moveOf]
  have hadmitted : admittedIds (past ++ [.admitted activation.activationId now]) =
      admittedIds past ++ [activation.activationId] := by
    simp [admittedIds, Entry.admission]
  exact
    { order := by
        rw [hadmitted, ← List.append_assoc, List.map_append]
        exact h.order.append_right _
      waits := fun waits hmem => by
        rw [hmoves]
        rcases List.mem_append.mp hmem with hold | hlast
        · exact h.waits waits hold
        · rw [List.mem_singleton.mp hlast, h.unknown _ hnew]
          refine .inl ⟨?_, ?_, rfl⟩
          · rw [hbookkeeping]
            rfl
          · rw [hbookkeeping]
            rfl
      flies := fun flies hmem => hmoves flies.activationId ▸ h.flies flies hmem
      dated := fun dated hmem => by
        rw [← List.append_assoc] at hmem
        rcases List.mem_append.mp hmem with hold | hlast
        · obtain ⟨admittedAt, hat, hentry⟩ := h.dated dated hold
          exact ⟨admittedAt, hat, List.mem_append_left _ hentry⟩
        · rw [List.mem_singleton.mp hlast]
          exact ⟨now, by rw [hbookkeeping]; rfl, List.mem_append_right _ (List.mem_singleton_self _)⟩
      first := by
        have hfirst : activation.isFirst = true := by
          rw [Activation.isFirst, hbookkeeping]
          rfl
        rw [hadmitted, firstCommits_append_of_none rfl, List.filter_append, List.filter_singleton, hfirst,
          List.map_append, ← List.append_assoc]
        exact h.first.append_right _
      ways := fun id => hmoves id ▸ h.ways id
      unknown := fun id hid => by
        rw [hmoves]
        rw [hadmitted, List.mem_append, not_or] at hid
        exact h.unknown id hid.1
      timely := fun activation sessionId commitAt hmem => by
        obtain ⟨admittedAt, hentry, hlt⟩ := h.timely activation sessionId commitAt (by simpa using hmem)
        exact ⟨admittedAt, List.mem_append_left _ hentry, hlt⟩ }

/-- What is at the head of the line was admitted, and nothing behind it has its id. -/
theorem LineInv.head {line : List Activation} (h : LineInv flying waiting past)
    (hids : (admittedIds past).Nodup) (hline : flying.toList ++ waiting = activation :: line) :
    activation.activationId ∈ admittedIds past ∧
      ∀ other ∈ line, other.activationId ≠ activation.activationId := by
  have horder := h.order
  rw [hline, List.map_cons] at horder
  refine ⟨horder.subset List.mem_cons_self, ?_⟩
  intro other hother hsame
  have hnodup := horder.nodup hids
  exact (List.nodup_cons.mp hnodup).1 (hsame ▸ List.mem_map_of_mem hother)

theorem LineInv.requeued (h : LineInv (some activation) waiting past) (hids : (admittedIds past).Nodup)
    (hunspent : activation.bookkeeping.requeuesUsed = 0) :
    LineInv none (activation.requeue :: waiting) (past ++ [.requeued activation.activationId]) := by
  obtain ⟨hmem, hothers⟩ := h.head hids rfl
  obtain ⟨hattempts, hway⟩ : activation.bookkeeping.attempts = 1 ∧
      movesOf activation.activationId past = [.committed] := by
    rcases h.flies activation rfl with ⟨hone, -, hmoves⟩ | ⟨-, hspent, -⟩
    · exact ⟨hone, hmoves⟩
    · rw [hunspent] at hspent
      cases hspent
  have hmoves : ∀ id, id ≠ activation.activationId →
      movesOf id (past ++ [.requeued activation.activationId]) = movesOf id past := fun id hid => by
    simp [movesOf, Entry.moveOf, Ne.symm hid]
  have hown : movesOf activation.activationId (past ++ [.requeued activation.activationId]) =
      [.committed, .requeued] := by
    rw [movesOf_append, hway]
    simp [movesOf, Entry.moveOf]
  have hadmitted : admittedIds (past ++ [.requeued activation.activationId]) = admittedIds past := by
    simp [admittedIds, Entry.admission]
  exact
    { order := hadmitted ▸ h.order
      waits := fun waits hwaits => by
        rcases List.mem_cons.mp hwaits with hhead | hrest
        · rw [hhead]
          refine .inr ⟨hattempts, ?_, hown⟩
          change saturatingSucc activation.bookkeeping.requeuesUsed = 1
          rw [hunspent]
          rfl
        · rw [hmoves _ (hothers waits hrest)]
          exact h.waits waits hrest
      flies := fun _ hmem => by cases hmem
      dated := fun dated hdated => by
        have hsome : ∀ line ∈ activation :: waiting, ∃ admittedAt,
            line.bookkeeping.enqueuedAt = some admittedAt ∧
              .admitted line.activationId admittedAt ∈ past ++ [.requeued activation.activationId] := by
          intro line hline
          obtain ⟨admittedAt, hat, hentry⟩ := h.dated line hline
          exact ⟨admittedAt, hat, List.mem_append_left _ hentry⟩
        rcases List.mem_cons.mp hdated with hhead | hrest
        · rw [hhead]
          exact hsome activation List.mem_cons_self
        · exact hsome dated (List.mem_cons_of_mem _ hrest)
      first := by
        have hfirst : activation.requeue.isFirst = false := by
          change (activation.bookkeeping.attempts == 0) = false
          rw [hattempts]
          rfl
        rw [hadmitted, firstCommits_append_of_none rfl, List.filter_cons_of_neg (by simp [hfirst])]
        exact h.first
      ways := fun id => by
        by_cases hid : id = activation.activationId
        · rw [hid, hown]
          exact ⟨[.committed], rfl⟩
        · rw [hmoves id hid]
          exact h.ways id
      unknown := fun id hid => by
        rw [hadmitted] at hid
        rw [hmoves id (fun hsame => hid (hsame ▸ hmem))]
        exact h.unknown id hid
      timely := fun activation sessionId commitAt hcommitted => by
        obtain ⟨admittedAt, hentry, hlt⟩ := h.timely activation sessionId commitAt (by simpa using hcommitted)
        exact ⟨admittedAt, List.mem_append_left _ hentry, hlt⟩ }

theorem LineInv.committed {delivered : Activation} {sessionId : String} {now : Instant}
    (h : LineInv none (activation :: rest) past) (hids : (admittedIds past).Nodup)
    (hid : delivered.activationId = activation.activationId) (hfresh : activation.isExpired now = false) :
    LineInv (some activation.attempt) rest (past ++ [.committed delivered sessionId now]) := by
  obtain ⟨hmem, hothers⟩ := h.head hids rfl
  have hmoves : ∀ id, id ≠ activation.activationId →
      movesOf id (past ++ [.committed delivered sessionId now]) = movesOf id past := fun id hother => by
    simp [movesOf, Entry.moveOf, hid, Ne.symm hother]
  have hown : movesOf activation.activationId (past ++ [.committed delivered sessionId now]) =
      movesOf activation.activationId past ++ [.committed] := by
    rw [movesOf_append]
    simp [movesOf, Entry.moveOf, hid]
  have hadmitted : admittedIds (past ++ [.committed delivered sessionId now]) = admittedIds past := by
    simp [admittedIds, Entry.admission]
  have hwait := h.waits activation List.mem_cons_self
  have hflies : activation.attempt.Flies (movesOf activation.activationId past ++ [.committed]) := by
    change saturatingSucc activation.bookkeeping.attempts = 1 ∧ _ ∨
      saturatingSucc activation.bookkeeping.attempts = 2 ∧ _
    rcases hwait with ⟨hattempts, hrequeues, hway⟩ | ⟨hattempts, hrequeues, hway⟩
    · rw [hattempts, hway]
      exact .inl ⟨rfl, hrequeues, rfl⟩
    · rw [hattempts, hway]
      exact .inr ⟨rfl, hrequeues, rfl⟩
  obtain ⟨admittedAt, hat, hentry⟩ := h.dated activation List.mem_cons_self
  exact
    { order := hadmitted ▸ h.order
      waits := fun waits hrest => by
        rw [hmoves _ (hothers waits hrest)]
        exact h.waits waits (List.mem_cons_of_mem _ hrest)
      flies := fun flies hflying => by
        rw [← Option.some.inj hflying]
        change activation.attempt.Flies (movesOf activation.activationId _)
        rw [hown]
        exact hflies
      dated := fun dated hdated => by
        have hsome : ∀ line ∈ activation :: rest, ∃ admittedAt,
            line.bookkeeping.enqueuedAt = some admittedAt ∧
              .admitted line.activationId admittedAt ∈ past ++ [.committed delivered sessionId now] := by
          intro line hline
          obtain ⟨admittedAt, hat, hentry⟩ := h.dated line hline
          exact ⟨admittedAt, hat, List.mem_append_left _ hentry⟩
        rcases List.mem_cons.mp hdated with hhead | hrest
        · rw [hhead]
          exact hsome activation List.mem_cons_self
        · exact hsome dated (List.mem_cons_of_mem _ hrest)
      first := by
        have hfirst := h.first
        rw [hadmitted, firstCommits_append_committed, hid]
        rcases hwait with ⟨hattempts, -, hway⟩ | ⟨hattempts, -, hway⟩
        · rw [List.filter_cons_of_pos (by simp [Activation.isFirst, hattempts])] at hfirst
          rw [hway, if_neg (by simp)]
          simpa using hfirst
        · rw [List.filter_cons_of_neg (by simp [Activation.isFirst, hattempts])] at hfirst
          rw [hway, if_pos (by simp)]
          exact hfirst
      ways := fun id => by
        by_cases hsame : id = activation.activationId
        · rw [hsame, hown]
          rcases hwait with ⟨-, -, hway⟩ | ⟨-, -, hway⟩
          · rw [hway]
            exact ⟨[.requeued, .committed], rfl⟩
          · rw [hway]
            exact ⟨[], rfl⟩
        · rw [hmoves id hsame]
          exact h.ways id
      unknown := fun id hother => by
        rw [hadmitted] at hother
        rw [hmoves id (fun hsame => hother (hsame ▸ hmem))]
        exact h.unknown id hother
      timely := fun committed session commitAt hcommitted => by
        rcases List.mem_append.mp hcommitted with hold | hlast
        · obtain ⟨admittedAt, hentry, hlt⟩ := h.timely committed session commitAt hold
          exact ⟨admittedAt, List.mem_append_left _ hentry, hlt⟩
        · cases List.mem_singleton.mp hlast
          refine ⟨admittedAt, List.mem_append_left _ (hid ▸ hentry), ?_⟩
          simp only [Activation.isExpired, ActivationMeta.isExpired, hat, Option.any_some] at hfresh
          have hshort := of_decide_eq_false hfresh
          unfold Instant.since at hshort
          omega }

/-! ### Every run of sections -/

/-- What the run of sections keeps. -/
structure DeliveryInv (state : DeliveryState) (past : List Entry) : Prop where
  exclusive : state.Exclusive
  line : (admittedIds past).Nodup → LineInv state.flying state.waiting past

theorem enter_delivery {state : DeliveryState} (entry : Section × Instant) (h : DeliveryInv state past) :
    DeliveryInv (deliveryRuns.step state entry) (past ++ deliveryRuns.emit state entry) := by
  refine ⟨DeliveryState.enter_exclusive h.exclusive entry.1, fun hids => ?_⟩
  have hpast : (admittedIds past).Nodup := by
    rw [admittedIds_append] at hids
    exact (List.nodup_append.mp hids).1
  have hline := h.line hpast
  have hstep := DeliveryState.enter_line entry.2 h.exclusive entry.1
  change LineInv (state.enter entry.2 entry.1).flying (state.enter entry.2 entry.1).waiting
    (past ++ state.entriesOf entry.2 entry.1)
  change (admittedIds (past ++ state.entriesOf entry.2 entry.1)).Nodup at hids
  generalize state.enter entry.2 entry.1 = after at hstep ⊢
  generalize state.entriesOf entry.2 entry.1 = entries at hstep hids ⊢
  cases hstep with
  | quiet hwaiting hflying =>
      rw [List.append_nil]
      exact hline.fewer hwaiting hflying
  | opened target now hwaiting hflying =>
      exact (hline.fewer (by rw [hwaiting]) (.inr hflying)).opened target now
  | admitted activation now hbookkeeping hwaiting hflying =>
      rw [admittedIds_append] at hids
      have hnew : activation.activationId ∉ admittedIds past := fun hmem =>
        (List.nodup_append.mp hids).2.2 _ hmem _ (List.mem_singleton_self _) rfl
      exact (hline.admitted hbookkeeping hnew).fewer hwaiting (.inl hflying)
  | requeued activation hflown hunspent hwaiting hflying =>
      rw [hflown] at hline
      rw [hwaiting, hflying]
      exact hline.requeued hpast hunspent
  | committed activation delivered sessionId now hwaited hflown hflying hid hattempts hfresh =>
      rw [hwaited, hflown] at hline
      rw [hflying]
      exact hline.committed hpast hid hfresh

end Notifications

end ShishiTodo
