import Mathlib.Algebra.Order.Group.Multiset
import Mathlib.Tactic.Abel
import ShishiTodo.Notifications.Sections

/-!
# Every click is accounted for

Whatever the callers do and whatever the clock reads: an activation that was admitted waits in one place, or has one terminal record, and there are never more than eight that wait.
-/

namespace ShishiTodo

namespace Notifications

open Lib

/-! ### Where an activation is -/

namespace DeliveryState

/-- The ids of what waits, slot by slot. -/
def live (state : DeliveryState) : Multiset String :=
  (state.pending.map Activation.activationId : Multiset String) +
    (state.reserved.elim 0 fun reserved => {reserved.activation.activationId}) +
    state.inFlight.elim 0 fun inFlight => {inFlight.activation.activationId}

/-- The ids of the terminal records. -/
def ended (state : DeliveryState) : Multiset String := (state.audit.terminated.map Prod.fst : Multiset String)

/-- What `audit` checks. -/
structure Accounted (state : DeliveryState) : Prop where
  capacity : state.liveCount ≤ activationCapacity
  admitted : ∀ id ∈ state.live, id ∈ state.audit.admitted
  once : ∀ id ∈ state.audit.admitted,
    state.live.count id = 1 ∧ state.ended.count id = 0 ∨
      state.live.count id = 0 ∧ state.ended.count id = 1

/-- Activations move, and end. -/
structure Moved (before after : DeliveryState) : Prop where
  places : after.live + after.ended = before.live + before.ended
  admitted : after.audit.admitted = before.audit.admitted
  count : after.liveCount ≤ before.liveCount

variable {state before after : DeliveryState} {activation : Activation} {sessionId : String} {now : Instant}

theorem Moved.refl (state : DeliveryState) : Moved state state := ⟨rfl, rfl, le_refl _⟩

theorem Moved.trans {last : DeliveryState} (h : Moved before after) (hnext : Moved after last) :
    Moved before last :=
  ⟨hnext.places.trans h.places, hnext.admitted.trans h.admitted, hnext.count.trans h.count⟩

@[simp] theorem live_terminateAcked :
    (state.terminateAcked activation sessionId now).live = state.live := by
  simp only [live, terminateAcked]

@[simp] theorem ended_terminateAcked :
    (state.terminateAcked activation sessionId now).ended =
      state.ended + {activation.activationId} := by
  simp only [ended, terminateAcked, List.map_append, ← Multiset.coe_add]
  rfl

@[simp] theorem live_terminateRejected {code : RejectionCode} :
    (state.terminateRejected activation code sessionId now).live = state.live := by
  simp only [live, terminateRejected, pushRejection]

@[simp] theorem ended_terminateRejected {code : RejectionCode} :
    (state.terminateRejected activation code sessionId now).ended =
      state.ended + {activation.activationId} := by
  simp only [ended, terminateRejected, pushRejection, List.map_append, ← Multiset.coe_add]
  rfl

@[simp] theorem admitted_terminateAcked :
    (state.terminateAcked activation sessionId now).audit.admitted = state.audit.admitted := by
  simp only [terminateAcked]

@[simp] theorem admitted_terminateRejected {code : RejectionCode} :
    (state.terminateRejected activation code sessionId now).audit.admitted = state.audit.admitted := by
  simp only [terminateRejected, pushRejection]

@[simp] theorem liveCount_terminateAcked :
    (state.terminateAcked activation sessionId now).liveCount = state.liveCount := by
  simp only [liveCount, terminateAcked]

@[simp] theorem liveCount_terminateRejected {code : RejectionCode} :
    (state.terminateRejected activation code sessionId now).liveCount = state.liveCount := by
  simp only [liveCount, terminateRejected, pushRejection]

/-- The activation is in none of the slots of the state, and was in one of them before. -/
structure Taken (activation : Activation) (before left : DeliveryState) : Prop where
  live : before.live = left.live + {activation.activationId}
  ended : left.ended = before.ended
  admitted : left.audit.admitted = before.audit.admitted
  count : before.liveCount = left.liveCount + 1

theorem Taken.acked {left : DeliveryState} (h : Taken activation before left) :
    Moved before (left.terminateAcked activation sessionId now) := by
  refine ⟨?_, by simp [h.admitted], by simp [h.count]⟩
  rw [live_terminateAcked, ended_terminateAcked, h.ended, h.live]
  abel

theorem Taken.rejected {left : DeliveryState} {code : RejectionCode} (h : Taken activation before left) :
    Moved before (left.terminateRejected activation code sessionId now) := by
  refine ⟨?_, by simp [h.admitted], by simp [h.count]⟩
  rw [live_terminateRejected, ended_terminateRejected, h.ended, h.live]
  abel

/-- It comes into another slot. -/
theorem Taken.placed {left : DeliveryState} (h : Taken activation before left)
    (hlive : after.live = left.live + {activation.activationId}) (hended : after.ended = left.ended)
    (hadmitted : after.audit.admitted = left.audit.admitted) (hcount : after.liveCount = left.liveCount + 1) :
    Moved before after := by
  refine ⟨?_, hadmitted.trans h.admitted, ?_⟩
  · rw [hlive, hended, h.ended, h.live]
  · rw [hcount, h.count]

theorem taken_front {rest : List Activation} (hpending : state.pending = activation :: rest) :
    Taken activation state { state with pending := rest } := by
  refine ⟨?_, rfl, rfl, ?_⟩
  · simp only [live, hpending, List.map_cons, ← Multiset.cons_coe, ← Multiset.singleton_add]
    abel
  · simp only [liveCount, hpending, List.length_cons]
    omega

theorem taken_reserved {reserved : ReservedActivation} (hreserved : state.reserved = some reserved) :
    Taken reserved.activation state { state with reserved := none } := by
  refine ⟨?_, rfl, rfl, ?_⟩
  · simp only [live, hreserved, Option.elim]
    abel
  · simp only [liveCount, hreserved, Option.isSome_some, Option.isSome_none, Bool.toNat_true,
      Bool.toNat_false]
    omega

theorem taken_inFlight {inFlight : InFlightActivation} (hinFlight : state.inFlight = some inFlight) :
    Taken inFlight.activation state { state with inFlight := none } := by
  refine ⟨?_, rfl, rfl, ?_⟩
  · simp only [live, hinFlight, Option.elim]
    abel
  · simp only [liveCount, hinFlight, Option.isSome_some, Option.isSome_none, Bool.toNat_true,
      Bool.toNat_false, Nat.add_zero]

/-- It goes to the front of the queue, whatever else is written down. -/
theorem Taken.front {left : DeliveryState} {moved : Activation} (h : Taken activation before left)
    (hid : moved.activationId = activation.activationId)
    (hlive : after.live = { left with pending := moved :: left.pending }.live)
    (hended : after.ended = left.ended) (hadmitted : after.audit.admitted = left.audit.admitted)
    (hcount : after.liveCount = { left with pending := moved :: left.pending }.liveCount) :
    Moved before after := by
  refine h.placed ?_ hended hadmitted ?_
  · rw [hlive]
    simp only [DeliveryState.live, List.map_cons, hid, ← Multiset.cons_coe, ← Multiset.singleton_add]
    abel
  · rw [hcount]
    simp only [liveCount, List.length_cons]
    omega

theorem reserve_moved : Moved state (state.reserveForSession sessionId now).2 := by
  unfold reserveForSession
  split
  · exact Moved.refl state
  · rename_i hfree
    simp only [not_or, Option.not_isSome_iff_eq_none] at hfree
    obtain ⟨-, hinFlight, hreserved⟩ := hfree
    rcases hpending : state.pending with _ | ⟨activation, rest⟩
    · exact Moved.refl state
    · have htaken := taken_front hpending
      have hleft : Taken activation state ({ state with pending := rest }.forgetOpened now) :=
        ⟨htaken.live, htaken.ended, htaken.admitted, htaken.count⟩
      dsimp only
      split
      · exact hleft.acked
      · split
        · exact hleft.rejected
        · apply hleft.placed
          · simp only [live, forgetOpened, hreserved, hinFlight, Option.elim]
            abel
          · rfl
          · rfl
          · simp [liveCount, forgetOpened, hreserved, hinFlight]

theorem taken_released {ticket : UInt64} {reserved : ReservedActivation} {left : DeliveryState}
    (h : state.release ticket = some (reserved, left)) :
    state.reserved = some reserved ∧ left = { state with reserved := none } := by
  unfold release at h
  rcases hreserved : state.reserved with _ | found
  · rw [hreserved] at h
    cases h
  · rw [hreserved] at h
    dsimp only at h
    split at h
    · cases h
    · cases h
      exact ⟨rfl, rfl⟩

theorem deliver_moved {left : DeliveryState} (h : Taken activation before left) :
    Moved before (left.deliver activation sessionId now).2 := by
  unfold deliver
  split
  · exact h.rejected
  · split
    · exact h.rejected
    · split
      · exact h.front rfl rfl rfl rfl rfl
      · rename_i hfree
        simp only [not_or, Option.not_isSome_iff_eq_none] at hfree
        apply h.placed
        · simp only [live, hfree.2, Option.elim, Activation.attempt]
          abel
        · rfl
        · rfl
        · simp [liveCount, hfree.2]

theorem commit_moved {ticket : UInt64} {taskTitle : String} :
    Moved state (state.commitReservation ticket sessionId taskTitle now).2 := by
  unfold commitReservation
  rcases hrelease : state.release ticket with _ | ⟨reserved, left⟩
  · exact Moved.refl state
  · obtain ⟨hreserved, rfl⟩ := taken_released hrelease
    have htaken := taken_reserved hreserved
    dsimp only
    split
    · exact htaken.front rfl rfl rfl rfl rfl
    · exact deliver_moved ⟨htaken.live, htaken.ended, htaken.admitted, htaken.count⟩

theorem reject_moved {ticket : UInt64} {code : RejectionCode} :
    Moved state (state.rejectReservation ticket code now) := by
  unfold rejectReservation
  rcases hrelease : state.release ticket with _ | ⟨reserved, left⟩
  · exact Moved.refl state
  · obtain ⟨hreserved, rfl⟩ := taken_released hrelease
    exact (taken_reserved hreserved).rejected

theorem restore_moved {ticket : UInt64} : Moved state (state.restoreReservation ticket now) := by
  unfold restoreReservation
  rcases hrelease : state.release ticket with _ | ⟨reserved, left⟩
  · exact Moved.refl state
  · obtain ⟨hreserved, rfl⟩ := taken_released hrelease
    have htaken := taken_reserved hreserved
    dsimp only
    split
    · exact htaken.rejected
    · exact htaken.front rfl rfl rfl rfl rfl

theorem reload_moved : Moved state (state.reload now) := by
  unfold reload
  rcases hinFlight : state.inFlight with _ | inFlight
  · exact Moved.refl state
  · have htaken := taken_inFlight hinFlight
    dsimp only
    split
    · exact htaken.rejected
    · have hid : inFlight.activation.requeue.activationId = inFlight.activation.activationId := rfl
      exact htaken.front hid rfl rfl rfl rfl

theorem listenerReady_moved : Moved state (state.listenerReady sessionId now).2 := by
  have hsession : ∀ left : DeliveryState, Moved left { left with sessionId := some sessionId } :=
    fun left => ⟨rfl, rfl, le_refl _⟩
  unfold listenerReady
  split
  · exact Moved.refl state
  · dsimp only
    split
    · exact reload_moved.trans (hsession _)
    · exact hsession state

theorem acknowledge_moved {activationId outcome : String} :
    Moved state (state.acknowledge sessionId activationId outcome now).2 := by
  unfold acknowledge
  split
  · exact Moved.refl state
  · split
    · rename_i inFlight hinFlight
      split
      · exact Moved.refl state
      · have htaken := taken_inFlight hinFlight
        unfold finish
        exact Taken.acked ⟨htaken.live, htaken.ended, htaken.admitted, htaken.count⟩
    · split
      · exact Moved.refl state
      · exact ⟨rfl, rfl, le_refl _⟩

/-! ### Admission -/

/-- An activation that comes new. -/
structure Arrived (id : String) (before after : DeliveryState) : Prop where
  places : after.live + after.ended = before.live + before.ended + {id}
  admitted : after.audit.admitted = insert id before.audit.admitted
  count : before.liveCount ≤ activationCapacity → after.liveCount ≤ activationCapacity

theorem displace_moved : Moved state (state.displace now) := by
  unfold displace
  split
  · rcases hpending : state.pending with _ | ⟨victim, rest⟩
    · exact Moved.refl state
    · exact (taken_front hpending).rejected
  · exact Moved.refl state

theorem put_arrived : Arrived activation.activationId state (state.put activation now) := by
  have hdisplaced : Moved _ (displace now
      { state with
        audit := { state.audit with admitted := insert activation.activationId state.audit.admitted } }) :=
    displace_moved
  unfold put enqueue
  dsimp only
  split
  · refine ⟨?_, ?_, fun hcount => ?_⟩
    · rw [live_terminateRejected, ended_terminateRejected, ← add_assoc, hdisplaced.places]
      rfl
    · rw [admitted_terminateRejected, hdisplaced.admitted]
    · rw [liveCount_terminateRejected]
      exact hdisplaced.count.trans hcount
  · rename_i hroom
    refine ⟨?_, hdisplaced.admitted, fun _ => ?_⟩
    · have hplaces := hdisplaced.places
      simp only [live, ended, List.map_append, ← Multiset.coe_add, List.map_cons, List.map_nil,
        Multiset.coe_singleton] at hplaces ⊢
      rw [← hplaces]
      abel
    · simp only [liveCount, List.length_append, List.length_singleton] at hroom ⊢
      omega

end DeliveryState

/-! ### Every run -/

/-- The activation a section admits. -/
def Section.admits : Section → Option String
  | .put activation => some activation.activationId
  | _ => none

/-- What the sections keep: an id that was admitted is once in a place or in a record, and no other is. -/
structure LedgerInv (state : DeliveryState) : Prop where
  places : state.live + state.ended = state.audit.admitted.val
  capacity : state.liveCount ≤ activationCapacity

section Runs

open DeliveryState

variable {state : DeliveryState}

theorem LedgerInv.moved {next : DeliveryState} (h : LedgerInv state) (hmoved : Moved state next) :
    LedgerInv next :=
  ⟨by rw [hmoved.places, hmoved.admitted, h.places], hmoved.count.trans h.capacity⟩

theorem LedgerInv.arrived {id : String} {next : DeliveryState} (h : LedgerInv state)
    (harrived : Arrived id state next) (hnew : id ∉ state.audit.admitted) : LedgerInv next := by
  refine ⟨?_, harrived.count h.capacity⟩
  rw [harrived.places, harrived.admitted, h.places, Finset.insert_val_of_notMem hnew,
    ← Multiset.singleton_add, add_comm]

/-- What a section does, by whether it admits an activation. -/
theorem enter_effect (state : DeliveryState) (now : Instant) (step : Section) :
    match step.admits with
    | none => Moved state (state.enter now step)
    | some id => Arrived id state (state.enter now step) := by
  cases step with
  | put activation => exact put_arrived
  | listenerReady sessionId => exact listenerReady_moved
  | reserve sessionId => exact reserve_moved
  | commit ticket sessionId taskTitle => exact commit_moved
  | reject ticket code => exact reject_moved
  | restore ticket => exact restore_moved
  | acknowledge sessionId activationId outcome => exact acknowledge_moved

theorem enter_ledger (h : LedgerInv state) (entry : Section × Instant)
    (hnew : ∀ id, entry.1.admits = some id → id ∉ state.audit.admitted) :
    LedgerInv (deliveryRuns.step state entry) := by
  have heffect := enter_effect state entry.2 entry.1
  rcases hadmits : entry.1.admits with _ | id
  · rw [hadmits] at heffect
    exact h.moved heffect
  · rw [hadmits] at heffect
    exact h.arrived heffect (hnew id hadmits)

theorem enter_admitted (state : DeliveryState) (entry : Section × Instant) (id : String) :
    id ∈ (deliveryRuns.step state entry).audit.admitted ↔
      id ∈ entry.1.admits.toList ∨ id ∈ state.audit.admitted := by
  have heffect := enter_effect state entry.2 entry.1
  change id ∈ (state.enter entry.2 entry.1).audit.admitted ↔ _
  rcases hadmits : entry.1.admits with _ | other
  · rw [hadmits] at heffect
    rw [Moved.admitted heffect]
    simp
  · rw [hadmits] at heffect
    rw [Arrived.admitted heffect, Finset.mem_insert]
    simp

theorem LedgerInv.accounted (h : LedgerInv state) : state.Accounted where
  capacity := h.capacity
  admitted := fun id hid => by
    rw [← Finset.mem_val, ← h.places]
    exact Multiset.mem_add.mpr (.inl hid)
  once := fun id hid => by
    have hcount := Multiset.count_eq_one_of_mem state.audit.admitted.nodup (Finset.mem_val.mpr hid)
    rw [← h.places, Multiset.count_add] at hcount
    omega

/-- The ids of what is put, in order. -/
def admissions (entries : List (Section × Instant)) : List String :=
  entries.filterMap fun entry => entry.1.admits

theorem admissions_cons (entry : Section × Instant) (rest : List (Section × Instant)) :
    admissions (entry :: rest) = entry.1.admits.toList ++ admissions rest := by
  unfold admissions
  rw [List.filterMap_cons]
  rcases entry.1.admits with _ | id
  · rfl
  · rfl

theorem run_ledger {entries : List (Section × Instant)} (h : LedgerInv state)
    (hids : (admissions entries).Nodup) (hnew : ∀ id ∈ admissions entries, id ∉ state.audit.admitted) :
    LedgerInv (deliveryRuns.run state entries) ∧
      ∀ id, id ∈ (deliveryRuns.run state entries).audit.admitted ↔
        id ∈ admissions entries ∨ id ∈ state.audit.admitted := by
  induction entries generalizing state with
  | nil => exact ⟨h, fun id => by simp [admissions]⟩
  | cons entry rest ih =>
      rw [admissions_cons] at hids hnew ⊢
      obtain ⟨-, hrest, hapart⟩ := List.nodup_append.mp hids
      have hstep : LedgerInv (deliveryRuns.step state entry) := by
        apply enter_ledger h
        intro id hid
        exact hnew id (by simp [hid])
      have hleft : ∀ id ∈ admissions rest, id ∉ (deliveryRuns.step state entry).audit.admitted := by
        intro id hid hold
        rcases (enter_admitted state entry id).mp hold with hentry | hbefore
        · exact hapart id hentry id hid rfl
        · exact hnew id (List.mem_append_right _ hid) hbefore
      obtain ⟨hinv, hadmitted⟩ := ih hstep hrest hleft
      refine ⟨hinv, fun id => ?_⟩
      rw [Machine.run_cons, hadmitted, enter_admitted, List.mem_append]
      tauto

/-- Whatever the callers do, in whatever order and with whatever readings: the activations that were put are accounted for. -/
theorem notifications_accounted (entries : List (Section × Instant)) (hids : (admissions entries).Nodup) :
    (deliveryRuns.run .initial entries).Accounted ∧
      ∀ id, id ∈ (deliveryRuns.run .initial entries).audit.admitted ↔ id ∈ admissions entries := by
  have hinit : LedgerInv .initial := ⟨rfl, Nat.zero_le _⟩
  obtain ⟨hinv, hadmitted⟩ := run_ledger hinit hids fun _ _ hold => by cases hold
  refine ⟨hinv.accounted, fun id => ?_⟩
  rw [hadmitted]
  simp [DeliveryState.initial]

end Runs

/-- A delivery whose acknowledgement is lost with a reload, a restored reservation, and a late acknowledgement. -/
def lostAcknowledgement : List (Section × Instant) :=
  [(.put (clickOf "a" "t1"), 0), (.put (clickOf "b" "t2"), 1), (.listenerReady "s1", 2),
    (.reserve "s1", 3), (.commit 0 "s1" "Milk", 4), (.listenerReady "s2", 5), (.reserve "s2", 6),
    (.restore 1, 7), (.acknowledge "s1" "a" "opened", 8)]

theorem lostAcknowledgement_accounted :
    (deliveryRuns.run .initial lostAcknowledgement).Accounted ∧
      ∀ id, id ∈ (deliveryRuns.run .initial lostAcknowledgement).audit.admitted ↔
        id ∈ admissions lostAcknowledgement :=
  notifications_accounted lostAcknowledgement (by decide)

end Notifications

end ShishiTodo
