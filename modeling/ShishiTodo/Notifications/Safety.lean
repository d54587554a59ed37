import Mathlib.Data.List.Perm.Basic
import ShishiTodo.Notifications.Callers

/-!
# Safe delivery

A listener gets an activation at most twice, in the order of admission and in time, and no target again soon after it was opened, although the clock is read before the lock is taken and the validation runs without it.
-/

namespace ShishiTodo

namespace Notifications

open Lib

/-! ### Reading a log backwards -/

/-- How often something was opened. -/
def openings (log : List Entry) : Nat :=
  log.countP fun
    | .opened _ _ => true
    | _ => false

@[simp] theorem openings_append (first second : List Entry) :
    openings (first ++ second) = openings first + openings second := List.countP_append

theorem openings_eq_zero {log : List Entry} (h : ∀ target now, .opened target now ∉ log) : openings log = 0 := by
  apply List.countP_eq_zero.mpr
  intro entry hentry hopened
  cases entry with
  | opened target now => exact h target now hentry
  | admitted activationId now => cases hopened
  | committed activation sessionId now => cases hopened
  | requeued activationId => cases hopened

/-! ### What was opened -/

/-- A target that was opened is still kept, behind what was opened after it, or is old. -/
def Kept (clock : Instant) (completed : List CompletedActivation) (target : NotificationTargetV1)
    (openedAt : Instant) (later : Nat) : Prop :=
  openedAt + duplicateTargetTtl ≤ clock ∨
    ∃ older newer, completed = older ++ ⟨targetKey target, openedAt⟩ :: newer ∧ newer.length ≤ later

/-- Who is about to deliver the target again found it old, and reads the clock later than that. -/
def Known (world : World) (target : NotificationTargetV1) (openedAt : Instant) : Prop :=
  ∀ reserved, world.state.reserved = some reserved →
    targetKey reserved.activation.target = targetKey target →
    openedAt + duplicateTargetTtl ≤ world.clock ∧
      ∀ call ∈ world.calls, call.1.ticket.isSome → openedAt + duplicateTargetTtl ≤ call.2

variable {clock later : Nat} {now openedAt : Instant} {completed : List CompletedActivation}
  {target : NotificationTargetV1} {state : DeliveryState}

theorem Kept.mono {next : Instant} (h : Kept clock completed target openedAt later) (hle : clock ≤ next) :
    Kept next completed target openedAt later := h.imp (fun hold => hold.trans hle) id

/-- What is forgotten is old. -/
theorem Kept.forget (h : Kept clock state.completed target openedAt later) (hreading : now ≤ clock) :
    Kept clock (state.forgetOpened now).completed target openedAt later := by
  obtain hold | ⟨older, newer, hcompleted, hnewer⟩ := h
  · exact .inl hold
  · by_cases hfresh : now.since openedAt < duplicateTargetTtl
    · have hleft : (state.forgetOpened now).completed =
          ({ state with completed := older }.forgetOpened now).completed ++
            ⟨targetKey target, openedAt⟩ :: ({ state with completed := newer }.forgetOpened now).completed := by
        simp only [DeliveryState.forgetOpened, hcompleted, List.filter_append, List.filter_cons, hfresh,
          decide_true, if_true]
      exact .inr ⟨_, _, hleft, (List.length_filter_le _ _).trans hnewer⟩
    · have hpositive : 0 < duplicateTargetTtl := by decide
      unfold Instant.since at hfresh
      have hold : openedAt + duplicateTargetTtl ≤ now := by
        change (_ : Nat) ≤ _
        omega
      exact .inl (hold.trans hreading)

theorem popFrontTo_split {α : Type} {capacity : Nat} {newer : List α} (older : List α) (kept : α)
    (hroom : newer.length < capacity) :
    popFrontTo capacity (older ++ kept :: newer) =
      older.drop (older.length + newer.length + 1 - capacity) ++ kept :: newer := by
  unfold popFrontTo
  rw [List.drop_append_of_le_length]
  · simp only [List.length_append, List.length_cons]
    rfl
  · simp only [List.length_append, List.length_cons]
    omega

/-- One more is opened. -/
theorem Kept.push {last : CompletedActivation} (h : Kept clock completed target openedAt later)
    (hroom : later + 1 < completedTargetCapacity) :
    Kept clock (popFrontTo completedTargetCapacity (completed ++ [last])) target openedAt (later + 1) := by
  obtain hold | ⟨older, newer, hcompleted, hnewer⟩ := h
  · exact .inl hold
  · have hlength : (newer ++ [last]).length ≤ later + 1 := by
      simp only [List.length_append, List.length_singleton]
      omega
    have hsplit := popFrontTo_split older ⟨targetKey target, openedAt⟩
      (Nat.lt_of_le_of_lt hlength hroom)
    rw [hcompleted, List.append_assoc, List.cons_append, hsplit]
    exact .inr ⟨_, _, rfl, hlength⟩

theorem Kept.opened :
    Kept clock (popFrontTo completedTargetCapacity (completed ++ [⟨targetKey target, openedAt⟩])) target
      openedAt 0 :=
  .inr ⟨_, [], popFrontTo_split _ _ (by decide), le_refl _⟩

/-- What a reservation did not find among the opened targets is old. -/
theorem Kept.old {reserved : NotificationTargetV1} (h : Kept clock state.completed target openedAt later)
    (hkey : targetKey reserved = targetKey target) (hnew : state.opened reserved = false) :
    openedAt + duplicateTargetTtl ≤ clock := by
  obtain hold | ⟨older, newer, hcompleted, -⟩ := h
  · exact hold
  · have hopened : state.opened reserved = true := by
      unfold DeliveryState.opened
      rw [hcompleted]
      simp [hkey]
    rw [hnew] at hopened
    cases hopened

/-! ### Tickets -/

def ticketsOf (calls : List (Section × Instant)) : List UInt64 := calls.filterMap fun call => call.1.ticket

@[simp] theorem ticketsOf_append (first second : List (Section × Instant)) :
    ticketsOf (first ++ second) = ticketsOf first ++ ticketsOf second := List.filterMap_append

@[simp] theorem ticketsOf_cons (call : Section × Instant) (rest : List (Section × Instant)) :
    ticketsOf (call :: rest) = call.1.ticket.toList ++ ticketsOf rest := by
  unfold ticketsOf
  rw [List.filterMap_cons]
  rcases call.1.ticket with _ | ticket
  · rfl
  · rfl

@[simp] theorem ticketsOf_nil : ticketsOf [] = [] := rfl

/-- The tickets that are still to be settled. -/
def World.outstanding (world : World) : List UInt64 :=
  world.holders.map Prod.fst ++ ticketsOf world.calls

/-- What the callers keep. -/
structure CallersInv (world : World) (past : List Entry) : Prop where
  exclusive : world.state.Exclusive
  readings : ∀ call ∈ world.calls, call.2 ≤ world.clock
  tickets : world.outstanding.Perm (world.state.reserved.toList.map ReservedActivation.ticket)
  kept : ∀ earlier target openedAt later, past = earlier ++ .opened target openedAt :: later →
    openings later < completedTargetCapacity →
    Kept world.clock world.state.completed target openedAt (openings later) ∧ Known world target openedAt
  apart : ∀ earlier target openedAt between activation sessionId now later,
    past = earlier ++ .opened target openedAt :: (between ++ .committed activation sessionId now :: later) →
    targetKey activation.target = targetKey target → openings between < completedTargetCapacity →
    openedAt + duplicateTargetTtl ≤ now

variable {world : World} {past : List Entry}

/-- A caller reads the clock. -/
theorem CallersInv.reads (h : CallersInv world past) (elapsed : Nat) (step : Section)
    (holders : List (UInt64 × String))
    (htickets : (holders.map Prod.fst ++ (ticketsOf world.calls ++ step.ticket.toList)).Perm
      world.outstanding) :
    CallersInv
      { world with
        clock := world.clock + elapsed
        holders := holders
        calls := world.calls ++ [(step, world.clock + elapsed)] } past := by
  have hlater : world.clock ≤ world.clock + elapsed := Nat.le_add_right _ _
  exact
    { exclusive := h.exclusive
      readings := fun call hcall => by
        rcases List.mem_append.mp hcall with hold | hlast
        · exact (h.readings call hold).trans hlater
        · rw [List.mem_singleton.mp hlast]
      tickets := by
        refine List.Perm.trans ?_ h.tickets
        refine List.Perm.trans ?_ htickets
        simp [World.outstanding]
      kept := fun earlier target openedAt later hpast hroom => by
        obtain ⟨hkept, hknown⟩ := h.kept earlier target openedAt later hpast hroom
        refine ⟨hkept.mono hlater, fun reserved hreserved hkey => ?_⟩
        obtain ⟨hold, hcalls⟩ := hknown reserved hreserved hkey
        refine ⟨hold.trans hlater, fun call hcall hticket => ?_⟩
        rcases List.mem_append.mp hcall with hbefore | hlast
        · exact hcalls call hbefore hticket
        · rw [List.mem_singleton.mp hlast]
          exact hold.trans hlater
      apart := h.apart }

theorem calls_perm {index : Nat} {calls : List (Section × Instant)} {call : Section × Instant}
    (hcall : calls[index]? = some call) :
    (ticketsOf (call :: calls.eraseIdx index)).Perm (ticketsOf calls) := by
  obtain ⟨hindex, hget⟩ := List.getElem?_eq_some_iff.mp hcall
  rw [← hget]
  exact (List.getElem_cons_eraseIdx_perm hindex).filterMap _

/-- The tickets that are still to be settled are those of the reservation, before a section and after it. -/
theorem slots_tickets {before after : DeliveryState} {step : Section} {entries : List Entry}
    {granted : List (UInt64 × String)} {holders : List (UInt64 × String)} {calls : List (Section × Instant)}
    (hslots : SlotStep now before after step entries granted)
    (htickets : (step.ticket.toList ++ (holders.map Prod.fst ++ ticketsOf calls)).Perm
      (before.reserved.toList.map ReservedActivation.ticket)) :
    ((holders ++ granted).map Prod.fst ++ ticketsOf calls).Perm
      (after.reserved.toList.map ReservedActivation.ticket) := by
  cases hslots with
  | kept _ hticket hreserved hinFlight hcompleted hplain =>
      rw [List.append_nil, hreserved]
      rcases hstep : step.ticket with _ | ticket
      · simpa [hstep] using htickets
      · rw [hstep] at htickets
        have hmem := htickets.subset List.mem_cons_self
        obtain ⟨reserved, hreserved, hsame⟩ := List.mem_map.mp hmem
        exact absurd hsame (hticket reserved ticket (Option.mem_toList.mp hreserved) hstep)
  | reserved reserved hticket hfree hreserved hinFlight hcompleted hnew =>
      rw [hticket, hfree.1] at htickets
      have hnone := List.append_eq_nil_iff.mp htickets.eq_nil
      obtain ⟨hholders, hcalls⟩ := List.append_eq_nil_iff.mp hnone.2
      rw [hreserved, List.map_append, hholders, hcalls]
      rfl
  | settled reserved _ hticket hreserved hreleased hcompleted hentries =>
      rw [hticket, hreserved] at htickets
      have hnone : holders.map Prod.fst ++ ticketsOf calls = [] := (List.Perm.cons_inv htickets).eq_nil
      rw [List.append_nil, hnone, hreleased]
      rfl
  | opened inFlight hticket hinFlight hended hreserved hcompleted =>
      rw [List.append_nil, hreserved]
      simpa [hticket] using htickets

/-- What a section does to a target that was opened before. -/
theorem slots_kept_before {before after : DeliveryState} {step : Section} {entries : List Entry}
    {granted : List (UInt64 × String)} (hslots : SlotStep now before after step entries granted)
    (hreading : now ≤ clock) (hkept : Kept clock before.completed target openedAt later)
    (hroom : later + openings entries < completedTargetCapacity) :
    Kept clock after.completed target openedAt (later + openings entries) := by
  cases hslots with
  | kept _ hticket hreserved hinFlight hcompleted hplain =>
      rw [openings_eq_zero fun target now hentry => hplain _ hentry]
      rcases hcompleted with hsame | hforgot
      · rwa [hsame]
      · rw [hforgot]
        exact hkept.forget hreading
  | reserved reserved hticket hfree hreserved hinFlight hcompleted hnew =>
      rw [hcompleted]
      exact hkept.forget hreading
  | settled reserved _ hticket hreserved hreleased hcompleted hentries =>
      have hnone : openings entries = 0 := by
        rcases hentries with rfl | ⟨activation, sessionId, -, -, -, rfl⟩
        · rfl
        · rfl
      rw [hnone, hcompleted]
      exact hkept
  | opened inFlight hticket hinFlight hended hreserved hcompleted =>
      rw [hcompleted]
      exact hkept.push hroom

/-- The section that opens a target. -/
theorem slots_opened (clock : Nat) {before after : DeliveryState} {step : Section} {entries earlier rest : List Entry}
    {granted : List (UInt64 × String)} (hslots : SlotStep now before after step entries granted)
    (hexclusive : before.Exclusive) (hentries : entries = earlier ++ .opened target openedAt :: rest) :
    rest = [] ∧ Kept clock after.completed target openedAt 0 ∧ after.reserved = none := by
  have hmem : .opened target openedAt ∈ entries := by
    rw [hentries]
    exact List.mem_append_right _ List.mem_cons_self
  cases hslots with
  | kept _ hticket hreserved hinFlight hcompleted hplain => exact (hplain _ hmem).elim
  | reserved reserved hticket hfree hreserved hinFlight hcompleted hnew => cases hmem
  | settled reserved _ hticket hreserved hreleased hcompleted hcommitted =>
      rcases hcommitted with rfl | ⟨activation, sessionId, -, -, -, rfl⟩
      · cases hmem
      · cases List.mem_singleton.mp hmem
  | opened inFlight hticket hinFlight hended hreserved hcompleted =>
      obtain ⟨rfl, hrest⟩ := List.append_eq_singleton_iff.mp hentries.symm |>.resolve_right (by simp)
      obtain ⟨hentry, rfl⟩ := List.cons.inj hrest
      obtain ⟨rfl, rfl⟩ := Entry.opened.inj hentry
      refine ⟨rfl, ?_, ?_⟩
      · rw [hcompleted]
        exact Kept.opened
      · rw [hreserved]
        rcases hbefore : before.reserved with _ | reserved
        · rfl
        · have hfree := hexclusive (by rw [hbefore]; rfl)
          rw [hinFlight] at hfree
          cases hfree

/-- The section that delivers an activation. -/
theorem slots_committed {before after : DeliveryState} {step : Section} {entries earlier rest : List Entry}
    {granted : List (UInt64 × String)} {activation : Activation} {sessionId : String} {committedAt : Instant}
    (hslots : SlotStep now before after step entries granted)
    (hentries : entries = earlier ++ .committed activation sessionId committedAt :: rest) :
    earlier = [] ∧ committedAt = now ∧ before.sessionId = some sessionId ∧ before.inFlight = none ∧
      ∃ reserved, before.reserved = some reserved ∧ step.ticket = some reserved.ticket ∧
        activation.target = reserved.activation.target := by
  have hmem : .committed activation sessionId committedAt ∈ entries := by
    rw [hentries]
    exact List.mem_append_right _ List.mem_cons_self
  cases hslots with
  | kept _ hticket hreserved hinFlight hcompleted hplain => exact (hplain _ hmem).elim
  | reserved reserved hticket hfree hreserved hinFlight hcompleted hnew => cases hmem
  | settled reserved _ hticket hreserved hreleased hcompleted hcommitted =>
      rcases hcommitted with rfl | ⟨delivered, session, htarget, hsession, hfree, rfl⟩
      · cases hmem
      · obtain ⟨rfl, rfl, rfl⟩ := Entry.committed.inj (List.mem_singleton.mp hmem)
        obtain ⟨rfl, -⟩ := List.append_eq_singleton_iff.mp hentries.symm |>.resolve_right (by simp)
        exact ⟨rfl, rfl, hsession, hfree, reserved, hreserved, hticket, htarget⟩
  | opened inFlight hticket hinFlight hended hreserved hcompleted => cases List.mem_singleton.mp hmem

/-- Without a reservation nobody has a ticket. -/
theorem CallersInv.unheld (h : CallersInv world past) (hfree : world.state.reserved = none) :
    ∀ call ∈ world.calls, call.1.ticket = none := by
  intro call hcall
  have htickets := h.tickets
  rw [hfree] at htickets
  have hnone := (List.append_eq_nil_iff.mp htickets.eq_nil).2
  rcases hticket : call.1.ticket with _ | ticket
  · rfl
  · have hmem : ticket ∈ ticketsOf world.calls := List.mem_filterMap.mpr ⟨call, hcall, hticket⟩
    rw [hnone] at hmem
    cases hmem

/-- What a caller finds when it gets the lock. -/
theorem CallersInv.enters {index : Nat} {call : Section × Instant} (h : CallersInv world past)
    (hcall : world.calls[index]? = some call) :
    CallersInv
      { world with
        state := world.state.enter call.2 call.1
        calls := world.calls.eraseIdx index
        holders := world.holders ++ world.state.grants call.2 call.1 }
      (past ++ world.state.entriesOf call.2 call.1) := by
  have hmem : call ∈ world.calls := List.mem_of_getElem? hcall
  have hreading := h.readings call hmem
  have hleft : ∀ other ∈ world.calls.eraseIdx index, other ∈ world.calls := fun _ hother =>
    List.mem_of_mem_eraseIdx hother
  have htickets : (call.1.ticket.toList ++ (world.holders.map Prod.fst ++
      ticketsOf (world.calls.eraseIdx index))).Perm
      (world.state.reserved.toList.map ReservedActivation.ticket) := by
    refine List.Perm.trans ?_ h.tickets
    rw [← List.append_assoc]
    refine (List.perm_append_comm.append_right _).trans ?_
    rw [List.append_assoc, ← ticketsOf_cons]
    exact (calls_perm hcall).append_left _
  have hslots := DeliveryState.enter_slots world.state call.2 call.1
  have hexclusive := DeliveryState.slots_exclusive hslots h.exclusive
  generalize world.state.enter call.2 call.1 = after at hslots hexclusive ⊢
  generalize world.state.entriesOf call.2 call.1 = entries at hslots ⊢
  generalize world.state.grants call.2 call.1 = granted at hslots ⊢
  refine
    { exclusive := hexclusive
      readings := fun other hother => h.readings other (hleft other hother)
      tickets := ?_
      kept := fun earlier target openedAt later hpast hroom => ?_
      apart := fun earlier target openedAt between activation sessionId now later hpast hkey hroom => ?_ }
  · exact slots_tickets hslots htickets
  · obtain ⟨between, rfl, hold⟩ | ⟨before, hearlier, hentries⟩ := append_split hpast
    · rw [openings_append] at hroom ⊢
      have hbetween : openings between < completedTargetCapacity :=
        Nat.lt_of_le_of_lt (Nat.le_add_right _ _) hroom
      obtain ⟨hkept, hknown⟩ := h.kept earlier target openedAt between hold hbetween
      have hafter := slots_kept_before hslots hreading hkept hroom
      refine ⟨hafter, ?_⟩
      intro reserved hreserved hkey
      cases hslots with
      | kept _ hticket hsame hinFlight hcompleted hplain =>
          obtain ⟨hclock, hcalls⟩ := hknown reserved (hsame ▸ hreserved) hkey
          exact ⟨hclock, fun other hother => hcalls other (hleft other hother)⟩
      | reserved granted hticket hfree hgranted hinFlight hcompleted hnew =>
          obtain rfl := Option.some.inj (hgranted.symm.trans hreserved)
          refine ⟨hafter.old hkey hnew, fun other hother hsome => ?_⟩
          rw [h.unheld hfree.1 other (hleft other hother)] at hsome
          cases hsome
      | settled released _ hticket hbefore hreleased hcompleted hentries =>
          rw [hreleased] at hreserved
          cases hreserved
      | opened inFlight hticket hinFlight hended hsame hcompleted =>
          obtain ⟨hclock, hcalls⟩ := hknown reserved (hsame ▸ hreserved) hkey
          exact ⟨hclock, fun other hother => hcalls other (hleft other hother)⟩
    · obtain ⟨rfl, hkept, hnone⟩ := slots_opened world.clock hslots h.exclusive hentries
      refine ⟨hkept, fun reserved hreserved => ?_⟩
      rw [hnone] at hreserved
      cases hreserved
  · rw [← List.cons_append, ← List.append_assoc] at hpast
    obtain ⟨rest, hlater, hold⟩ | ⟨before, hearlier, hentries⟩ := append_split hpast
    · apply h.apart earlier target openedAt between activation sessionId now rest _ hkey hroom
      rw [hold, List.append_assoc, List.cons_append]
    · obtain ⟨rfl, rfl, -, -, reserved, hreserved, hticket, htarget⟩ := slots_committed hslots hentries
      rw [List.append_nil] at hearlier
      obtain ⟨-, hknown⟩ := h.kept earlier target openedAt between hearlier.symm hroom
      obtain ⟨-, hcalls⟩ := hknown reserved hreserved (htarget ▸ hkey)
      exact hcalls call hmem (by rw [hticket]; rfl)

theorem step_callers (event : Event) (h : CallersInv world past) :
    CallersInv (worldRuns.step world event) (past ++ worldRuns.emit world event) := by
  cases event with
  | call step elapsed =>
      simp only [worldRuns, List.append_nil]
      split
      · exact h
      · rename_i hfree
        apply h.reads elapsed step world.holders
        rw [Option.not_isSome_iff_eq_none.mp hfree]
        simp [World.outstanding]
  | settle index verdict elapsed =>
      simp only [worldRuns, List.append_nil]
      split
      · exact h
      · rename_i holder hholder
        apply h.reads elapsed (verdict.settles holder) (world.holders.eraseIdx index)
        have hticket : (verdict.settles holder).ticket = some holder.1 := by
          cases verdict with
          | ready taskTitle => rfl
          | refused code => rfl
          | panicked => rfl
        obtain ⟨hindex, hget⟩ := List.getElem?_eq_some_iff.mp hholder
        have hperm := (List.getElem_cons_eraseIdx_perm hindex).map Prod.fst
        rw [hget] at hperm
        unfold World.outstanding
        refine List.Perm.trans ?_ (hperm.append_right _)
        rw [hticket, List.map_cons, ← List.append_assoc]
        exact List.perm_append_singleton _ _
  | enter index =>
      simp only [worldRuns]
      split
      · rw [List.append_nil]
        exact h
      · rename_i call hcall
        exact h.enters hcall

/-! ### Safety -/

/-- What a log tells of safe deliveries. -/
structure SafeLog (log : List Entry) : Prop where
  /-- At most two commits of an activation, and a reload between them. -/
  ways : ∀ activationId, movesOf activationId log <+: fullDelivery
  timely : ∀ activation sessionId now admittedAt, .committed activation sessionId now ∈ log →
    .admitted activation.activationId admittedAt ∈ log → now < admittedAt + activationTtl
  inOrder : (firstCommits log).Sublist (admittedIds log)
  apart : ∀ earlier target openedAt between activation sessionId now later,
    log = earlier ++ .opened target openedAt :: (between ++ .committed activation sessionId now :: later) →
    targetKey activation.target = targetKey target → openings between < completedTargetCapacity →
    openedAt + duplicateTargetTtl ≤ now

/-- An id that was admitted once was admitted at one time. -/
theorem admitted_once {log : List Entry} {activationId : String} {first second : Instant}
    (hids : (admittedIds log).Nodup) (hfirst : .admitted activationId first ∈ log)
    (hsecond : .admitted activationId second ∈ log) : first = second := by
  induction log with
  | nil => cases hfirst
  | cons entry rest ih =>
      have hcons : admittedIds (entry :: rest) = entry.admission.toList ++ admittedIds rest := by
        unfold admittedIds
        rw [List.filterMap_cons]
        rcases entry.admission with _ | id
        · rfl
        · rfl
      rw [hcons] at hids
      have hapart : ∀ now, entry = .admitted activationId now → ∀ other,
          .admitted activationId other ∉ rest := by
        rintro now rfl other hother
        exact (List.nodup_append.mp hids).2.2 activationId (List.mem_singleton_self _) activationId
          (mem_admittedIds.mpr ⟨other, hother⟩) rfl
      rcases List.mem_cons.mp hfirst with hhead | hrest
      · rcases List.mem_cons.mp hsecond with hother | hother
        · exact (Entry.admitted.inj (hhead.trans hother.symm)).2
        · exact absurd hother (hapart first hhead.symm second)
      · rcases List.mem_cons.mp hsecond with hother | hother
        · exact absurd hrest (hapart second hother.symm first)
        · exact ih (List.nodup_append.mp hids).2.1 hrest hother

theorem world_invariants (clock : Instant) (events : List Event) :
    DeliveryInv (worldRuns.run (.initial clock) events).state (worldRuns.trace (.initial clock) events) ∧
      CallersInv (worldRuns.run (.initial clock) events) (worldRuns.trace (.initial clock) events) := by
  have hdelivery : DeliveryInv (World.initial clock).state [] := by
    refine ⟨fun _ => rfl, fun _ => ?_⟩
    exact
      { order := List.Sublist.refl _
        waits := fun _ hmem => by cases hmem
        flies := fun _ hmem => by cases hmem
        dated := fun _ hmem => by cases hmem
        first := List.Sublist.refl _
        ways := fun _ => List.nil_prefix
        unknown := fun _ _ => rfl
        timely := fun _ _ _ hmem => by cases hmem }
  have hcallers : CallersInv (World.initial clock) [] :=
    { exclusive := fun _ => rfl
      readings := fun _ hmem => by cases hmem
      tickets := List.Perm.refl _
      kept := fun earlier _ _ _ hpast => by cases earlier <;> cases hpast
      apart := fun earlier _ _ _ _ _ _ _ hpast => by cases earlier <;> cases hpast }
  exact worldRuns.invariant (fun world past => DeliveryInv world.state past ∧ CallersInv world past)
    (fun world past event h => ⟨world_delivery event h.1, step_callers event h.2⟩) ⟨hdelivery, hcallers⟩ events

/-- A commit is for the registered session, and nothing is in flight before it. -/
theorem emit_committed {event : Event} {activation : Activation} {sessionId : String} {now : Instant}
    (h : .committed activation sessionId now ∈ worldRuns.emit world event) :
    world.state.sessionId = some sessionId ∧ world.state.inFlight = none := by
  obtain ⟨call, -, hemit⟩ | ⟨-, hemit⟩ := world_section world event
  · rw [hemit] at h
    obtain ⟨before, after, hentries⟩ := List.append_of_mem h
    obtain ⟨-, -, hsession, hfree, -⟩ :=
      slots_committed (DeliveryState.enter_slots world.state call.2 call.1) hentries
    exact ⟨hsession, hfree⟩
  · rw [hemit] at h
    cases h

/-- Whatever the callers do, in whatever order they get the lock after they have read the clock: the deliveries are safe, and each is for the session that is registered. -/
theorem delivery_safe (clock : Instant) (events : List Event)
    (hids : (admittedIds (worldRuns.trace (.initial clock) events)).Nodup) :
    SafeLog (worldRuns.trace (.initial clock) events) ∧
      ∀ earlier event later, events = earlier ++ event :: later → ∀ activation sessionId now,
        .committed activation sessionId now ∈ worldRuns.emit (worldRuns.run (.initial clock) earlier) event →
        (worldRuns.run (.initial clock) earlier).state.sessionId = some sessionId ∧
          (worldRuns.run (.initial clock) earlier).state.inFlight = none := by
  obtain ⟨hdelivery, hcallers⟩ := world_invariants clock events
  have hline := hdelivery.line hids
  refine ⟨⟨hline.ways, ?_, ?_, hcallers.apart⟩, fun _ _ _ _ _ _ _ => emit_committed⟩
  · intro activation sessionId now admittedAt hcommitted hadmitted
    obtain ⟨other, hother, hlt⟩ := hline.timely activation sessionId now hcommitted
    rwa [admitted_once hids hadmitted hother]
  · exact (List.sublist_append_left _ _).trans hline.first

/-- Two clicks, a delivery that a reload takes back, a validation that panics, and the second delivery of the first click. -/
def interruptedDelivery : List Event :=
  [.call (.put (clickOf "a" "t1")) 0, .call (.put (clickOf "b" "t2")) 1, .call (.listenerReady "s1") 1,
    .enter 0, .enter 0, .enter 0, .call (.reserve "s1") 1, .enter 0, .settle 0 (.ready "Milk") 5, .enter 0,
    .call (.listenerReady "s2") 1, .enter 0, .call (.reserve "s2") 0, .enter 0, .settle 0 .panicked 2, .enter 0,
    .call (.reserve "s2") 0, .enter 0, .settle 0 (.ready "Milk") 3, .enter 0,
    .call (.acknowledge "s2" "a" "opened") 7, .enter 0]

theorem interruptedDelivery_safe :
    SafeLog (worldRuns.trace (.initial 7) interruptedDelivery) ∧
      ∀ earlier event later, interruptedDelivery = earlier ++ event :: later →
        ∀ activation sessionId now,
        .committed activation sessionId now ∈ worldRuns.emit (worldRuns.run (.initial 7) earlier) event →
        (worldRuns.run (.initial 7) earlier).state.sessionId = some sessionId ∧
          (worldRuns.run (.initial 7) earlier).state.inFlight = none :=
  delivery_safe 7 interruptedDelivery (by decide)

end Notifications

end ShishiTodo
