import Mathlib.Logic.Basic

/-!
# Runs of a machine

A machine takes events one after another; an event that is not enabled leaves the state alone. Each step may also emit records, and a run collects them in order. An invariant ties the state to what was emitted so far: it is proved once, for one step, and the rules of this module carry it through every run, or through every run whose steps meet a condition.
-/

namespace Lib

/-- An entry of a log that grew is an old one or a new one. -/
theorem append_split {τ : Type*} {past entries earlier later : List τ} {entry : τ}
    (h : past ++ entries = earlier ++ entry :: later) :
    (∃ between, later = between ++ entries ∧ past = earlier ++ entry :: between) ∨
      ∃ before, earlier = past ++ before ∧ entries = before ++ entry :: later := by
  obtain ⟨before, hearlier, hentries⟩ | ⟨rest, hpast, hrest⟩ := List.append_eq_append_iff.mp h
  · exact .inr ⟨before, hearlier, hentries⟩
  · rcases rest with _ | ⟨head, between⟩
    · refine .inr ⟨[], by simpa using hpast.symm, ?_⟩
      simpa using hrest.symm
    · obtain ⟨rfl, hlater⟩ := List.cons.inj hrest
      exact .inl ⟨between, hlater, hpast⟩

/-- What an event does to a state, and the records it emits there. -/
structure Machine (σ ε τ : Type*) where
  step : σ → ε → σ
  emit : σ → ε → List τ

namespace Machine

variable {σ ε τ : Type*} (machine : Machine σ ε τ)

/-- The state after the events. -/
def run : σ → List ε → σ
  | state, [] => state
  | state, event :: rest => run (machine.step state event) rest

/-- The records emitted along the events. -/
def trace : σ → List ε → List τ
  | _, [] => []
  | state, event :: rest => machine.emit state event ++ trace (machine.step state event) rest

/-- Every step of the run meets the condition, in the state it is taken from. -/
def Along (condition : σ → ε → Prop) : σ → List ε → Prop
  | _, [] => True
  | state, event :: rest => condition state event ∧ Along condition (machine.step state event) rest

instance decidableAlong (condition : σ → ε → Prop) [∀ state event, Decidable (condition state event)] :
    ∀ (state : σ) (events : List ε), Decidable (machine.Along condition state events)
  | _, [] => .isTrue trivial
  | state, event :: rest =>
      have := decidableAlong condition (machine.step state event) rest
      inferInstanceAs (Decidable (condition state event ∧
        machine.Along condition (machine.step state event) rest))

@[simp] theorem run_nil (state : σ) : machine.run state [] = state := rfl

@[simp] theorem run_cons (state : σ) (event : ε) (rest : List ε) :
    machine.run state (event :: rest) = machine.run (machine.step state event) rest := rfl

@[simp] theorem trace_nil (state : σ) : machine.trace state [] = [] := rfl

@[simp] theorem trace_cons (state : σ) (event : ε) (rest : List ε) :
    machine.trace state (event :: rest) =
      machine.emit state event ++ machine.trace (machine.step state event) rest := rfl

theorem run_append (state : σ) (first second : List ε) :
    machine.run state (first ++ second) = machine.run (machine.run state first) second := by
  induction first generalizing state with
  | nil => rfl
  | cons event rest ih => exact ih (machine.step state event)

/-- The condition holds of a run in two parts when it holds of each. -/
theorem along_append {condition : σ → ε → Prop} {second : List ε} :
    ∀ (first : List ε) (state : σ), machine.Along condition state (first ++ second) ↔
      machine.Along condition state first ∧ machine.Along condition (machine.run state first) second
  | [], _ => ⟨fun h => ⟨trivial, h⟩, And.right⟩
  | event :: rest, state => by
      rw [List.cons_append, Along, Along, run_cons, along_append rest (machine.step state event), and_assoc]

/-- The condition holds along a run when it holds wherever the run gets. -/
theorem along_iff {condition : σ → ε → Prop} {state : σ} {events : List ε} :
    machine.Along condition state events ↔ ∀ before event after, events = before ++ event :: after →
      condition (machine.run state before) event := by
  constructor
  · rintro halong before event after rfl
    exact ((machine.along_append before state).mp halong).2.1
  · intro hevery
    induction events generalizing state with
    | nil => trivial
    | cons event rest ih =>
        refine ⟨hevery [] event rest rfl, ih fun before other after hrest => ?_⟩
        exact hevery (event :: before) other after (by rw [hrest]; rfl)

theorem along_mono {condition weaker : σ → ε → Prop}
    (himp : ∀ state event, condition state event → weaker state event) :
    ∀ (events : List ε) (state : σ),
      machine.Along condition state events → machine.Along weaker state events
  | [], _, _ => trivial
  | event :: rest, state, halong =>
      ⟨himp state event halong.1, along_mono himp rest (machine.step state event) halong.2⟩

/-- Two conditions that say the same wherever the invariant holds say the same of a run. The invariant need only survive the steps that meet them. -/
theorem along_congr {condition other : σ → ε → Prop} (inv : σ → Prop)
    (hstep : ∀ state event, inv state → other state event → inv (machine.step state event))
    (hiff : ∀ state event, inv state → (condition state event ↔ other state event)) :
    ∀ (events : List ε) (state : σ), inv state →
      (machine.Along condition state events ↔ machine.Along other state events)
  | [], _, _ => Iff.rfl
  | event :: rest, state, hinv => by
      rw [Along, Along, hiff state event hinv]
      apply and_congr_right
      intro hother
      exact along_congr inv hstep hiff rest (machine.step state event) (hstep state event hinv hother)

/-- The invariant rule, for runs whose steps meet a condition: what holds of the state and the records so far, and survives every step that meets the condition, holds at the end. -/
theorem invariant_along (condition : σ → ε → Prop) (inv : σ → List τ → Prop)
    (hstep : ∀ state past event, inv state past → condition state event →
      inv (machine.step state event) (past ++ machine.emit state event)) :
    ∀ (events : List ε) (state : σ) (past : List τ), inv state past →
      machine.Along condition state events →
      inv (machine.run state events) (past ++ machine.trace state events)
  | [], state, past, hinv, _ => by
      simpa using hinv
  | event :: rest, state, past, hinv, halong => by
      have hnext := hstep state past event hinv halong.1
      have hrest := invariant_along condition inv hstep rest _ _ hnext halong.2
      rwa [List.append_assoc] at hrest

/-- The invariant rule for all runs. -/
theorem invariant (inv : σ → List τ → Prop)
    (hstep : ∀ state past event, inv state past →
      inv (machine.step state event) (past ++ machine.emit state event))
    {state : σ} (hinit : inv state []) (events : List ε) :
    inv (machine.run state events) (machine.trace state events) := by
  have halong : ∀ (events : List ε) (state : σ),
      machine.Along (fun _ _ => True) state events := by
    intro events
    induction events with
    | nil => exact fun _ => trivial
    | cons event rest ih => exact fun state => ⟨trivial, ih (machine.step state event)⟩
  simpa using machine.invariant_along (fun _ _ => True) inv
    (fun state past event hinv _ => hstep state past event hinv) events state [] hinit
    (halong events state)

theorem forall_trace_iff {good : τ → Prop} : ∀ {state : σ} {events : List ε},
    (∀ record ∈ machine.trace state events, good record) ↔
      machine.Along (fun state event => ∀ record ∈ machine.emit state event, good record) state events
  | _, [] => by simp [Along]
  | state, event :: rest => by
      rw [trace_cons, List.forall_mem_append, Along, forall_trace_iff]

end Machine

end Lib
