import Mathlib.Data.List.Nodup
import ShishiTodo.Lib.Except

/-!
# Operations that may be refused

A queue of operations worked off over a state. One that is refused leaves the state as it is and gets a reason. Without the refused ones the queue ends in the same state and nothing is refused; over related states it meets the same refusals.
-/

namespace Lib

variable {σ τ ω ρ : Type}

/-- The last state, and what was refused on the way. -/
def workOff (step : σ → ω → Except ρ σ) : σ → List ω → σ × List (ω × ρ)
  | state, [] => (state, [])
  | state, op :: rest =>
      match step state op with
      | .ok next => workOff step next rest
      | .error reason => ((workOff step state rest).1, (op, reason) :: (workOff step state rest).2)

section

variable {step : σ → ω → Except ρ σ} {state : σ} {op : ω} {ops : List ω}

theorem workOff_ok {next : σ} (h : step state op = .ok next) :
    workOff step state (op :: ops) = workOff step next ops := by
  rw [workOff, h]

theorem workOff_error {reason : ρ} (h : step state op = .error reason) :
    workOff step state (op :: ops) = ((workOff step state ops).1, (op, reason) :: (workOff step state ops).2) := by
  rw [workOff, h]

theorem refused_sublist (step : σ → ω → Except ρ σ) (state : σ) (ops : List ω) :
    ((workOff step state ops).2.map Prod.fst).Sublist ops := by
  induction ops generalizing state with
  | nil => exact .slnil
  | cons op rest ih =>
      cases hstep : step state op with
      | ok next =>
          rw [workOff_ok hstep]
          exact (ih next).cons op
      | error reason =>
          rw [workOff_error hstep]
          exact (ih state).cons_cons op

/-- The queue again, where what was refused is gone or without effect. -/
theorem workOff_remaining {again : ω → Option ω} (hnodup : ops.Nodup)
    (hkept : ∀ op ∈ ops, op ∉ (workOff step state ops).2.map Prod.fst → again op = some op)
    (hrefused : ∀ op ∈ (workOff step state ops).2.map Prod.fst,
      ∀ other, again op = some other → ∀ state, step state other = .ok state) :
    workOff step state (ops.filterMap again) = ((workOff step state ops).1, []) := by
  induction ops generalizing state with
  | nil => rfl
  | cons op rest ih =>
      obtain ⟨hnotin, hnodup⟩ := List.nodup_cons.mp hnodup
      cases hstep : step state op with
      | ok next =>
          rw [workOff_ok hstep] at hkept hrefused ⊢
          have hop : op ∉ (workOff step next rest).2.map Prod.fst :=
            fun hmem => hnotin ((refused_sublist step next rest).subset hmem)
          rw [List.filterMap_cons_some (hkept op List.mem_cons_self hop), workOff_ok hstep]
          exact ih hnodup (fun other hother => hkept other (List.mem_cons_of_mem op hother)) hrefused
      | error reason =>
          rw [workOff_error hstep] at hkept hrefused ⊢
          have hrest : workOff step state (rest.filterMap again) = ((workOff step state rest).1, []) := by
            refine ih hnodup (fun other hother hunrefused => ?_)
              (fun other hother => hrefused other (List.mem_cons_of_mem op hother))
            refine hkept other (List.mem_cons_of_mem op hother) fun hmem => ?_
            rcases List.mem_cons.mp hmem with rfl | hmem
            · exact hnotin hother
            · exact hunrefused hmem
          cases hagain : again op with
          | none =>
              rw [List.filterMap_cons_none hagain]
              exact hrest
          | some other =>
              rw [List.filterMap_cons_some hagain, workOff_ok (hrefused op List.mem_cons_self other hagain state)]
              exact hrest

/-- A queue of which nothing is refused, cut where it has come to. -/
theorem workOff_append (h : (workOff step state ops).2 = []) (rest : List ω) :
    workOff step state (ops ++ rest) = workOff step (workOff step state ops).1 rest := by
  induction ops generalizing state with
  | nil => rfl
  | cons op others ih =>
      cases hstep : step state op with
      | ok next =>
          rw [workOff_ok hstep] at h
          rw [List.cons_append, workOff_ok hstep, workOff_ok hstep]
          exact ih h
      | error reason =>
          rw [workOff_error hstep] at h
          cases h

/-- Operations without effect. -/
theorem workOff_idle (h : ∀ op ∈ ops, step state op = .ok state) : workOff step state ops = (state, []) := by
  induction ops with
  | nil => rfl
  | cons op rest ih =>
      rw [workOff_ok (h op List.mem_cons_self)]
      exact ih fun other hother => h other (List.mem_cons_of_mem op hother)

end

/-- Over related states a queue comes to related states, with the same refusals. -/
theorem workOff_related {related : σ → τ → Prop} {step : σ → ω → Except ρ σ} {other : τ → ω → Except ρ τ}
    (hstep : ∀ left right op, related left right → Alike related (step left op) (other right op))
    {left : σ} {right : τ} (h : related left right) (ops : List ω) :
    related (workOff step left ops).1 (workOff other right ops).1 ∧
      (workOff step left ops).2 = (workOff other right ops).2 := by
  induction ops generalizing left right with
  | nil => exact ⟨h, rfl⟩
  | cons op rest ih =>
      have halike := hstep left right op h
      cases hleft : step left op with
      | ok nextLeft =>
          cases hright : other right op with
          | ok nextRight =>
              rw [hleft, hright] at halike
              rw [workOff_ok hleft, workOff_ok hright]
              exact ih halike
          | error reason =>
              rw [hleft, hright] at halike
              exact halike.elim
      | error reason =>
          cases hright : other right op with
          | ok nextRight =>
              rw [hleft, hright] at halike
              exact halike.elim
          | error otherReason =>
              rw [hleft, hright] at halike
              have hreason : reason = otherReason := halike
              obtain ⟨hrelated, hrefused⟩ := ih h
              rw [workOff_error hleft, workOff_error hright, hreason, hrefused]
              exact ⟨hrelated, rfl⟩

end Lib
