import Mathlib.Logic.Basic

/-!
# Fallible code

Inversion rules for code written in `Except`: a sequence that succeeds took every step with success, and a guard that succeeds was not met.
-/

namespace Lib

variable {ε α β : Type}

/-- Fails with the error when the condition holds. -/
def refuseIf (condition : Prop) [Decidable condition] (error : ε) : Except ε Unit :=
  if condition then .error error else .ok ()

@[simp] theorem refuseIf_eq_ok_iff {condition : Prop} [Decidable condition] {error : ε} {done : Unit} :
    refuseIf condition error = .ok done ↔ ¬ condition := by
  by_cases h : condition <;> simp [refuseIf, h]

theorem refuseIf_eq_error {condition : Prop} [Decidable condition] {refusal error : ε}
    (h : refuseIf condition refusal = .error error) : error = refusal := by
  by_cases hcondition : condition
  · simpa [refuseIf, hcondition] using h.symm
  · simp [refuseIf, hcondition] at h

theorem ok_bind (value : α) (rest : α → Except ε β) : (Except.ok value >>= rest) = rest value := rfl

theorem bind_eq_ok_iff {first : Except ε α} {rest : α → Except ε β} {result : β} :
    (first >>= rest) = .ok result ↔ ∃ value, first = .ok value ∧ rest value = .ok result := by
  cases first with
  | error error => simp [bind, Except.bind]
  | ok value => simp [bind, Except.bind]

theorem bind_eq_error_iff {first : Except ε α} {rest : α → Except ε β} {error : ε} :
    (first >>= rest) = .error error ↔
      first = .error error ∨ ∃ value, first = .ok value ∧ rest value = .error error := by
  cases first with
  | error error => simp [bind, Except.bind]
  | ok value => simp [bind, Except.bind]

theorem ite_error_eq_ok_iff {condition : Prop} [Decidable condition] {error : ε}
    {rest : Except ε α} {result : α} :
    (if condition then .error error else rest) = .ok result ↔ ¬ condition ∧ rest = .ok result := by
  by_cases h : condition <;> simp [h]

theorem map_eq_ok_iff {convert : α → β} {value : Except ε α} {result : β} :
    value.map convert = .ok result ↔ ∃ found, value = .ok found ∧ convert found = result := by
  cases value with
  | error error => simp [Except.map]
  | ok found => simp [Except.map]

/-- A loop that succeeds keeps what every round keeps. The invariant sees the items that are still to come. -/
theorem foldlM_induction {step : β → α → Except ε β} (inv : List α → β → Prop)
    (hstep : ∀ item rest state next, inv (item :: rest) state → step state item = .ok next →
      inv rest next) :
    ∀ {items : List α} {state final : β}, inv items state → items.foldlM step state = .ok final →
      inv [] final
  | [], state, final, hinv, h => by
      cases h
      exact hinv
  | item :: rest, state, final, hinv, h => by
      rw [List.foldlM_cons] at h
      obtain ⟨next, hnext, hrest⟩ := bind_eq_ok_iff.mp h
      exact foldlM_induction inv hstep (hstep item rest state next hinv hnext) hrest

/-- What no round changes is the same at the end. -/
theorem foldlM_same {γ : Type} {step : β → α → Except ε β} {read : β → γ}
    (hstep : ∀ item state next, step state item = .ok next → read next = read state) {items : List α}
    {state final : β} (h : items.foldlM step state = .ok final) : read final = read state :=
  foldlM_induction (fun _ reached => read reached = read state)
    (fun item _ reached next hreached hnext => (hstep item reached next hnext).trans hreached) rfl h

/-- What a list is read as was read from one of its items. -/
theorem exists_of_mem_mapM {f : α → Option β} : ∀ {items : List α} {results : List β},
    items.mapM f = some results → ∀ result ∈ results, ∃ item ∈ items, f item = some result
  | [], results, h, result, hmem => by
      rw [List.mapM_nil] at h
      cases h
      cases hmem
  | item :: rest, results, h, result, hmem => by
      rw [List.mapM_cons] at h
      obtain ⟨first, hfirst, htail⟩ := Option.bind_eq_some_iff.mp h
      obtain ⟨others, hothers, hdone⟩ := Option.bind_eq_some_iff.mp htail
      cases hdone
      rcases List.mem_cons.mp hmem with rfl | hrest
      · exact ⟨item, List.mem_cons_self, hfirst⟩
      · obtain ⟨found, hfound, hread⟩ := exists_of_mem_mapM hothers result hrest
        exact ⟨found, List.mem_cons_of_mem _ hfound, hread⟩

/-! ### Two runs of the same code -/

variable {α₁ α₂ β₁ β₂ : Type}

/-- Both fail with the same error, or both succeed with related values. -/
def Alike (related : α₁ → α₂ → Prop) : Except ε α₁ → Except ε α₂ → Prop
  | .ok left, .ok right => related left right
  | .error left, .error right => left = right
  | _, _ => False

theorem alike_refl {related : α → α → Prop} (hrefl : ∀ value, related value value)
    (result : Except ε α) : Alike related result result := by
  cases result with
  | error error => exact rfl
  | ok value => exact hrefl value

theorem Alike.bind {related : α₁ → α₂ → Prop} {later : β₁ → β₂ → Prop} {left : Except ε α₁}
    {right : Except ε α₂} {leftRest : α₁ → Except ε β₁} {rightRest : α₂ → Except ε β₂}
    (h : Alike related left right)
    (hrest : ∀ first second, related first second → Alike later (leftRest first) (rightRest second)) :
    Alike later (left >>= leftRest) (right >>= rightRest) := by
  cases left with
  | error error =>
      cases right with
      | error other => exact h
      | ok value => exact h.elim
  | ok first =>
      cases right with
      | error other => exact h.elim
      | ok second => exact hrest first second h

/-- The same check on both sides, passed or failed together. -/
theorem Alike.bind_same {later : β₁ → β₂ → Prop} (check : Except ε α) {leftRest : α → Except ε β₁}
    {rightRest : α → Except ε β₂} (hrest : ∀ value, Alike later (leftRest value) (rightRest value)) :
    Alike later (check >>= leftRest) (check >>= rightRest) := by
  apply Alike.bind (alike_refl (fun _ => rfl) check)
  rintro value _ rfl
  exact hrest value

theorem alike_ite_error {related : α₁ → α₂ → Prop} {condition : Prop} [Decidable condition]
    {error : ε} {left : Except ε α₁} {right : Except ε α₂} (h : ¬ condition → Alike related left right) :
    Alike related (if condition then .error error else left)
      (if condition then .error error else right) := by
  by_cases hcondition : condition
  · rw [if_pos hcondition, if_pos hcondition]
    exact rfl
  · rw [if_neg hcondition, if_neg hcondition]
    exact h hcondition

/-- The left one fails with the given error, unless both fail with the same one before. -/
def FailsAs (error : ε) (left : Except ε α₁) (right : Except ε α₂) : Prop :=
  left = .error error ∨ ∃ other, left = .error other ∧ right = .error other

theorem FailsAs.bind_same {error : ε} (check : Except ε α) {leftRest : α → Except ε β₁}
    {rightRest : α → Except ε β₂} (hrest : ∀ value, FailsAs error (leftRest value) (rightRest value)) :
    FailsAs error (check >>= leftRest) (check >>= rightRest) := by
  cases check with
  | error other => exact Or.inr ⟨other, rfl, rfl⟩
  | ok value => exact hrest value

/-- The right one fails wherever the left one does, with the same error. -/
def FailsWith (left : Except ε α₁) (right : Except ε α₂) : Prop :=
  ∀ error, left = .error error → right = .error error

theorem failsWith_ok (value : α₁) (right : Except ε α₂) : FailsWith (.ok value) right := by
  intro error h
  cases h

theorem failsWith_error (error : ε) :
    FailsWith (.error error : Except ε α₁) (.error error : Except ε α₂) := by
  intro other h
  cases h
  rfl

theorem FailsWith.bind_same (check : Except ε α) {leftRest : α → Except ε β₁}
    {rightRest : α → Except ε β₂} (hrest : ∀ value, FailsWith (leftRest value) (rightRest value)) :
    FailsWith (check >>= leftRest) (check >>= rightRest) := by
  cases check with
  | error other => exact failsWith_error other
  | ok value => exact hrest value

end Lib
