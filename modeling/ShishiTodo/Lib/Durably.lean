import Mathlib.Logic.Basic

/-!
# Programs over durable state

A program that changes durable state step by step. The environment decides at every step whether it happens, whether it fails with an error the program sees, or whether the process dies before it; what the earlier steps did stays. A program is a function of the state and of what the environment will decide, so the rules of this module speak about every interruption at once, and a program can also be run on a given one.
-/

namespace Lib

/-- What the environment decides about the next durable step. -/
inductive Fault where
  | none
  | crash
  | fail
  deriving DecidableEq, Repr

inductive Ending (ε α : Type) where
  | done (value : α)
  | failed (error : ε)
  | crashed
  deriving DecidableEq, Repr

/-- A program: how it ends, the durable state it leaves, and the decisions it did not use up. With no decisions left nothing goes wrong. -/
def Durably (σ ε α : Type) : Type := σ → List Fault → Ending ε α × σ × List Fault

namespace Durably

variable {σ τ ε α β : Type}

def pure (value : α) : Durably σ ε α := fun state faults => (.done value, state, faults)

def bind (program : Durably σ ε α) (rest : α → Durably σ ε β) : Durably σ ε β := fun state faults =>
  match program state faults with
  | (.done value, next, left) => rest value next left
  | (.failed error, next, left) => (.failed error, next, left)
  | (.crashed, next, left) => (.crashed, next, left)

instance : Monad (Durably σ ε) where
  pure := Durably.pure
  bind := Durably.bind

/-- Reads the durable state. -/
def get : Durably σ ε σ := fun state faults => (.done state, state, faults)

def throw (error : ε) : Durably σ ε α := fun state faults => (.failed error, state, faults)

/-- The outcome of code that touches no durable state. -/
def ofExcept : Except ε α → Durably σ ε α
  | .ok value => pure value
  | .error error => throw error

/-- One durable step. -/
def step (change : σ → σ) (error : ε) : Durably σ ε Unit := fun state faults =>
  match faults with
  | [] => (.done (), change state, [])
  | .none :: left => (.done (), change state, left)
  | .fail :: left => (.failed error, state, left)
  | .crash :: left => (.crashed, state, left)

/-- The program where the condition holds, and nothing otherwise. -/
def when (condition : Prop) [Decidable condition] (program : Durably σ ε Unit) : Durably σ ε Unit :=
  if condition then program else pure ()

/-- A change of what the program keeps in memory. Nothing can go wrong with it. -/
def modify (change : σ → σ) : Durably σ ε Unit := fun state faults => (.done (), change state, faults)

/-- The program without its value. -/
def void (program : Durably σ ε α) : Durably σ ε Unit := fun state faults =>
  match program state faults with
  | (.done _, next, left) => (.done (), next, left)
  | (.failed error, next, left) => (.failed error, next, left)
  | (.crashed, next, left) => (.crashed, next, left)

/-- Hands an error back as a value. A crash stays a crash. -/
def attempt (program : Durably σ ε α) : Durably σ ε (Except ε α) := fun state faults =>
  match program state faults with
  | (.done value, next, left) => (.done (.ok value), next, left)
  | (.failed error, next, left) => (.done (.error error), next, left)
  | (.crashed, next, left) => (.crashed, next, left)

/-- Goes on whether or not the program met an error. -/
def ignore (program : Durably σ ε α) : Durably σ ε Unit := fun state faults =>
  match program state faults with
  | (.done _, next, left) => (.done (), next, left)
  | (.failed _, next, left) => (.done (), next, left)
  | (.crashed, next, left) => (.crashed, next, left)

/-- The program on one part of a larger state. -/
def zoom (part : σ → τ) (replace : τ → σ → σ) (program : Durably τ ε α) : Durably σ ε α :=
  fun state faults =>
    match program (part state) faults with
    | (ending, next, left) => (ending, replace next state, left)

/-- The program with a variable beside the durable state. An error is handed back as a value, and the variable with it. -/
def attemptWith (start : τ) (program : Durably (σ × τ) ε α) : Durably σ ε (Except ε α × τ) :=
  fun state faults =>
    match program (state, start) faults with
    | (.done value, next, left) => (.done (.ok value, next.2), next.1, left)
    | (.failed error, next, left) => (.done (.error error, next.2), next.1, left)
    | (.crashed, next, left) => (.crashed, next.1, left)

/-- What holds of the ending, the state and the decisions left after the program. -/
def Meets (program : Durably σ ε α) (state : σ) (faults : List Fault)
    (post : Ending ε α → σ → List Fault → Prop) : Prop :=
  post (program state faults).1 (program state faults).2.1 (program state faults).2.2

theorem bind_assoc {γ : Type} (program : Durably σ ε α) (next : α → Durably σ ε β)
    (rest : β → Durably σ ε γ) :
    (program >>= next) >>= rest = program >>= fun value => next value >>= rest := by
  funext state faults
  change Durably.bind (Durably.bind program next) rest state faults =
    Durably.bind program (fun value => Durably.bind (next value) rest) state faults
  rcases h : program state faults with ⟨ending, reached, left⟩
  cases ending with
  | done value => simp only [Durably.bind, h]
  | failed error => simp only [Durably.bind, h]
  | crashed => simp only [Durably.bind, h]

section Rules

variable {post weaker : Ending ε α → σ → List Fault → Prop} {state : σ} {faults : List Fault}

theorem Meets.mono {program : Durably σ ε α} (h : program.Meets state faults post)
    (himp : ∀ ending next left, post ending next left → weaker ending next left) :
    program.Meets state faults weaker :=
  himp _ _ _ h

@[simp] theorem meets_pure {value : α} :
    Meets (Pure.pure value : Durably σ ε α) state faults post ↔ post (.done value) state faults :=
  Iff.rfl

@[simp] theorem meets_get {post : Ending ε σ → σ → List Fault → Prop} :
    Meets (get : Durably σ ε σ) state faults post ↔ post (.done state) state faults :=
  Iff.rfl

@[simp] theorem meets_throw {error : ε} :
    Meets (throw error : Durably σ ε α) state faults post ↔ post (.failed error) state faults :=
  Iff.rfl

@[simp] theorem meets_ofExcept {result : Except ε α} :
    Meets (ofExcept result : Durably σ ε α) state faults post ↔
      match result with
      | .ok value => post (.done value) state faults
      | .error error => post (.failed error) state faults := by
  cases result with
  | ok value => exact Iff.rfl
  | error error => exact Iff.rfl

/-- A sequence: what the first part leaves is where the rest starts, unless the first part did not come to its end. -/
theorem meets_bind {program : Durably σ ε α} {rest : α → Durably σ ε β}
    {post : Ending ε β → σ → List Fault → Prop} :
    Meets (program >>= rest) state faults post ↔
      program.Meets state faults fun ending next left =>
        match ending with
        | .done value => (rest value).Meets next left post
        | .failed error => post (.failed error) next left
        | .crashed => post .crashed next left := by
  unfold Meets
  change post (Durably.bind program rest state faults).1 (Durably.bind program rest state faults).2.1
    (Durably.bind program rest state faults).2.2 ↔ _
  rcases h : program state faults with ⟨ending, next, left⟩
  cases ending with
  | done value => simp only [Durably.bind, h]
  | failed error => simp only [Durably.bind, h]
  | crashed => simp only [Durably.bind, h]

/-- One step: it happens, or the state stays. -/
theorem meets_step {change : σ → σ} {error : ε} {post : Ending ε Unit → σ → List Fault → Prop}
    (hdone : ∀ left, (left ≠ [] → faults = .none :: left) → post (.done ()) (change state) left)
    (hfailed : ∀ left, faults = .fail :: left → post (.failed error) state left)
    (hcrashed : ∀ left, faults = .crash :: left → post .crashed state left) :
    (step change error).Meets state faults post := by
  match faults with
  | [] => exact hdone [] fun h => absurd rfl h
  | .none :: left => exact hdone left fun _ => rfl
  | .fail :: left => exact hfailed left rfl
  | .crash :: left => exact hcrashed left rfl

theorem meets_attempt {program : Durably σ ε α} {post : Ending ε (Except ε α) → σ → List Fault → Prop} :
    (attempt program).Meets state faults post ↔
      program.Meets state faults fun ending next left =>
        match ending with
        | .done value => post (.done (.ok value)) next left
        | .failed error => post (.done (.error error)) next left
        | .crashed => post .crashed next left := by
  unfold Meets attempt
  rcases h : program state faults with ⟨ending, next, left⟩
  cases ending with
  | done value => simp
  | failed error => simp
  | crashed => simp

theorem meets_ignore {program : Durably σ ε α} {post : Ending ε Unit → σ → List Fault → Prop} :
    (ignore program).Meets state faults post ↔
      program.Meets state faults fun ending next left =>
        match ending with
        | .done _ => post (.done ()) next left
        | .failed _ => post (.done ()) next left
        | .crashed => post .crashed next left := by
  unfold Meets ignore
  rcases h : program state faults with ⟨ending, next, left⟩
  cases ending with
  | done value => simp
  | failed error => simp
  | crashed => simp

/-- What does not speak of the value holds without it. -/
theorem Meets.void {program : Durably σ ε α} {post : σ → List Fault → Prop}
    (h : program.Meets state faults fun _ next left => post next left) :
    (Durably.void program).Meets state faults fun _ next left => post next left := by
  unfold Meets Durably.void at *
  rcases hprogram : program state faults with ⟨ending, next, left⟩
  rw [hprogram] at h
  cases ending with
  | done value => exact h
  | failed error => exact h
  | crashed => exact h

theorem meets_get_bind {rest : σ → Durably σ ε β} {post : Ending ε β → σ → List Fault → Prop}
    (h : (rest state).Meets state faults post) :
    ((get : Durably σ ε σ) >>= rest).Meets state faults post :=
  h

/-- What the first part reaches and the rest keeps. -/
theorem Meets.bind {program : Durably σ ε α} {rest : α → Durably σ ε β} {post : σ → List Fault → Prop}
    (h : program.Meets state faults fun _ next left => post next left)
    (hrest : ∀ value next left, post next left →
      (rest value).Meets next left fun _ next left => post next left) :
    (program >>= rest).Meets state faults fun _ next left => post next left := by
  apply meets_bind.mpr
  apply h.mono
  intro ending next left hnext
  cases ending with
  | done value => exact hrest value next left hnext
  | failed error => exact hnext
  | crashed => exact hnext

theorem meets_ofExcept_bind {result : Except ε α} {rest : α → Durably σ ε β}
    {post : Ending ε β → σ → List Fault → Prop}
    (hok : ∀ value, result = .ok value → (rest value).Meets state faults post)
    (herror : ∀ error, result = .error error → post (.failed error) state faults) :
    (ofExcept result >>= rest).Meets state faults post := by
  rw [meets_bind, meets_ofExcept]
  cases result with
  | ok value => exact hok value rfl
  | error error => exact herror error rfl

section Steps

variable {change : σ → σ} {error : ε} {post : Ending ε β → σ → List Fault → Prop}

theorem meets_step_bind {rest : Unit → Durably σ ε β}
    (hdone : ∀ left, (left ≠ [] → faults = .none :: left) → (rest ()).Meets (change state) left post)
    (hfailed : ∀ left, faults = .fail :: left → post (.failed error) state left)
    (hcrashed : ∀ left, faults = .crash :: left → post .crashed state left) :
    (step change error >>= rest).Meets state faults post :=
  meets_bind.mpr (meets_step hdone hfailed hcrashed)

theorem meets_attempt_step_bind {rest : Except ε Unit → Durably σ ε β}
    (hdone : ∀ left, (left ≠ [] → faults = .none :: left) →
      (rest (.ok ())).Meets (change state) left post)
    (hfailed : ∀ left, faults = .fail :: left → (rest (.error error)).Meets state left post)
    (hcrashed : ∀ left, faults = .crash :: left → post .crashed state left) :
    (attempt (step change error) >>= rest).Meets state faults post :=
  meets_bind.mpr (meets_attempt.mpr (meets_step hdone hfailed hcrashed))

theorem meets_ignore_step_bind {rest : Unit → Durably σ ε β}
    (hdone : ∀ left, (rest ()).Meets (change state) left post)
    (hfailed : ∀ left, (rest ()).Meets state left post)
    (hcrashed : ∀ left, post .crashed state left) :
    (ignore (step change error) >>= rest).Meets state faults post :=
  meets_bind.mpr (meets_ignore.mpr
    (meets_step (fun left _ => hdone left) (fun left _ => hfailed left) fun left _ => hcrashed left))

end Steps

theorem meets_zoom {part : σ → τ} {replace : τ → σ → σ} {program : Durably τ ε α} :
    (zoom part replace program).Meets state faults post ↔
      program.Meets (part state) faults fun ending next left => post ending (replace next state) left :=
  Iff.rfl

end Rules

/-! ### What every step keeps -/

/-- However the program ends, the invariant holds in the state it leaves. -/
def Keeps (inv : σ → Prop) (program : Durably σ ε α) : Prop :=
  ∀ state faults, inv state → inv (program state faults).2.1

section Keeps

variable {inv : σ → Prop}

theorem Keeps.meets {program : Durably σ ε α} {post : Ending ε α → σ → List Fault → Prop} {state : σ}
    {faults : List Fault} (hkeeps : program.Keeps inv) (hinv : inv state)
    (h : program.Meets state faults post) :
    program.Meets state faults fun ending next left => inv next ∧ post ending next left :=
  ⟨hkeeps state faults hinv, h⟩

theorem keeps_pure (value : α) : Keeps inv (Pure.pure value : Durably σ ε α) := fun _ _ h => h

/-- What is read satisfies the invariant. -/
theorem keeps_get_bind {rest : σ → Durably σ ε β} (hrest : ∀ state, inv state → (rest state).Keeps inv) :
    Keeps inv ((get : Durably σ ε σ) >>= rest) :=
  fun state faults hinv => hrest state hinv state faults hinv

theorem keeps_throw (error : ε) : Keeps inv (throw error : Durably σ ε α) := fun _ _ h => h

theorem keeps_step {change : σ → σ} (error : ε) (hchange : ∀ state, inv state → inv (change state)) :
    Keeps inv (step change error) := by
  intro state faults hinv
  match faults with
  | [] => exact hchange state hinv
  | .none :: _ => exact hchange state hinv
  | .fail :: _ => exact hinv
  | .crash :: _ => exact hinv

theorem Keeps.bind {program : Durably σ ε α} {rest : α → Durably σ ε β} (h : program.Keeps inv)
    (hrest : ∀ value, (rest value).Keeps inv) : (program >>= rest).Keeps inv := by
  intro state faults hinv
  have hfirst := h state faults hinv
  change inv (Durably.bind program rest state faults).2.1
  rcases hprogram : program state faults with ⟨ending, next, left⟩
  rw [hprogram] at hfirst
  cases ending with
  | done value => simpa only [Durably.bind, hprogram] using hrest value next left hfirst
  | failed error => simpa only [Durably.bind, hprogram] using hfirst
  | crashed => simpa only [Durably.bind, hprogram] using hfirst

theorem Keeps.attempt {program : Durably σ ε α} (h : program.Keeps inv) :
    (Durably.attempt program).Keeps inv := by
  intro state faults hinv
  have hnext := h state faults hinv
  unfold Durably.attempt
  rcases hprogram : program state faults with ⟨ending, next, left⟩
  rw [hprogram] at hnext
  cases ending with
  | done value => exact hnext
  | failed error => exact hnext
  | crashed => exact hnext

theorem Keeps.ignore {program : Durably σ ε α} (h : program.Keeps inv) :
    (Durably.ignore program).Keeps inv := by
  intro state faults hinv
  have hnext := h state faults hinv
  unfold Durably.ignore
  rcases hprogram : program state faults with ⟨ending, next, left⟩
  rw [hprogram] at hnext
  cases ending with
  | done value => exact hnext
  | failed error => exact hnext
  | crashed => exact hnext

end Keeps

/-! ### What holds where the program comes to its end -/

/-- Partial correctness: what holds if the program comes to its end. -/
def Ends (program : Durably σ ε α) (state : σ) (faults : List Fault)
    (post : α → σ → List Fault → Prop) : Prop :=
  program.Meets state faults fun ending next left => ∀ value, ending = .done value → post value next left

section Ends

variable {state : σ} {faults : List Fault}

theorem ends_throw {error : ε} {post : α → σ → List Fault → Prop} :
    Ends (throw error : Durably σ ε α) state faults post := by
  intro found hfound
  cases hfound

theorem Ends.bind {program : Durably σ ε α} {rest : α → Durably σ ε β}
    {middle : α → σ → List Fault → Prop} {post : β → σ → List Fault → Prop}
    (h : program.Ends state faults middle)
    (hrest : ∀ value next left, middle value next left → (rest value).Ends next left post) :
    (program >>= rest).Ends state faults post := by
  apply meets_bind.mpr
  apply Meets.mono h
  intro ending next left hmiddle
  cases ending with
  | done value => exact hrest value next left (hmiddle value rfl)
  | failed error => exact fun _ hvalue => by cases hvalue
  | crashed => exact fun _ hvalue => by cases hvalue

theorem ends_ofExcept_bind {result : Except ε α} {rest : α → Durably σ ε β}
    {post : β → σ → List Fault → Prop}
    (hok : ∀ value, result = .ok value → (rest value).Ends state faults post) :
    (ofExcept result >>= rest).Ends state faults post := by
  apply meets_ofExcept_bind hok
  intro error _ _ hvalue
  cases hvalue

/-- A program that keeps an invariant keeps it to its end. -/
theorem Keeps.ends {program : Durably σ ε α} {inv : σ → Prop} (h : program.Keeps inv)
    (hinv : inv state) : program.Ends state faults fun _ next _ => inv next :=
  fun _ _ => h state faults hinv

end Ends

/-! ### Crash conditions -/

/-- Under any faults: what holds where the program comes to its end, and what a restart finds where it does not. -/
def Guarded (program : Durably σ ε α) (state : σ) (cut : σ → Prop) (done : α → σ → Prop) : Prop :=
  ∀ faults, program.Meets state faults fun ending next _ =>
    match ending with
    | .done value => done value next
    | _ => cut next

section Guarded

variable {state : σ} {cut weaker : σ → Prop}

theorem Guarded.mono {program : Durably σ ε α} {done also : α → σ → Prop}
    (h : program.Guarded state cut done) (hcut : ∀ next, cut next → weaker next)
    (hdone : ∀ value next, done value next → also value next) :
    program.Guarded state weaker also := by
  intro faults
  apply (h faults).mono
  intro ending next _ hnext
  cases ending with
  | done value => exact hdone value next hnext
  | failed error => exact hcut next hnext
  | crashed => exact hcut next hnext

theorem Guarded.and {program : Durably σ ε α} {other : σ → Prop} {done also : α → σ → Prop}
    (h : program.Guarded state cut done) (halso : program.Guarded state other also) :
    program.Guarded state (fun next => cut next ∧ other next) fun value next =>
      done value next ∧ also value next := by
  intro faults
  have hfirst := h faults
  have hsecond := halso faults
  unfold Meets at hfirst hsecond ⊢
  generalize program state faults = result at hfirst hsecond ⊢
  obtain ⟨ending, next, left⟩ := result
  cases ending with
  | done value => exact ⟨hfirst, hsecond⟩
  | failed error => exact ⟨hfirst, hsecond⟩
  | crashed => exact ⟨hfirst, hsecond⟩

theorem guarded_pure {value : α} {done : α → σ → Prop} (h : done value state) :
    Guarded (Pure.pure value : Durably σ ε α) state cut done :=
  fun _ => h

theorem guarded_throw {error : ε} {done : α → σ → Prop} (h : cut state) :
    Guarded (throw error : Durably σ ε α) state cut done :=
  fun _ => h

theorem guarded_get_bind {rest : σ → Durably σ ε β} {done : β → σ → Prop}
    (h : (rest state).Guarded state cut done) :
    ((get : Durably σ ε σ) >>= rest).Guarded state cut done :=
  h

theorem Guarded.bind {program : Durably σ ε α} {rest : α → Durably σ ε β} {middle : α → σ → Prop}
    {done : β → σ → Prop} (h : program.Guarded state cut middle)
    (hrest : ∀ value next, middle value next → (rest value).Guarded next cut done) :
    (program >>= rest).Guarded state cut done := by
  intro faults
  apply meets_bind.mpr
  apply (h faults).mono
  intro ending next left hnext
  cases ending with
  | done value => exact hrest value next hnext left
  | failed error => exact hnext
  | crashed => exact hnext

theorem guarded_ofExcept_bind {result : Except ε α} {rest : α → Durably σ ε β} {done : β → σ → Prop}
    (herror : cut state) (hok : ∀ value, result = .ok value → (rest value).Guarded state cut done) :
    (ofExcept result >>= rest).Guarded state cut done := by
  intro faults
  exact meets_ofExcept_bind (fun value hvalue => hok value hvalue faults) fun _ _ => herror

theorem guarded_step {change : σ → σ} {error : ε} {done : Unit → σ → Prop} (hcut : cut state)
    (hdone : done () (change state)) : (step change error).Guarded state cut done :=
  fun _ => meets_step (fun _ _ => hdone) (fun _ _ => hcut) fun _ _ => hcut

theorem guarded_step_bind {change : σ → σ} {error : ε} {rest : Unit → Durably σ ε β}
    {done : β → σ → Prop} (hcut : cut state) (hrest : (rest ()).Guarded (change state) cut done) :
    (step change error >>= rest).Guarded state cut done :=
  fun _ => meets_step_bind (fun left _ => hrest left) (fun _ _ => hcut) fun _ _ => hcut

/-- An error that is handed back leaves what a restart would find. -/
theorem Guarded.attempt {program : Durably σ ε α} {done : α → σ → Prop}
    (h : program.Guarded state cut done) :
    (Durably.attempt program).Guarded state cut fun result next =>
      match result with
      | .ok value => done value next
      | .error _ => cut next := by
  intro faults
  rw [meets_attempt]
  apply (h faults).mono
  intro ending next _ hnext
  cases ending with
  | done value => exact hnext
  | failed error => exact hnext
  | crashed => exact hnext

theorem Guarded.ignore {program : Durably σ ε α} {done : Unit → σ → Prop}
    (h : program.Guarded state cut fun _ => done ()) (hfailed : ∀ next, cut next → done () next) :
    (Durably.ignore program).Guarded state cut done := by
  intro faults
  rw [meets_ignore]
  apply (h faults).mono
  intro ending next _ hnext
  cases ending with
  | done value => exact hnext
  | failed error => exact hfailed next hnext
  | crashed => exact hnext

theorem guarded_ignore_step {change : σ → σ} {error : ε} {done : Unit → σ → Prop} (hcut : cut state)
    (hstay : done () state) (hdone : done () (change state)) :
    (Durably.ignore (step change error)).Guarded state cut done := by
  intro faults
  rw [meets_ignore]
  exact meets_step (fun _ _ => hdone) (fun _ _ => hstay) fun _ _ => hcut

theorem Guarded.zoom {part : σ → τ} {replace : τ → σ → σ} {program : Durably τ ε α}
    {done : α → σ → Prop}
    (h : program.Guarded (part state) (fun next => cut (replace next state))
      fun value next => done value (replace next state)) :
    (Durably.zoom part replace program).Guarded state cut done :=
  fun faults => meets_zoom.mpr (h faults)

/-- A program that keeps an invariant, with what holds where it ends. -/
theorem Guarded.keeps {program : Durably σ ε α} {done : α → σ → Prop} {inv : σ → Prop}
    (h : program.Guarded state cut done) (hkeeps : program.Keeps inv) (hinv : inv state) :
    program.Guarded state (fun next => inv next ∧ cut next) fun value next =>
      inv next ∧ done value next := by
  intro faults
  apply (hkeeps.meets hinv (h faults)).mono
  intro ending next _ hnext
  cases ending with
  | done value => exact hnext
  | failed error => exact hnext
  | crashed => exact hnext

/-- With a variable of its own: an error leaves the variable as it was then. -/
theorem Guarded.attemptWith {start : τ} {program : Durably (σ × τ) ε α} {done : α → σ × τ → Prop}
    {stopped : σ × τ → Prop}
    (h : program.Guarded (state, start) stopped done) (hcut : ∀ next, stopped next → cut next.1) :
    (Durably.attemptWith start program).Guarded state cut fun result next =>
      match result.1 with
      | .ok value => done value (next, result.2)
      | .error _ => stopped (next, result.2) := by
  intro faults
  have hprogram := h faults
  unfold Meets at hprogram ⊢
  unfold Durably.attemptWith
  rcases hrun : program (state, start) faults with ⟨ending, next, left⟩
  rw [hrun] at hprogram
  cases ending with
  | done value => exact hprogram
  | failed error => exact hprogram
  | crashed => exact hcut next hprogram

end Guarded

/-! ### Where nothing goes wrong -/

/-- With nothing going wrong the program comes to its end, and leaves what is said. -/
def Succeeds (program : Durably σ ε α) (state : σ) (post : α → σ → Prop) : Prop :=
  ∃ value next, program state [] = (.done value, next, []) ∧ post value next

section Succeeds

variable {state : σ}

theorem Succeeds.mono {program : Durably σ ε α} {post weaker : α → σ → Prop}
    (h : program.Succeeds state post) (himp : ∀ value next, post value next → weaker value next) :
    program.Succeeds state weaker := by
  obtain ⟨value, next, hrun, hpost⟩ := h
  exact ⟨value, next, hrun, himp value next hpost⟩

theorem succeeds_pure {post : α → σ → Prop} {value : α} (h : post value state) :
    Succeeds (Pure.pure value : Durably σ ε α) state post :=
  ⟨value, state, rfl, h⟩

theorem succeeds_get_bind {rest : σ → Durably σ ε β} {post : β → σ → Prop}
    (h : (rest state).Succeeds state post) : ((get : Durably σ ε σ) >>= rest).Succeeds state post :=
  h

theorem succeeds_ofExcept_bind {result : Except ε α} {rest : α → Durably σ ε β} {post : β → σ → Prop}
    {value : α} (hresult : result = .ok value) (h : (rest value).Succeeds state post) :
    (ofExcept result >>= rest).Succeeds state post := by
  rw [hresult]
  exact h

/-- A check that passes. -/
theorem succeeds_check_bind {check : Except ε Unit} {rest : Unit → Durably σ ε β} {post : β → σ → Prop}
    (hcheck : check = .ok ()) (h : (rest ()).Succeeds state post) :
    (ofExcept check >>= rest).Succeeds state post :=
  succeeds_ofExcept_bind hcheck h

theorem succeeds_step {change : σ → σ} {error : ε} {post : Unit → σ → Prop}
    (h : post () (change state)) : (step change error).Succeeds state post :=
  ⟨(), change state, rfl, h⟩

theorem Succeeds.bind {program : Durably σ ε α} {rest : α → Durably σ ε β} {middle : α → σ → Prop}
    {post : β → σ → Prop} (h : program.Succeeds state middle)
    (hrest : ∀ value next, middle value next → (rest value).Succeeds next post) :
    (program >>= rest).Succeeds state post := by
  obtain ⟨value, next, hrun, hmiddle⟩ := h
  obtain ⟨result, last, hlast, hpost⟩ := hrest value next hmiddle
  refine ⟨result, last, ?_, hpost⟩
  change Durably.bind program rest state [] = _
  simp only [Durably.bind, hrun, hlast]

theorem Succeeds.attempt {program : Durably σ ε α} {post : Except ε α → σ → Prop}
    (h : program.Succeeds state fun value next => post (.ok value) next) :
    (Durably.attempt program).Succeeds state post := by
  obtain ⟨value, next, hrun, hpost⟩ := h
  exact ⟨.ok value, next, by simp only [Durably.attempt, hrun], hpost⟩

theorem Succeeds.ignore {program : Durably σ ε α} {post : Unit → σ → Prop}
    (h : program.Succeeds state fun _ next => post () next) :
    (Durably.ignore program).Succeeds state post := by
  obtain ⟨value, next, hrun, hpost⟩ := h
  exact ⟨(), next, by simp only [Durably.ignore, hrun], hpost⟩

theorem Succeeds.zoom {part : σ → τ} {replace : τ → σ → σ} {program : Durably τ ε α}
    {post : α → σ → Prop}
    (h : program.Succeeds (part state) fun value next => post value (replace next state)) :
    (Durably.zoom part replace program).Succeeds state post := by
  obtain ⟨value, next, hrun, hpost⟩ := h
  exact ⟨value, replace next state, by simp only [Durably.zoom, hrun], hpost⟩

/-- What is guarded holds of the run in which nothing goes wrong. -/
theorem Succeeds.guarded {program : Durably σ ε α} {post done : α → σ → Prop} {cut : σ → Prop}
    (h : program.Succeeds state post) (hguarded : program.Guarded state cut done) :
    program.Succeeds state fun value next => post value next ∧ done value next := by
  obtain ⟨value, next, hrun, hpost⟩ := h
  have hdone := hguarded []
  unfold Meets at hdone
  rw [hrun] at hdone
  exact ⟨value, next, hrun, hpost, hdone⟩

theorem Succeeds.attemptWith {start : τ} {program : Durably (σ × τ) ε α}
    {post : Except ε α × τ → σ → Prop}
    (h : program.Succeeds (state, start) fun value next => post (.ok value, next.2) next.1) :
    (Durably.attemptWith start program).Succeeds state post := by
  obtain ⟨value, next, hrun, hpost⟩ := h
  exact ⟨(.ok value, next.2), next.1, by simp only [Durably.attemptWith, hrun], hpost⟩

/-- What holds under every fault holds of the run without one. -/
theorem Succeeds.meets {program : Durably σ ε α} {post : α → σ → Prop}
    {also : Ending ε α → σ → List Fault → Prop} (h : program.Succeeds state post)
    (halso : program.Meets state [] also) :
    program.Succeeds state fun value next => post value next ∧ also (.done value) next [] := by
  obtain ⟨value, next, hrun, hpost⟩ := h
  unfold Meets at halso
  rw [hrun] at halso
  exact ⟨value, next, hrun, hpost, halso⟩

end Succeeds

/-! ### Where it is refused -/

/-- With nothing going wrong the program stops with an error. -/
def Fails (program : Durably σ ε α) (state : σ) (post : ε → σ → Prop) : Prop :=
  ∃ error next, program state [] = (.failed error, next, []) ∧ post error next

section Fails

variable {state : σ} {post : ε → σ → Prop}

theorem Fails.mono {program : Durably σ ε α} {weaker : ε → σ → Prop} (h : program.Fails state post)
    (himp : ∀ error next, post error next → weaker error next) : program.Fails state weaker := by
  obtain ⟨error, next, hrun, hpost⟩ := h
  exact ⟨error, next, hrun, himp error next hpost⟩

theorem fails_throw {error : ε} (h : post error state) : (throw error : Durably σ ε α).Fails state post :=
  ⟨error, state, rfl, h⟩

theorem fails_get_bind {rest : σ → Durably σ ε β} (h : (rest state).Fails state post) :
    ((get : Durably σ ε σ) >>= rest).Fails state post :=
  h

theorem fails_ofExcept_bind {result : Except ε α} {rest : α → Durably σ ε β} {value : α}
    (hresult : result = .ok value) (h : (rest value).Fails state post) :
    (ofExcept result >>= rest).Fails state post := by
  rw [hresult]
  exact h

theorem Fails.bind {program : Durably σ ε α} {rest : α → Durably σ ε β} (h : program.Fails state post) :
    (program >>= rest).Fails state post := by
  obtain ⟨error, next, hrun, hpost⟩ := h
  refine ⟨error, next, ?_, hpost⟩
  change Durably.bind program rest state [] = _
  simp only [Durably.bind, hrun]

/-- What comes after stops. -/
theorem Succeeds.fails {program : Durably σ ε α} {rest : α → Durably σ ε β} {middle : α → σ → Prop}
    (h : program.Succeeds state middle)
    (hrest : ∀ value next, middle value next → (rest value).Fails next post) :
    (program >>= rest).Fails state post := by
  obtain ⟨value, next, hrun, hmiddle⟩ := h
  obtain ⟨error, last, hlast, hpost⟩ := hrest value next hmiddle
  refine ⟨error, last, ?_, hpost⟩
  change Durably.bind program rest state [] = _
  simp only [Durably.bind, hrun, hlast]

/-- It stops, and does not come to its end. -/
theorem Fails.not_succeeds {program : Durably σ ε α} {done : α → σ → Prop} (h : program.Fails state post) :
    ¬ program.Succeeds state done := by
  rintro ⟨value, next, hdone, -⟩
  obtain ⟨error, last, hfailed, -⟩ := h
  rw [hdone] at hfailed
  cases hfailed

theorem Fails.attemptWith {start : τ} {program : Durably (σ × τ) ε α} {post : ε → σ × τ → Prop}
    (h : program.Fails (state, start) post) :
    (Durably.attemptWith start program).Succeeds state fun result next =>
      ∃ error, result.1 = .error error ∧ post error (next, result.2) := by
  obtain ⟨error, next, hrun, hpost⟩ := h
  exact ⟨(.error error, next.2), next.1, by simp only [Durably.attemptWith, hrun], error, rfl, hpost⟩

end Fails

/-! ### Both -/

/-- Guarded, and where nothing goes wrong and the way is clear it comes to its end. -/
def Sure (program : Durably σ ε α) (clear : Prop) (state : σ) (cut : σ → Prop) (done : α → σ → Prop) :
    Prop :=
  program.Guarded state cut done ∧ (clear → program.Succeeds state fun _ _ => True)

section Sure

variable {clear : Prop} {state : σ} {cut : σ → Prop}

theorem Sure.succeeds {program : Durably σ ε α} {done : α → σ → Prop}
    (h : program.Sure clear state cut done) (hclear : clear) : program.Succeeds state done :=
  ((h.2 hclear).guarded h.1).mono fun _ _ hnext => hnext.2

theorem Sure.mono {program : Durably σ ε α} {weaker : σ → Prop} {done also : α → σ → Prop}
    (h : program.Sure clear state cut done) (hcut : ∀ next, cut next → weaker next)
    (hdone : ∀ value next, done value next → also value next) :
    program.Sure clear state weaker also :=
  ⟨h.1.mono hcut hdone, h.2⟩

/-- A way that is clear more seldom. -/
theorem Sure.of_clear {program : Durably σ ε α} {other : Prop} {done : α → σ → Prop}
    (h : program.Sure other state cut done) (himp : clear → other) :
    program.Sure clear state cut done :=
  ⟨h.1, fun hclear => h.2 (himp hclear)⟩

theorem sure_pure {value : α} {done : α → σ → Prop} (h : done value state) :
    Sure (Pure.pure value : Durably σ ε α) clear state cut done :=
  ⟨guarded_pure h, fun _ => succeeds_pure trivial⟩

/-- An error where the way is not clear. -/
theorem sure_throw {error : ε} {done : α → σ → Prop} (hcut : cut state) (hclear : ¬ clear) :
    (throw error : Durably σ ε α).Sure clear state cut done :=
  ⟨guarded_throw hcut, fun h => absurd h hclear⟩

theorem sure_get_bind {rest : σ → Durably σ ε β} {done : β → σ → Prop}
    (h : (rest state).Sure clear state cut done) :
    ((get : Durably σ ε σ) >>= rest).Sure clear state cut done :=
  h

theorem sure_modify_bind {change : σ → σ} {rest : Unit → Durably σ ε β} {done : β → σ → Prop}
    (h : (rest ()).Sure clear (change state) cut done) :
    ((modify change : Durably σ ε Unit) >>= rest).Sure clear state cut done :=
  h

theorem Sure.bind {program : Durably σ ε α} {rest : α → Durably σ ε β} {middle : α → σ → Prop}
    {done : β → σ → Prop} (h : program.Sure clear state cut middle)
    (hrest : ∀ value next, middle value next → (rest value).Sure clear next cut done) :
    (program >>= rest).Sure clear state cut done :=
  ⟨h.1.bind fun value next hnext => (hrest value next hnext).1, fun hclear =>
    (h.succeeds hclear).bind fun value next hnext => (hrest value next hnext).2 hclear⟩

theorem sure_ofExcept {result : Except ε α} {done : α → σ → Prop} {value : α}
    (hresult : result = .ok value) (h : done value state) :
    (ofExcept result : Durably σ ε α).Sure clear state cut done := by
  rw [hresult]
  exact sure_pure h

theorem sure_ofExcept_bind {result : Except ε α} {rest : α → Durably σ ε β} {done : β → σ → Prop}
    {value : α} (hresult : result = .ok value) (h : (rest value).Sure clear state cut done) :
    (ofExcept result >>= rest).Sure clear state cut done := by
  rw [hresult]
  exact h

/-- A check that passes. -/
theorem sure_check_bind {check : Except ε Unit} {rest : Unit → Durably σ ε β} {done : β → σ → Prop}
    (hcheck : check = .ok ()) (h : (rest ()).Sure clear state cut done) :
    (ofExcept check >>= rest).Sure clear state cut done :=
  sure_ofExcept_bind hcheck h

/-- A check that passes where the way is clear. -/
theorem sure_clear_bind {check : Except ε Unit} {rest : Unit → Durably σ ε β} {done : β → σ → Prop}
    (hcut : cut state) (hclear : clear → check = .ok ())
    (h : check = .ok () → (rest ()).Sure clear state cut done) :
    (ofExcept check >>= rest).Sure clear state cut done := by
  cases hcheck : check with
  | ok _ => exact h hcheck
  | error error =>
      refine ⟨guarded_throw hcut, fun hfree => ?_⟩
      rw [hclear hfree] at hcheck
      cases hcheck

theorem sure_step {change : σ → σ} {error : ε} {done : Unit → σ → Prop} (hcut : cut state)
    (hdone : done () (change state)) : (step change error).Sure clear state cut done :=
  ⟨guarded_step hcut hdone, fun _ => succeeds_step trivial⟩

theorem sure_step_bind {change : σ → σ} {error : ε} {rest : Unit → Durably σ ε β}
    {done : β → σ → Prop} (hcut : cut state) (hrest : (rest ()).Sure clear (change state) cut done) :
    (step change error >>= rest).Sure clear state cut done := by
  have hdone : (step change error).Succeeds state fun _ next => next = change state :=
    succeeds_step rfl
  exact ⟨guarded_step_bind hcut hrest.1, fun hclear =>
    hdone.bind fun _ _ hnext => hnext ▸ hrest.2 hclear⟩

theorem sure_when {condition : Prop} [Decidable condition] {program : Durably σ ε Unit}
    {done : Unit → σ → Prop} (hprogram : condition → program.Sure clear state cut done)
    (hskip : ¬ condition → done () state) : (when condition program).Sure clear state cut done := by
  unfold when
  split
  · exact hprogram ‹_›
  · exact sure_pure (hskip ‹_›)

theorem Sure.attempt {program : Durably σ ε α} {done : α → σ → Prop}
    (h : program.Sure clear state cut done) :
    (Durably.attempt program).Sure clear state cut fun result next =>
      match result with
      | .ok value => done value next
      | .error _ => cut next :=
  ⟨h.1.attempt, fun hclear => ((h.2 hclear).mono fun _ _ _ => trivial).attempt⟩

theorem Sure.zoom {part : σ → τ} {replace : τ → σ → σ} {program : Durably τ ε α}
    {done : α → σ → Prop}
    (h : program.Sure clear (part state) (fun next => cut (replace next state))
      fun value next => done value (replace next state)) :
    (Durably.zoom part replace program).Sure clear state cut done :=
  ⟨h.1.zoom, fun hclear => (h.2 hclear).zoom⟩

end Sure

end Durably

end Lib
