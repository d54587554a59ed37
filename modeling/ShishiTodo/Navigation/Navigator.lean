import ShishiTodo.Lib.Machine

/-!
# The navigation transaction

`createTaskNavigator` of `task-navigation.ts`. An attempt loads its task, commits it as the selection and waits until the detail view reports that it shows it. The view reports inside `commitSelection` and `restoreSelection` too, before these return; everything else happens between the turns of the event loop.
-/

namespace ShishiTodo.Navigation

open Lib

/-- A `DetailRenderReport`, with the reports that the view makes inside a `restoreSelection` that this one leads to. -/
inductive Report where
  | mk (taskId : Option String) (generation : Nat) (inside : List Report)

/-- An attempt that is not settled. Of a settled one nothing is read again but that it is. -/
structure Transaction (Task : Type) where
  generation : Nat
  taskId : String
  accountId : String
  previousId : Option String
  previousTask : Option Task
  committed : Bool
  /-- The load has not come back yet. -/
  loading : Bool

/-- What happened, for the record; a call that is refused at once begins nothing. -/
inductive Entry where
  | begun (call : Nat) (taskId : String)
  | aborted (call : Nat)
  | accountChanged
  | invalidated
  | disposed
  | selected
  | rendered (taskId : Option String)
  | committed (call : Nat)
  | restored (call : Nat)
  | resolved (call : Nat) (opened : Bool)
  deriving DecidableEq, Repr

/-- The navigator, what it reads through its dependencies, and the record with the latest entry first. -/
structure State (Task : Type) where
  generation : Nat
  disposed : Bool
  active : List (Transaction Task)
  selectedId : Option String
  selectedTask : Option Task
  /-- The task on screen. -/
  shown : Option String
  accountId : String
  history : List Entry

section

variable {Task : Type}

namespace State

variable (s : State Task)

def log (entry : Entry) : State Task := { s with history := entry :: s.history }

def find (generation : Nat) : Option (Transaction Task) :=
  s.active.find? fun transaction => transaction.generation = generation

def without (generation : Nat) : State Task :=
  { s with active := s.active.filter fun transaction => transaction.generation ≠ generation }

def modify (generation : Nat) (change : Transaction Task → Transaction Task) : State Task :=
  { s with active := s.active.map fun transaction =>
      if transaction.generation = generation then change transaction else transaction }

/-! ### Dependencies -/

def isDetailRendered (taskId : String) : Bool := s.shown = some taskId

def commitSelection (task : Task) (id : String) (generation : Nat) : State Task :=
  { s with selectedId := some id, selectedTask := some task }.log (.committed generation)

def restoreSelection (transaction : Transaction Task) : State Task :=
  { s with selectedId := transaction.previousId, selectedTask := transaction.previousTask }.log
    (.restored transaction.generation)

/-- The view shows something else. -/
def render (taskId : Option String) : State Task := { s with shown := taskId }.log (.rendered taskId)

end State

/-! ### Settling -/

/-- `settle`; `inside` is what the view does inside `restoreSelection`. -/
def settle (inside : State Task → State Task) (generation : Nat) (opened rollback : Bool)
    (s : State Task) : State Task :=
  match s.find generation with
  | none => s
  | some transaction =>
      let s := s.without generation
      let s :=
        if rollback ∧ transaction.committed ∧ s.selectedId = some transaction.taskId then
          inside (s.restoreSelection transaction)
        else s
      s.log (.resolved generation opened)

/-- The listener of `subscribeToDetailConfirmation`, for one of the active attempts. -/
def confirm (inside : State Task → State Task) (taskId : Option String) (generation : Nat)
    (s : State Task) (transaction : Transaction Task) : State Task :=
  if s.accountId ≠ transaction.accountId then settle inside transaction.generation false false s
  else if taskId = some transaction.taskId then
    if transaction.generation ≤ generation then settle inside transaction.generation true false s else s
  else settle inside transaction.generation false true s

def listener (inside : State Task → State Task) (taskId : Option String) (generation : Nat)
    (s : State Task) : State Task :=
  if s.disposed then s else s.active.foldl (confirm inside taskId generation) s

mutual

/-- The view shows a task, or none, and reports it. -/
def report : Report → State Task → State Task
  | .mk taskId generation inside, s => listener (reports inside) taskId generation (s.render taskId)

def reports : List Report → State Task → State Task
  | [], s => s
  | first :: rest, s => reports rest (report first s)

end

/-! ### Calls -/

def navigateToTask (taskId : String) (aborted : Bool) (inside : List Report) (s : State Task) : State Task :=
  if s.disposed ∨ aborted then s
  else
    let attempt := s.generation + 1
    let s : State Task := { s with generation := attempt }
    let s : State Task := s.active.foldl (fun s older => settle (reports inside) older.generation false true s) s
    let s := s.log (.begun attempt taskId)
    if s.selectedId = some taskId ∧ s.isDetailRendered taskId then s.log (.resolved attempt true)
    else
      let transaction : Transaction Task :=
        { generation := attempt
          taskId := taskId
          accountId := s.accountId
          previousId := s.selectedId
          previousTask := s.selectedTask
          committed := false
          loading := true }
      { s with active := s.active ++ [transaction] }

/-- How a load ends: none is a target that is gone. -/
inductive Loaded (Task : Type) where
  | failed
  | done (task : Option Task)

/-- `advance` from `commitSelection` on. `commitSelection` may throw when the view has reported. -/
def commit (transaction : Transaction Task) (task : Task) (inside : List Report) (throws : Bool)
    (s : State Task) : State Task :=
  let generation := transaction.generation
  let s := s.modify generation fun transaction => { transaction with committed := true }
  let s := reports inside (s.commitSelection task transaction.taskId generation)
  if throws then
    settle id generation false false
      (s.modify generation fun transaction => { transaction with committed := false })
  else if (s.find generation).isNone then s
  else if s.selectedId = some transaction.taskId ∧ s.isDetailRendered transaction.taskId then
    settle id generation true false s
  else s

/-- `advance`, when the load comes back: of a settled attempt only an error is told. -/
def advance (generation : Nat) (loaded : Loaded Task) (inside : List Report) (throws : Bool)
    (s : State Task) : State Task :=
  match (s.find generation).filter fun transaction => transaction.loading with
  | none => s
  | some transaction =>
      let s := s.modify generation fun transaction => { transaction with loading := false }
      match loaded with
      | .failed => settle id generation false false s
      | .done task =>
          if s.disposed then s
          else if s.accountId ≠ transaction.accountId then settle id generation false false s
          else if s.selectedId ≠ transaction.previousId ∧ s.selectedId ≠ some transaction.taskId then
            settle id generation false false s
          else
            match task with
            | none => settle id generation false false s
            | some task => commit transaction task inside throws s

def onAbort (generation : Nat) (inside : List Report) (s : State Task) : State Task :=
  settle (reports inside) generation false true (s.log (.aborted generation))

def invalidateAll (s : State Task) : State Task :=
  s.active.foldl (fun s transaction => settle id transaction.generation false false s) (s.log .invalidated)

def dispose (s : State Task) : State Task :=
  if s.disposed then s else { invalidateAll (s.log .disposed) with disposed := true }

/-! ### Runs -/

inductive Event (Task : Type) where
  | navigate (taskId : String) (aborted : Bool) (inside : List Report)
  | loaded (call : Nat) (result : Loaded Task) (inside : List Report) (throws : Bool)
  | abort (call : Nat) (inside : List Report)
  | report (report : Report)
  /-- Somebody else selects a task, or none. -/
  | select (id : Option String)
  /-- The details of the selected task come in. -/
  | details (task : Option Task)
  | switchAccount (id : String)
  | invalidateAll
  | dispose

def step (s : State Task) : Event Task → State Task
  | .navigate taskId aborted inside => navigateToTask taskId aborted inside s
  | .loaded call result inside throws => advance call result inside throws s
  | .abort call inside => onAbort call inside s
  | .report rendered => report rendered s
  | .select id => { s with selectedId := id }.log .selected
  | .details task => { s with selectedTask := task }
  | .switchAccount id => if id = s.accountId then s else { s with accountId := id }.log .accountChanged
  | .invalidateAll => invalidateAll s
  | .dispose => dispose s

def machine (Task : Type) : Machine (State Task) (Event Task) Entry := ⟨step, fun _ _ => []⟩

/-- A navigator that was just created, over any view. -/
def created (selectedId : Option String) (selectedTask : Option Task) (shown : Option String)
    (accountId : String) : State Task :=
  { generation := 0
    disposed := false
    active := []
    selectedId := selectedId
    selectedTask := selectedTask
    shown := shown
    accountId := accountId
    history := [.rendered shown] }

end

end ShishiTodo.Navigation
