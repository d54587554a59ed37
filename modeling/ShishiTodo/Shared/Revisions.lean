import ShishiTodo.Shared.Versions
import ShishiTodo.Lib.Machine

/-!
# Optimistic concurrency on a shared list

The shared endpoints in any order of requests. A request is one transaction that holds the row of its list, so two requests to one list never overlap. The revision of a list counts its writes, and a revision is spent by the first write that expects it.
-/

namespace ShishiTodo

open Lib

inductive SharedServerEvent where
  /-- Accounts are made, renamed or deleted. -/
  | accounts (users : Table Uuid AccountRow)
  | serve (call : SharedCall) (request : SharedRequest)

/-- A write that was served: its list, the revision it expected, whether it was done before, and whether it succeeded. -/
structure ServedWrite where
  listId : Uuid
  expected : Option Int
  replay : Bool
  committed : Bool
  deriving DecidableEq, Repr

/-- A write that raised the revision of its list. -/
def ServedWrite.bumps (write : ServedWrite) : Bool := write.committed && !write.replay

def servedWrite (call : SharedCall) (db : SharedDb) (request : SharedRequest) : List ServedWrite :=
  match db.target request with
  | none => []
  | some listId => [{
      listId := listId
      expected := request.expected
      replay := db.replays call request
      committed := (serveShared call db request).1.isOk }]

namespace SharedServerEvent

def step (db : SharedDb) : SharedServerEvent → SharedDb
  | .accounts users => { db with users := users }
  | .serve call request => (serveShared call db request).2

def emit (db : SharedDb) : SharedServerEvent → List ServedWrite
  | .accounts _ => []
  | .serve call request => servedWrite call db request

end SharedServerEvent

/-- The shared endpoints of the server, over the accounts. -/
def sharedServer : Machine SharedDb SharedServerEvent ServedWrite where
  step := SharedServerEvent.step
  emit := SharedServerEvent.emit

/-- The writes that raised the revision of the list. -/
def bumpsOf (listId : Uuid) (served : List ServedWrite) : List ServedWrite :=
  served.filter fun write => write.listId == listId && write.bumps

/-- The writes that raised a revision, each with what it expected. -/
def bumpLog (served : List ServedWrite) : List (Uuid × Option Int) :=
  (served.filter ServedWrite.bumps).map fun write => (write.listId, write.expected)

theorem bumpLog_append (first second : List ServedWrite) :
    bumpLog (first ++ second) = bumpLog first ++ bumpLog second := by
  simp [bumpLog]

theorem countP_bumpLog (listId : Uuid) (served : List ServedWrite) :
    (bumpLog served).countP (fun entry => entry.1 = listId) = (bumpsOf listId served).length := by
  rw [bumpLog, List.countP_map, List.countP_eq_length_filter, List.filter_filter, bumpsOf]
  rfl

theorem countP_bumpLog_expected (listId : Uuid) (expected : Int) (served : List ServedWrite) :
    (bumpLog served).countP (fun entry => entry = (listId, some expected)) =
      ((bumpsOf listId served).filter fun write => write.expected == some expected).length := by
  rw [bumpLog, List.countP_map, List.countP_eq_length_filter, List.filter_filter, bumpsOf,
    List.filter_filter]
  congr 2
  funext write
  simp only [Function.comp_apply, Prod.mk.injEq, Bool.decide_and, Bool.beq_eq_decide_eq]
  ac_rfl

/-! ### One request -/

section Serve

variable {call : SharedCall} {request : SharedRequest} {db : SharedDb}

/-- A write that fails changes nothing. -/
theorem serveShared_error {error : AppError}
    (h : (serveShared call db request).1 = .error error) :
    (serveShared call db request).2 = db := by
  unfold serveShared at h ⊢
  cases hhandle : handleShared call db request with
  | error error => rfl
  | ok done =>
      rw [hhandle] at h
      cases h

theorem servedWrite_of_target {listId : Uuid} (htarget : db.target request = some listId) :
    servedWrite call db request = [{
      listId := listId
      expected := request.expected
      replay := db.replays call request
      committed := (serveShared call db request).1.isOk }] := by
  rw [servedWrite, htarget]

theorem bumpLog_eq_nil {listId : Uuid} (htarget : db.target request = some listId)
    (h : (serveShared call db request).1.isOk = false ∨ db.replays call request = true) :
    bumpLog (servedWrite call db request) = [] := by
  rw [servedWrite_of_target htarget]
  rcases h with h | h <;> simp [bumpLog, ServedWrite.bumps, h]

/-- The step: a request leaves the lists, starts a new one, or writes to one under the revision it expects. -/
theorem counted_serve {log : List (Uuid × Option Int)} (hcounted : listVersions.Counted log db) :
    listVersions.Counted (log ++ bumpLog (servedWrite call db request))
      (serveShared call db request).2 := by
  cases hhandle : handleShared call db request with
  | error error =>
      have hanswer : (serveShared call db request).1 = .error error := by
        rw [serveShared, hhandle]
      have hempty : bumpLog (servedWrite call db request) = [] := by
        cases htarget : db.target request with
        | none =>
            rw [servedWrite, htarget]
            rfl
        | some listId => exact bumpLog_eq_nil htarget (.inl (by rw [hanswer]; rfl))
      rw [hempty, List.append_nil, serveShared_error hanswer]
      exact hcounted
  | ok done =>
      obtain ⟨response, after⟩ := done
      have hafter : (serveShared call db request).2 = after := by
        rw [serveShared, hhandle]
      have hok : (serveShared call db request).1.isOk = true := by
        rw [serveShared, hhandle]
        rfl
      rw [hafter]
      cases handleShared_outcome hhandle with
      | read target same =>
          rw [servedWrite, target, same]
          simpa [bumpLog] using hcounted
      | replayed again same =>
          cases htarget : db.target request with
          | none =>
              rw [servedWrite, htarget, same]
              simpa [bumpLog] using hcounted
          | some listId =>
              rw [bumpLog_eq_nil htarget (.inr again), List.append_nil, same]
              exact hcounted
      | created target new write =>
          rw [servedWrite, target]
          have hnext := hcounted.created write.write new
          simpa [bumpLog] using hnext
      | written listId touched current target first revision expected write =>
          have hlog : bumpLog (servedWrite call db request) = [(listId, request.expected)] := by
            rw [servedWrite_of_target target]
            simp [bumpLog, ServedWrite.bumps, first, hok]
          rw [hlog]
          exact hcounted.write write.write revision expected

end Serve

/-! ### Runs -/

theorem counted_run (events : List SharedServerEvent) :
    listVersions.Counted (bumpLog (sharedServer.trace .empty events))
      (sharedServer.run .empty events) := by
  refine sharedServer.invariant (fun db served => listVersions.Counted (bumpLog served) db) ?_ ?_
    events
  · intro db served event hcounted
    rw [bumpLog_append]
    cases event with
    | accounts users =>
        have hnext : listVersions.Counted (bumpLog served) { db with users := users } :=
          hcounted.unchanged fun _ => rfl
        rwa [← List.append_nil (bumpLog served)] at hnext
    | serve call request => exact counted_serve hcounted
  · exact VersionView.Counted.start fun _ => rfl

/-- In every run the revision of a list is one more than the writes that raised it, at most one of these expected any one revision, and a request that fails leaves the database as it was. -/
theorem shared_writes_counted (events : List SharedServerEvent) :
    (∀ listId revision, (sharedServer.run .empty events).revisionOf listId = some revision →
      revision = 1 + (bumpsOf listId (sharedServer.trace .empty events)).length) ∧
    (∀ (listId : Uuid) (expected : Int),
      ((bumpsOf listId (sharedServer.trace .empty events)).filter fun write =>
        write.expected == some expected).length ≤ 1) ∧
    ∀ call request error,
      (serveShared call (sharedServer.run .empty events) request).1 = .error error →
      (serveShared call (sharedServer.run .empty events) request).2 =
        sharedServer.run .empty events := by
  have hcounted := counted_run events
  refine ⟨?_, ?_, fun call request error => serveShared_error⟩
  · intro listId revision hrevision
    have hcount := hcounted.count listId
    rw [countP_bumpLog] at hcount
    change ((sharedServer.run .empty events).revisionOf listId).getD 1 = _ at hcount
    rwa [hrevision, Option.getD_some] at hcount
  · intro listId expected
    rw [← countP_bumpLog_expected]
    exact hcounted.once listId expected

end ShishiTodo
