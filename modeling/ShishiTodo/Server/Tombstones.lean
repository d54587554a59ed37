import ShishiTodo.Server.EntityOutcome
import ShishiTodo.Server.ExactlyOnce

/-!
# Tombstones and parents

What an operation may do to a deleted row, and what it needs of the list or the task above it. Both are read off `EntityOutcome`, entity by entity, and then off the iterations of a run.
-/

namespace ShishiTodo

open Lib

/-- Whose the row is, whether it is deleted, and the row above it. -/
structure RowStatus where
  userId : Uuid
  deletedAt : Option Instant
  parent : Option (EntityType × Uuid)

def EntityRow.status {V : Type} (parentOf : V → Option (EntityType × Uuid)) (row : EntityRow V) :
    RowStatus where
  userId := row.userId
  deletedAt := row.deletedAt
  parent := parentOf row.values

/-- The list of a task, and the task of a step or a day plan. -/
def TaskValues.parent (values : TaskValues) : Option (EntityType × Uuid) :=
  values.listId.map fun listId => (.list, listId)

def StepValues.parent (values : StepValues) : Option (EntityType × Uuid) := some (.task, values.taskId)

def DayPlanValues.parent (values : DayPlanValues) : Option (EntityType × Uuid) :=
  some (.task, values.taskId)

def Entities.status (entities : Entities) : EntityType × Uuid → Option RowStatus
  | (.list, id) => (entities.lists.lookup id).map (EntityRow.status fun _ => none)
  | (.task, id) => (entities.tasks.lookup id).map (EntityRow.status TaskValues.parent)
  | (.step, id) => (entities.steps.lookup id).map (EntityRow.status StepValues.parent)
  | (.dayPlan, id) => (entities.dayPlans.lookup id).map (EntityRow.status DayPlanValues.parent)

/-- The row is there and deleted. -/
def Entities.Deleted (entities : Entities) (key : EntityType × Uuid) : Prop :=
  ∃ status, entities.status key = some status ∧ status.deletedAt ≠ none

/-- The row is there, belongs to the account and is not deleted. -/
def Entities.LiveFor (entities : Entities) (userId : Uuid) (key : EntityType × Uuid) : Prop :=
  ∃ status, entities.status key = some status ∧ status.userId = userId ∧ status.deletedAt = none

/-- What the results below need to know of an entity: where its rows stand, and that a create, a patch or a restore looks at the row above. -/
structure StatusView {V : Type} (spec : EntitySpec V) (entity : EntityType) where
  parentOf : V → Option (EntityType × Uuid)
  status : ∀ entities id, entities.status (entity, id) =
    ((spec.table entities).lookup id).map (EntityRow.status parentOf)
  table_withTable : ∀ entities table, spec.table (spec.withTable entities table) = table
  frame : ∀ entities table key, key.1 ≠ entity →
    (spec.withTable entities table).status key = entities.status key
  stored : ∀ values, parentOf (spec.stored values) = parentOf values
  ensureParent : ∀ entities userId values, spec.ensureParent entities userId values = .ok () →
    ∀ parent ∈ parentOf values, entities.LiveFor userId parent

/-- A row that is there, belongs to the account and is not deleted passes the test of a parent. -/
theorem liveRow_of_refuse {V : Type} {table : Table Uuid (EntityRow V)} {userId id : Uuid}
    {error : MutationError} {done : Unit}
    (h : refuseIf ((table.lookup id).all fun row => row.userId != userId || row.deletedAt.isSome) error =
      .ok done) :
    ∃ row, table.lookup id = some row ∧ row.userId = userId ∧ row.deletedAt = none := by
  rw [refuseIf_eq_ok_iff] at h
  cases hrow : table.lookup id with
  | none => simp [hrow] at h
  | some row =>
      simp only [hrow, Option.all_some, Bool.or_eq_true, bne_iff_ne, not_or, not_not,
        Bool.not_eq_true, Option.isSome_eq_false_iff, Option.isNone_iff_eq_none] at h
      exact ⟨row, rfl, h⟩

theorem ensureActiveTask_live {entities : Entities} {userId taskId : Uuid}
    (h : ensureActiveTask entities userId taskId = .ok ()) :
    ∀ parent ∈ some (EntityType.task, taskId), entities.LiveFor userId parent := by
  intro parent hparent
  cases hparent
  obtain ⟨row, hrow, howner, hlive⟩ := liveRow_of_refuse h
  exact ⟨row.status TaskValues.parent, by rw [Entities.status, hrow]; rfl, howner, hlive⟩

theorem table_withLists (entities : Entities) (table : Table Uuid (EntityRow ListValues)) :
    listSpec.table (listSpec.withTable entities table) = table := rfl

def listStatus : StatusView listSpec .list where
  parentOf _ := none
  status _ _ := rfl
  table_withTable := table_withLists
  frame entities table key hkey := by
    obtain ⟨entity, id⟩ := key
    cases entity <;> first | rfl | exact absurd rfl hkey
  stored _ := rfl
  ensureParent _ _ _ _ parent hparent := nomatch hparent

theorem table_withTasks (env : Env) (entities : Entities) (table : Table Uuid (EntityRow TaskValues)) :
    (taskSpec env).table ((taskSpec env).withTable entities table) = table := rfl

def taskStatus (env : Env) : StatusView (taskSpec env) .task where
  parentOf := TaskValues.parent
  status _ _ := rfl
  table_withTable := table_withTasks env
  frame entities table key hkey := by
    obtain ⟨entity, id⟩ := key
    cases entity <;> first | rfl | exact absurd rfl hkey
  stored _ := rfl
  ensureParent entities userId values h parent hparent := by
    obtain ⟨listId, hlist, rfl⟩ := Option.map_eq_some_iff.mp hparent
    change ensureActiveList entities userId values.listId = .ok () at h
    rw [hlist] at h
    obtain ⟨row, hrow, howner, hlive⟩ := liveRow_of_refuse h
    exact ⟨row.status fun _ => none, by rw [Entities.status, hrow]; rfl, howner, hlive⟩

theorem table_withSteps (env : Env) (entities : Entities) (table : Table Uuid (EntityRow StepValues)) :
    (stepSpec env).table ((stepSpec env).withTable entities table) = table := rfl

def stepStatus (env : Env) : StatusView (stepSpec env) .step where
  parentOf := StepValues.parent
  status _ _ := rfl
  table_withTable := table_withSteps env
  frame entities table key hkey := by
    obtain ⟨entity, id⟩ := key
    cases entity <;> first | rfl | exact absurd rfl hkey
  stored _ := rfl
  ensureParent _ _ _ h := ensureActiveTask_live h

theorem table_withDayPlans (env : Env) (entities : Entities) (table : Table Uuid (EntityRow DayPlanValues)) :
    (dayPlanSpec env).table ((dayPlanSpec env).withTable entities table) = table := rfl

def dayPlanStatus (env : Env) : StatusView (dayPlanSpec env) .dayPlan where
  parentOf := DayPlanValues.parent
  status _ _ := rfl
  table_withTable := table_withDayPlans env
  frame entities table key hkey := by
    obtain ⟨entity, id⟩ := key
    cases entity <;> first | rfl | exact absurd rfl hkey
  stored _ := rfl
  ensureParent _ _ _ h := ensureActiveTask_live h

/-- What an applied operation did, as far as tombstones and parents go. -/
structure StatusWritten (entities next : Entities) (userId : Uuid) (mutation : Mutation) : Prop where
  /-- Its row is the account's, before and after. -/
  owner : ∀ old, entities.status (mutation.entity, mutation.entityId) = some old → old.userId = userId
  written : ∃ status, next.status (mutation.entity, mutation.entityId) = some status ∧
    status.userId = userId
  others : ∀ key, key ≠ (mutation.entity, mutation.entityId) → next.status key = entities.status key
  /-- A deleted row is there for a restore only. -/
  restores : entities.Deleted (mutation.entity, mutation.entityId) → mutation.kind = .restore
  /-- A create, a patch or a restore left its row under a live parent of the same account. -/
  parents : mutation.kind ≠ .delete → ∀ status,
    next.status (mutation.entity, mutation.entityId) = some status →
      ∀ parent ∈ status.parent, entities.LiveFor userId parent

theorem StatusView.written {V : Type} {spec : EntitySpec V} {entity : EntityType}
    (view : StatusView spec entity) {entities next : Entities} {userId : Uuid} {mutation : Mutation}
    {serverSeq : Int} {now : Instant} {logged : Json} (hentity : mutation.entity = entity)
    (h : spec.apply entities userId mutation serverSeq now = .ok (logged, next)) :
    StatusWritten entities next userId mutation := by
  obtain ⟨row, houtcome, rfl⟩ := EntitySpec.apply_eq_ok h
  subst hentity
  have hself : (spec.write entities mutation.entityId row).status
      (mutation.entity, mutation.entityId) = some (row.status view.parentOf) := by
    rw [EntitySpec.write, view.status, view.table_withTable, AList.lookup_insert]
    rfl
  have hothers : ∀ key, key ≠ (mutation.entity, mutation.entityId) →
      (spec.write entities mutation.entityId row).status key = entities.status key := by
    rintro ⟨entity, id⟩ hkey
    by_cases hentity : entity = mutation.entity
    · subst hentity
      have hid : id ≠ mutation.entityId := fun heq => hkey (by rw [heq])
      rw [EntitySpec.write, view.status, view.status, view.table_withTable,
        AList.lookup_insert_ne hid]
    · exact view.frame _ _ _ hentity
  have hold : ∀ old, (spec.table entities).lookup mutation.entityId = some old →
      entities.status (mutation.entity, mutation.entityId) = some (old.status view.parentOf) := by
    intro old hlookup
    rw [view.status, hlookup]
    rfl
  -- Each kind of operation went through its own checks.
  cases houtcome with
  | created values hkind _ hfree _ _ _ hparent =>
      have hnone : entities.status (mutation.entity, mutation.entityId) = none := by
        rw [view.status, hfree]
        rfl
      refine ⟨?_, ⟨_, hself, rfl⟩, hothers, ?_, ?_⟩
      · intro old hstatus
        rw [hnone] at hstatus
        cases hstatus
      · rintro ⟨status, hstatus, -⟩
        rw [hnone] at hstatus
        cases hstatus
      · intro _ status hstatus
        rw [hself] at hstatus
        cases hstatus
        show ∀ parent ∈ view.parentOf (spec.stored values), _
        rw [view.stored]
        exact view.ensureParent entities userId values hparent
  | patched row values hkind hrow howner hlive _ _ hparent =>
      refine ⟨?_, ⟨_, hself, howner⟩, hothers, ?_, ?_⟩
      · intro old hstatus
        rw [hold row hrow] at hstatus
        cases hstatus
        exact howner
      · rintro ⟨status, hstatus, hdeleted⟩
        rw [hold row hrow] at hstatus
        cases hstatus
        exact absurd hlive hdeleted
      · intro _ status hstatus
        rw [hself] at hstatus
        cases hstatus
        show ∀ parent ∈ view.parentOf (spec.stored values), _
        rw [view.stored]
        exact view.ensureParent entities userId values hparent
  | deleted row hkind hrow howner hlive =>
      refine ⟨?_, ⟨_, hself, howner⟩, hothers, ?_, fun hne => absurd hkind hne⟩
      · intro old hstatus
        rw [hold row hrow] at hstatus
        cases hstatus
        exact howner
      · rintro ⟨status, hstatus, hdeleted⟩
        rw [hold row hrow] at hstatus
        cases hstatus
        exact absurd hlive hdeleted
  | restored row values hkind hrow howner _ _ _ hparent =>
      refine ⟨?_, ⟨_, hself, howner⟩, hothers, fun _ => hkind, ?_⟩
      · intro old hstatus
        rw [hold row hrow] at hstatus
        cases hstatus
        exact howner
      · intro _ status hstatus
        rw [hself] at hstatus
        cases hstatus
        show ∀ parent ∈ view.parentOf (spec.stored values), _
        rw [view.stored]
        exact view.ensureParent entities userId values hparent

theorem applyMutation_written {env : Env} {entities next : Entities} {userId : Uuid}
    {mutation : Mutation} {serverSeq : Int} {now : Instant} {logged : Json}
    (h : applyMutation env entities userId mutation serverSeq now = .ok (logged, next)) :
    StatusWritten entities next userId mutation := by
  unfold applyMutation at h
  split at h
  · rename_i hentity
    exact listStatus.written hentity h
  · rename_i hentity
    exact (taskStatus env).written hentity h
  · rename_i hentity
    exact (stepStatus env).written hentity h
  · rename_i hentity
    exact (dayPlanStatus env).written hentity h

/-! ### The iterations of a run -/

/-- The iteration applied its operation. -/
def OpStep.Applied (step : OpStep) : Prop :=
  step.processed = true ∧ ∃ ack, step.ack = some ack ∧ ack.status = .applied

/-- What an iteration keeps of tombstones and parents. -/
structure TombstonesKept (step : OpStep) : Prop where
  /-- A deleted row is live afterwards only where its own restore was applied. -/
  lifted : ∀ key, step.before.db.entities.Deleted key → ¬ step.after.db.entities.Deleted key →
    key = (step.mutation.entity, step.mutation.entityId) ∧ step.mutation.kind = .restore ∧
      step.Applied
  /-- A create, a patch and a delete of a deleted row change nothing, and are rejected where they are decided. -/
  refused : step.before.db.entities.Deleted (step.mutation.entity, step.mutation.entityId) →
    step.mutation.kind ≠ .restore →
    step.after.db.entities = step.before.db.entities ∧
      step.after.db.changeLog = step.before.db.changeLog ∧
      (step.processed = true → ∃ ack, step.ack = some ack ∧ ack.status = .rejected)
  /-- A create, a patch or a restore that is applied leaves its row under a live parent of the account. -/
  parents : step.Applied → step.mutation.kind ≠ .delete →
    ∃ status, step.after.db.entities.status (step.mutation.entity, step.mutation.entityId) =
        some status ∧ status.userId = step.batch.auth.userId ∧
      ∀ parent ∈ status.parent, step.before.db.entities.LiveFor step.batch.auth.userId parent

theorem tombstonesKept_of_unchanged {step : OpStep}
    (hentities : step.after.db.entities = step.before.db.entities)
    (hlog : step.after.db.changeLog = step.before.db.changeLog)
    (hack : step.processed = true → ∃ ack, step.ack = some ack ∧ ack.status = .rejected) :
    TombstonesKept step where
  lifted key hdeleted hlive := by
    rw [hentities] at hlive
    exact absurd hdeleted hlive
  refused _ _ := ⟨hentities, hlog, hack⟩
  parents happlied _ := by
    obtain ⟨hprocessed, ack, hlast, hstatus⟩ := happlied
    obtain ⟨other, hother, hrejected⟩ := hack hprocessed
    rw [hlast] at hother
    cases hother
    rw [hstatus] at hrejected
    cases hrejected

theorem iteration_tombstonesKept {env : Env} {batch : Batch} {mutation : Mutation}
    {state next : LoopState} (h : OpOutcome env batch state mutation next) :
    TombstonesKept (iteration batch mutation state next) := by
  have hfresh : ∀ other : LoopState, other.db.opReceipts = state.db.opReceipts →
      (iteration batch mutation state other).processed ≠ true := by
    intro other hsame
    simp [OpStep.processed, iteration, hsame]
  cases h with
  | known receipt =>
      exact tombstonesKept_of_unchanged rfl rfl fun hprocessed => absurd hprocessed (hfresh _ rfl)
  | old =>
      exact tombstonesKept_of_unchanged rfl rfl fun hprocessed => absurd hprocessed (hfresh _ rfl)
  | rejected errorCode hop =>
      apply tombstonesKept_of_unchanged rfl rfl
      intro _
      exact ⟨_, List.getLast?_concat .., rfl⟩
  | applied patch entities hop happly =>
      have hwritten := applyMutation_written happly
      have happlied : (iteration batch mutation state
          (appliedState batch state mutation patch entities)).Applied := by
        refine ⟨?_, _, List.getLast?_concat .., rfl⟩
        simp [OpStep.processed, iteration, appliedState, hop.noReceiptYet]
      refine ⟨?_, ?_, ?_⟩
      · intro key hdeleted hlive
        have hkey : key = (mutation.entity, mutation.entityId) := by
          by_contra hne
          apply hlive
          obtain ⟨status, hstatus, hgone⟩ := hdeleted
          exact ⟨status, (hwritten.others key hne).trans hstatus, hgone⟩
        subst hkey
        exact ⟨rfl, hwritten.restores hdeleted, happlied⟩
      · exact fun hdeleted hkind => absurd (hwritten.restores hdeleted) hkind
      · intro _ hkind
        obtain ⟨status, hstatus, howner⟩ := hwritten.written
        exact ⟨status, hstatus, howner, hwritten.parents hkind status hstatus⟩

theorem trace_tombstonesKept (env : Env) (events : List ServerEvent) (db : Db) :
    ∀ step ∈ (server env).trace db events, TombstonesKept step :=
  fun step hstep => iteration_tombstonesKept (trace_outcome events db step hstep)

end ShishiTodo
