import ShishiTodo.Server.Tombstones
import ShishiTodo.Lib.Owned

/-!
# Accounts apart

A request reads and writes the rows of its account. Two databases with the same rows of the account answer it alike, unless an operation comes with an id that another account has used; and whatever it writes, the rows of every other account stay as they are.
-/

namespace ShishiTodo

open Lib

/-- Both hold the same rows of the account. -/
structure SameRows (userId : Uuid) (left right : Entities) : Prop where
  lists : SameOwned EntityRow.userId userId left.lists right.lists
  tasks : SameOwned EntityRow.userId userId left.tasks right.tasks
  steps : SameOwned EntityRow.userId userId left.steps right.steps
  dayPlans : SameOwned EntityRow.userId userId left.dayPlans right.dayPlans

theorem SameRows.refl (userId : Uuid) (entities : Entities) : SameRows userId entities entities :=
  ⟨.refl _, .refl _, .refl _, .refl _⟩

/-- The operation creates a row under an id that another account has used. -/
def Entities.IdTaken (entities : Entities) (userId : Uuid) (mutation : Mutation) : Prop :=
  mutation.kind = .create ∧ ∃ status,
    entities.status (mutation.entity, mutation.entityId) = some status ∧ status.userId ≠ userId

/-- What an entity reads of the tables, and how its rows are written there. -/
structure TenantView {V : Type} (spec : EntitySpec V) (entity : EntityType)
    extends StatusView spec entity where
  table : ∀ {userId left right}, SameRows userId left right →
    SameOwned EntityRow.userId userId (spec.table left) (spec.table right)
  withTable : ∀ {userId left right tableLeft tableRight}, SameRows userId left right →
    SameOwned EntityRow.userId userId tableLeft tableRight →
    SameRows userId (spec.withTable left tableLeft) (spec.withTable right tableRight)
  unchanged : ∀ entities, spec.withTable entities (spec.table entities) = entities
  sameParent : ∀ {userId left right}, SameRows userId left right →
    ∀ values, spec.ensureParent left userId values = spec.ensureParent right userId values
  sameViolates : ∀ {userId left right}, SameRows userId left right →
    ∀ id values, spec.violates left userId id values = spec.violates right userId id values

section views

variable {userId : Uuid} {left right : Entities}

theorem missingReference_congr {V : Type} {left right : Table Uuid (EntityRow V)}
    (h : SameOwned EntityRow.userId userId left right) (key : Uuid) :
    missingReference left userId key = missingReference right userId key :=
  congrArg Option.isNone (h key)

/-- A row fails the test of a parent where the account has no live row. -/
theorem all_foreign_iff {V : Type} {table : Table Uuid (EntityRow V)} {key : Uuid} :
    ((table.lookup key).all fun row => row.userId != userId || row.deletedAt.isSome) =
      ((ownRow EntityRow.userId table userId key).all fun row => row.deletedAt.isSome) := by
  rw [ownRow]
  cases table.lookup key with
  | none => rfl
  | some row =>
      rw [Option.filter_some, Option.all_some]
      by_cases howner : row.userId = userId
      · simp [howner]
      · simp [howner]

theorem ensureActiveList_congr (h : SameRows userId left right) (listId : Option Uuid) :
    ensureActiveList left userId listId = ensureActiveList right userId listId := by
  cases listId with
  | none => rfl
  | some listId => rw [ensureActiveList, ensureActiveList, all_foreign_iff, all_foreign_iff, h.lists]

theorem ensureActiveTask_congr (h : SameRows userId left right) (taskId : Uuid) :
    ensureActiveTask left userId taskId = ensureActiveTask right userId taskId := by
  rw [ensureActiveTask, ensureActiveTask, all_foreign_iff, all_foreign_iff, h.tasks]

theorem recurrenceTaken_congr (h : SameRows userId left right) (id : Uuid) (values : TaskValues) :
    recurrenceTaken left userId id values = recurrenceTaken right userId id values := by
  rw [recurrenceTaken, recurrenceTaken, h.tasks.any]
  intro key row htest
  simp only [Bool.and_eq_true, beq_iff_eq] at htest
  exact htest.1.1.2

theorem daySlotTaken_congr (h : SameRows userId left right) (id : Uuid) (values : DayPlanValues) :
    daySlotTaken left userId id values = daySlotTaken right userId id values := by
  rw [daySlotTaken, daySlotTaken, h.dayPlans.any]
  intro key row htest
  simp only [Bool.and_eq_true, beq_iff_eq] at htest
  exact htest.1.1.2

def listTenant : TenantView listSpec .list where
  toStatusView := listStatus
  table h := h.lists
  withTable h htable := ⟨htable, h.tasks, h.steps, h.dayPlans⟩
  unchanged _ := rfl
  sameParent _ _ := rfl
  sameViolates _ _ _ := rfl

def taskTenant (env : Env) : TenantView (taskSpec env) .task where
  toStatusView := taskStatus env
  table h := h.tasks
  withTable h htable := ⟨h.lists, htable, h.steps, h.dayPlans⟩
  unchanged _ := rfl
  sameParent h values := ensureActiveList_congr h values.listId
  sameViolates h id values := by
    simp only [taskSpec, missingReference_congr h.lists, recurrenceTaken_congr h]

def stepTenant (env : Env) : TenantView (stepSpec env) .step where
  toStatusView := stepStatus env
  table h := h.steps
  withTable h htable := ⟨h.lists, h.tasks, htable, h.dayPlans⟩
  unchanged _ := rfl
  sameParent h values := ensureActiveTask_congr h values.taskId
  sameViolates h id values := by simp only [stepSpec, missingReference_congr h.tasks]

def dayPlanTenant (env : Env) : TenantView (dayPlanSpec env) .dayPlan where
  toStatusView := dayPlanStatus env
  table h := h.dayPlans
  withTable h htable := ⟨h.lists, h.tasks, h.steps, htable⟩
  unchanged _ := rfl
  sameParent h values := ensureActiveTask_congr h values.taskId
  sameViolates h id values := by
    simp only [dayPlanSpec, missingReference_congr h.tasks, daySlotTaken_congr h]

end views

/-! ### One operation -/

/-- The same patch is logged, and the account's rows are the same again. -/
def SameApplied (userId : Uuid) (left right : Json × Entities) : Prop :=
  left.1 = right.1 ∧ SameRows userId left.2 right.2

section operations

variable {V : Type} {spec : EntitySpec V} {entity : EntityType} (view : TenantView spec entity)
  {userId : Uuid} {left right : Entities} {mutation : Mutation} {serverSeq : Int} {now : Instant}

include view

theorem TenantView.unclaimed (hentity : mutation.entity = entity) (hkind : mutation.kind = .create)
    (h : ¬ left.IdTaken userId mutation) :
    Unclaimed EntityRow.userId (spec.table left) userId mutation.entityId := by
  intro row hrow
  by_contra howner
  refine h ⟨hkind, row.status view.parentOf, ?_, howner⟩
  rw [hentity, view.status, hrow]
  rfl

theorem TenantView.updateRow_alike (h : SameRows userId left right) (id : Uuid) (row : EntityRow V)
    (values : V) (restoring : Bool) :
    Alike (SameRows userId) (spec.updateRow left userId id row values serverSeq now restoring)
      (spec.updateRow right userId id row values serverSeq now restoring) := by
  rw [EntitySpec.updateRow, EntitySpec.updateRow, view.sameViolates h]
  exact alike_ite_error fun _ => view.withTable h ((view.table h).insert id _)

theorem TenantView.create_alike (h : SameRows userId left right)
    (hleft : Unclaimed EntityRow.userId (spec.table left) userId mutation.entityId)
    (hright : Unclaimed EntityRow.userId (spec.table right) userId mutation.entityId) :
    Alike (SameApplied userId) (spec.create left userId mutation serverSeq now)
      (spec.create right userId mutation serverSeq now) := by
  unfold EntitySpec.create
  rw [show spec.selectRow left userId mutation.entityId = spec.selectRow right userId mutation.entityId
    from view.table h mutation.entityId]
  refine Alike.bind_same _ fun _ => Alike.bind_same _ fun _ => Alike.bind_same _ fun values =>
    Alike.bind_same _ fun _ => Alike.bind_same _ fun _ => ?_
  rw [view.sameParent h values]
  refine Alike.bind_same _ fun _ => ?_
  have hinsert : Alike (SameRows userId)
      (spec.insertRow left userId mutation.entityId values serverSeq now)
      (spec.insertRow right userId mutation.entityId values serverSeq now) := by
    rw [EntitySpec.insertRow, EntitySpec.insertRow, view.sameViolates h,
      (view.table h).lookup_eq hleft hright]
    exact alike_ite_error fun _ => view.withTable h ((view.table h).insert mutation.entityId _)
  exact hinsert.bind fun _ _ hsame => ⟨rfl, hsame⟩

theorem TenantView.patch_alike (h : SameRows userId left right) :
    Alike (SameApplied userId) (spec.patch left userId mutation serverSeq now)
      (spec.patch right userId mutation serverSeq now) := by
  unfold EntitySpec.patch
  rw [show spec.selectRow left userId mutation.entityId = spec.selectRow right userId mutation.entityId
    from view.table h mutation.entityId]
  cases spec.selectRow right userId mutation.entityId with
  | none => exact rfl
  | some row =>
      refine Alike.bind_same _ fun _ => Alike.bind_same _ fun values => Alike.bind_same _ fun _ => ?_
      rw [view.sameParent h values]
      refine Alike.bind_same _ fun _ => ?_
      apply Alike.bind (view.updateRow_alike h mutation.entityId row values false)
      exact fun _ _ hsame => ⟨rfl, hsame⟩

theorem TenantView.delete_alike (h : SameRows userId left right) :
    Alike (SameApplied userId) (spec.delete left userId mutation serverSeq now)
      (spec.delete right userId mutation serverSeq now) := by
  unfold EntitySpec.delete
  rw [show spec.selectRow left userId mutation.entityId = spec.selectRow right userId mutation.entityId
    from view.table h mutation.entityId]
  cases spec.selectRow right userId mutation.entityId with
  | none => exact rfl
  | some row =>
      refine Alike.bind_same _ fun _ => Alike.bind_same _ fun _ => ?_
      exact ⟨rfl, view.withTable h ((view.table h).insert mutation.entityId _)⟩

theorem TenantView.restore_alike (h : SameRows userId left right) :
    Alike (SameApplied userId) (spec.restore left userId mutation serverSeq now)
      (spec.restore right userId mutation serverSeq now) := by
  unfold EntitySpec.restore
  rw [show spec.selectRow left userId mutation.entityId = spec.selectRow right userId mutation.entityId
    from view.table h mutation.entityId]
  cases spec.selectRow right userId mutation.entityId with
  | none => exact rfl
  | some row =>
      refine Alike.bind_same _ fun _ => Alike.bind_same _ fun values => Alike.bind_same _ fun _ => ?_
      rw [view.sameParent h values]
      refine Alike.bind_same _ fun _ => ?_
      apply Alike.bind (view.updateRow_alike h mutation.entityId row values true)
      exact fun _ _ hsame => ⟨rfl, hsame⟩

theorem TenantView.apply_alike (hentity : mutation.entity = entity) (h : SameRows userId left right)
    (hleft : ¬ left.IdTaken userId mutation) (hright : ¬ right.IdTaken userId mutation) :
    Alike (SameApplied userId) (spec.apply left userId mutation serverSeq now)
      (spec.apply right userId mutation serverSeq now) := by
  unfold EntitySpec.apply
  cases hkind : mutation.kind with
  | create =>
      exact view.create_alike h (view.unclaimed hentity hkind hleft)
        (view.unclaimed hentity hkind hright)
  | patch => exact view.patch_alike h
  | delete => exact view.delete_alike h
  | restore => exact view.restore_alike h

/-- A row that another account has under the id breaks the primary key, once the other checks are passed. -/
theorem TenantView.apply_taken (hentity : mutation.entity = entity) (h : SameRows userId left right)
    (htaken : left.IdTaken userId mutation) :
    FailsAs (.database .constraint) (spec.apply left userId mutation serverSeq now)
      (spec.apply right userId mutation serverSeq now) := by
  obtain ⟨hkind, status, hstatus, howner⟩ := htaken
  rw [hentity, view.status] at hstatus
  obtain ⟨row, hrow, rfl⟩ := Option.map_eq_some_iff.mp hstatus
  unfold EntitySpec.apply
  simp only [hkind]
  unfold EntitySpec.create
  rw [show spec.selectRow left userId mutation.entityId = spec.selectRow right userId mutation.entityId
    from view.table h mutation.entityId]
  refine FailsAs.bind_same _ fun _ => FailsAs.bind_same _ fun _ => FailsAs.bind_same _ fun values =>
    FailsAs.bind_same _ fun _ => FailsAs.bind_same _ fun _ => ?_
  rw [view.sameParent h values]
  refine FailsAs.bind_same _ fun _ => Or.inl ?_
  rw [EntitySpec.insertRow, hrow]
  rfl

/-- The rows of another account stay as they are. -/
theorem TenantView.apply_others {other : Uuid} {entities next : Entities} {logged : Json}
    (hother : other ≠ userId)
    (h : spec.apply entities userId mutation serverSeq now = .ok (logged, next)) :
    SameRows other entities next := by
  obtain ⟨row, houtcome, rfl⟩ := EntitySpec.apply_eq_ok h
  have howners : row.userId = userId ∧
      ∀ old, (spec.table entities).lookup mutation.entityId = some old → old.userId = userId := by
    cases houtcome with
    | created values _ _ hfree =>
        refine ⟨rfl, fun old hold => ?_⟩
        rw [hfree] at hold
        cases hold
    | patched row values _ hrow howner =>
        refine ⟨howner, fun old hold => ?_⟩
        rw [hrow] at hold
        cases hold
        exact howner
    | deleted row _ hrow howner =>
        refine ⟨howner, fun old hold => ?_⟩
        rw [hrow] at hold
        cases hold
        exact howner
    | restored row values _ hrow howner =>
        refine ⟨howner, fun old hold => ?_⟩
        rw [hrow] at hold
        cases hold
        exact howner
  have hsame : SameOwned EntityRow.userId other (spec.table entities)
      ((spec.table entities).insert mutation.entityId row) := by
    apply SameOwned.insert_other
    · exact fun heq => hother (heq.symm.trans howners.1)
    · exact fun old hold heq => hother (heq.symm.trans (howners.2 old hold))
  have hwritten := view.withTable (SameRows.refl other entities) hsame
  rwa [view.unchanged] at hwritten

end operations

section operations

variable {userId : Uuid} {left right : Entities} {mutation : Mutation}

theorem applyMutation_alike (env : Env) (serverSeq : Int) (now : Instant)
    (h : SameRows userId left right) (hleft : ¬ left.IdTaken userId mutation)
    (hright : ¬ right.IdTaken userId mutation) :
    Alike (SameApplied userId) (applyMutation env left userId mutation serverSeq now)
      (applyMutation env right userId mutation serverSeq now) := by
  unfold applyMutation
  cases hentity : mutation.entity with
  | list => exact listTenant.apply_alike hentity h hleft hright
  | task => exact (taskTenant env).apply_alike hentity h hleft hright
  | step => exact (stepTenant env).apply_alike hentity h hleft hright
  | dayPlan => exact (dayPlanTenant env).apply_alike hentity h hleft hright

theorem applyMutation_taken (env : Env) (serverSeq : Int) (now : Instant)
    (h : SameRows userId left right) (htaken : left.IdTaken userId mutation) :
    FailsAs (.database .constraint) (applyMutation env left userId mutation serverSeq now)
      (applyMutation env right userId mutation serverSeq now) := by
  unfold applyMutation
  cases hentity : mutation.entity with
  | list => exact listTenant.apply_taken hentity h htaken
  | task => exact (taskTenant env).apply_taken hentity h htaken
  | step => exact (stepTenant env).apply_taken hentity h htaken
  | dayPlan => exact (dayPlanTenant env).apply_taken hentity h htaken

theorem applyMutation_others {env : Env} {serverSeq : Int} {now : Instant} {other : Uuid}
    {entities next : Entities} {logged : Json}
    (hother : other ≠ userId)
    (h : applyMutation env entities userId mutation serverSeq now = .ok (logged, next)) :
    SameRows other entities next := by
  unfold applyMutation at h
  split at h
  · exact listTenant.apply_others hother h
  · exact (taskTenant env).apply_others hother h
  · exact (stepTenant env).apply_others hother h
  · exact (dayPlanTenant env).apply_others hother h

end operations

end ShishiTodo
