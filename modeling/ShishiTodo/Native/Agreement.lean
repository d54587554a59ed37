import ShishiTodo.Native.Projection
import ShishiTodo.Lib.Journal

/-!
# When two copies of an entity agree

Copies of an entity agree when they have the same mutable fields and are both deleted or both not. Replaying a mutation keeps the agreement, and so does reading the copies as rows.
-/

namespace ShishiTodo.Native

open Lib

/-- `deletedAt` is there and is not `null`. -/
def tombstone (data : Data) : Bool :=
  match data.lookup "deletedAt" with
  | none | some .null => false
  | some _ => true

structure Agree (entity : EntityType) (left right : Data) : Prop where
  fields : ∀ field ∈ mutableFields entity, left.lookup field = right.lookup field
  tombstone : tombstone left = tombstone right

instance (entity : EntityType) (left right : Data) : Decidable (Agree entity left right) :=
  decidable_of_iff ((∀ field ∈ mutableFields entity, left.lookup field = right.lookup field) ∧
    tombstone left = tombstone right) ⟨fun h => ⟨h.1, h.2⟩, fun h => ⟨h.1, h.2⟩⟩

namespace Agree

variable {entity : EntityType} {first second third : Data}

theorem refl (entity : EntityType) (data : Data) : Agree entity data data := ⟨fun _ _ => rfl, rfl⟩

theorem trans (hfirst : Agree entity first second) (hsecond : Agree entity second third) :
    Agree entity first third :=
  ⟨fun field hfield => (hfirst.fields field hfield).trans (hsecond.fields field hfield),
    hfirst.tombstone.trans hsecond.tombstone⟩

end Agree

/-! ### One mutation -/

theorem lookup_copyFields (patch : Data) (key : String) (fields : List String) (data : Data) :
    (copyFields patch fields data).lookup key =
      if key ∈ fields then (patch.lookup key).or (data.lookup key) else data.lookup key := by
  induction fields generalizing data with
  | nil => rfl
  | cons field rest ih =>
      rw [copyFields]
      cases hpatch : patch.lookup field with
      | none =>
          simp only [ih, List.mem_cons]
          by_cases hkey : key = field
          · subst hkey
            simp [hpatch]
          · simp [hkey]
      | some value =>
          simp only [ih, List.mem_cons, Json.lookup_putMember]
          by_cases hkey : key = field
          · subst hkey
            simp [hpatch]
          · simp [hkey]

/-- What a mutation cannot set by a field of its patch. -/
theorem notMem_mutableFields (entity : EntityType) {key : String}
    (h : key ∈ ["id", "createdAt", "updatedAt", "deletedAt"]) : key ∉ mutableFields entity := by
  simp only [List.mem_cons, List.not_mem_nil, or_false] at h
  rcases h with rfl | rfl | rfl | rfl <;> cases entity <;> decide

theorem ne_of_mem_mutableFields {entity : EntityType} {field key : String}
    (hfield : field ∈ mutableFields entity)
    (hkey : key ∈ ["id", "createdAt", "updatedAt", "deletedAt"]) : field ≠ key :=
  fun h => notMem_mutableFields entity hkey (h ▸ hfield)

theorem lookup_mutationBase_field {entity : EntityType} {field : String}
    (hfield : field ∈ mutableFields entity) (base : Data) (mutation : OutboxRow) (now : String) :
    (mutationBase base mutation now).lookup field =
      if mutation.kind = .create then none else base.lookup field := by
  have hid := ne_of_mem_mutableFields hfield (show "id" ∈ _ by decide)
  have hcreated := ne_of_mem_mutableFields hfield (show "createdAt" ∈ _ by decide)
  cases hkind : mutation.kind <;>
    simp [mutationBase, hkind, Json.lookup_cons_eq_ite, Json.lookup_putMember, hid, hcreated]

theorem lookup_applyMutationToData_field {entity : EntityType} {field : String}
    (hfield : field ∈ mutableFields entity) (base : Data) (mutation : OutboxRow) (now : String) :
    (applyMutationToData entity base mutation now).lookup field =
      match mutation.kind with
      | .delete => base.lookup field
      | .create => mutation.patch.lookup field
      | .patch | .restore => (mutation.patch.lookup field).or (base.lookup field) := by
  have hdeleted := ne_of_mem_mutableFields hfield (show "deletedAt" ∈ _ by decide)
  have hupdated := ne_of_mem_mutableFields hfield (show "updatedAt" ∈ _ by decide)
  have hbase := lookup_mutationBase_field hfield base mutation now
  cases hkind : mutation.kind <;>
    simp [applyMutationToData, hkind, Json.lookup_putMember, lookup_copyFields, hfield, hdeleted,
      hupdated, hbase]

theorem lookup_applyMutationToData_deletedAt (entity : EntityType) (base : Data)
    (mutation : OutboxRow) (now : String) :
    (applyMutationToData entity base mutation now).lookup "deletedAt" =
      match mutation.kind with
      | .delete => some (.str now)
      | .create => none
      | .restore => some .null
      | .patch => base.lookup "deletedAt" := by
  have hfield := notMem_mutableFields entity (show "deletedAt" ∈ _ by decide)
  cases hkind : mutation.kind <;>
    simp [applyMutationToData, mutationBase, hkind, Json.lookup_putMember, lookup_copyFields, hfield,
      Json.lookup_cons_eq_ite]

theorem tombstone_applyMutationToData (entity : EntityType) (base : Data) (mutation : OutboxRow)
    (now : String) :
    tombstone (applyMutationToData entity base mutation now) =
      match mutation.kind with
      | .delete => true
      | .create | .restore => false
      | .patch => tombstone base := by
  rw [tombstone, lookup_applyMutationToData_deletedAt]
  cases mutation.kind <;> rfl

theorem Agree.apply {entity : EntityType} {left right : Data} (h : Agree entity left right)
    (mutation : OutboxRow) (now : String) :
    Agree entity (applyMutationToData entity left mutation now)
      (applyMutationToData entity right mutation now) := by
  refine ⟨fun field hfield => ?_, ?_⟩
  · rw [lookup_applyMutationToData_field hfield, lookup_applyMutationToData_field hfield,
      h.fields field hfield]
  · rw [tombstone_applyMutationToData, tombstone_applyMutationToData, h.tombstone]

/-- Replaying mutations, as the projection does at one time. -/
def projection (now : String) : Journal RowKey Data OutboxRow where
  keyOf := OutboxRow.key
  apply data mutation := applyMutationToData mutation.entity data mutation now
  Same key := Agree key.1
  refl key := Agree.refl key.1
  trans _ _ _ _ := Agree.trans
  congr := by
    rintro key first second op rfl h
    exact h.apply op now

/-! ### Fields one by one -/

theorem forall_list_fields {P : String → Prop} : (∀ field ∈ mutableFields .list, P field) ↔
    P "name" ∧ P "color" ∧ P "icon" ∧ P "rank" := by
  simp [mutableFields]

theorem forall_task_fields {P : String → Prop} : (∀ field ∈ mutableFields .task, P field) ↔
    P "listId" ∧ P "title" ∧ P "note" ∧ P "tags" ∧ P "status" ∧ P "important" ∧ P "dueOn" ∧
      P "remindAt" ∧ P "remindTimezone" ∧ P "rank" ∧ P "seriesId" ∧ P "occurrenceKey" ∧
      P "recurrence" ∧ P "completedAt" := by
  simp [mutableFields]

theorem forall_step_fields {P : String → Prop} : (∀ field ∈ mutableFields .step, P field) ↔
    P "taskId" ∧ P "title" ∧ P "isCompleted" ∧ P "rank" := by
  simp [mutableFields]

theorem forall_dayPlan_fields {P : String → Prop} : (∀ field ∈ mutableFields .dayPlan, P field) ↔
    P "taskId" ∧ P "localDate" ∧ P "rank" := by
  simp [mutableFields]

/-! ### Reading a copy -/

theorem Row.tombstone_data (row : Row) : tombstone row.data = row.deletedAt.isSome := by
  have hread : ∀ deletedAt : Option String,
      (match some (textJson deletedAt) with
        | none | some .null => false
        | some _ => true) = deletedAt.isSome := by
    intro deletedAt
    cases deletedAt <;> rfl
  cases row <;> exact hread _

/-- The row reads its tombstone where the copy has one. -/
def TombstoneReads (data : Data) : Prop := (nullableString data "deletedAt").isSome = tombstone data

instance (data : Data) : Decidable (TombstoneReads data) := decEq _ _

theorem TombstoneReads.apply {data : Data} (h : TombstoneReads data) (entity : EntityType)
    (mutation : OutboxRow) {now : String} (hnow : now ≠ "") :
    TombstoneReads (applyMutationToData entity data mutation now) := by
  have hlookup := lookup_applyMutationToData_deletedAt entity data mutation now
  rw [TombstoneReads, nullableString, stringField] at h
  rw [TombstoneReads, nullableString, stringField, tombstone_applyMutationToData, hlookup]
  cases mutation.kind with
  | create => rfl
  | patch => exact h
  | delete => simp [asStr, hnow]
  | restore => rfl

theorem TombstoneReads.replay {now : String} (hnow : now ≠ "") {data : Data}
    (h : TombstoneReads data) (mutations : List OutboxRow) :
    TombstoneReads ((projection now).replay data mutations) := by
  induction mutations generalizing data with
  | nil => exact h
  | cons mutation rest ih => exact ih (h.apply mutation.entity mutation hnow)

/-- The row is what its own data reads as. -/
def Row.ReadsBack (texts : Texts) (row : Row) : Prop :=
  Agree row.entity (rowFromData texts row.key row.data "").data row.data

instance (texts : Texts) (row : Row) : Decidable (row.ReadsBack texts) :=
  inferInstanceAs (Decidable (Agree _ _ _))

theorem Row.ReadsBack.tombstoneReads {texts : Texts} {row : Row} (h : row.ReadsBack texts) :
    TombstoneReads row.data := by
  have htombstone := h.tombstone
  rw [Row.tombstone_data] at htombstone
  rw [TombstoneReads, ← htombstone]
  cases row <;> rfl

@[simp] theorem rowFromData_key (texts : Texts) (key : RowKey) (data : Data) (now : String) :
    (rowFromData texts key data now).key = key := by
  obtain ⟨entity, id⟩ := key
  cases entity <;> rfl

theorem rowFromData_deletedAt (texts : Texts) (key : RowKey) (data : Data) (now : String) :
    (rowFromData texts key data now).deletedAt = nullableString data "deletedAt" := by
  obtain ⟨entity, id⟩ := key
  cases entity <;> rfl

/-- A mutable field of a row is read from that field of the data alone. -/
theorem lookup_rowFromData {key : RowKey} {field : String} (hfield : field ∈ mutableFields key.1)
    {left right : Data} (h : left.lookup field = right.lookup field) (texts : Texts)
    (now later : String) :
    (rowFromData texts key left now).data.lookup field =
      (rowFromData texts key right later).data.lookup field := by
  suffices hall : ∀ field ∈ mutableFields key.1, left.lookup field = right.lookup field →
      (rowFromData texts key left now).data.lookup field =
        (rowFromData texts key right later).data.lookup field from hall field hfield h
  obtain ⟨entity, id⟩ := key
  cases entity with
  | list =>
      refine forall_list_fields.mpr ⟨?_, ?_, ?_, ?_⟩ <;> intro h <;>
        simp [rowFromData, Row.data, TaskList.data, listFromData, requiredString, nullableString,
          stringField, h, Json.lookup_cons_eq_ite]
  | task =>
      refine forall_task_fields.mpr ⟨?_, ?_, ?_, ?_, ?_, ?_, ?_, ?_, ?_, ?_, ?_, ?_, ?_, ?_⟩ <;>
        intro h <;>
        simp [rowFromData, Row.data, Task.data, taskFromData, requiredString, nullableString,
          stringField, tagsFromData, statusField, boolField, dateField, recurrenceField, h, Json.lookup_cons_eq_ite]
  | step =>
      refine forall_step_fields.mpr ⟨?_, ?_, ?_, ?_⟩ <;> intro h <;>
        simp [rowFromData, Row.data, Step.data, stepFromData, requiredString, stringField, boolField, h,
          Json.lookup_cons_eq_ite]
  | dayPlan =>
      refine forall_dayPlan_fields.mpr ⟨?_, ?_, ?_⟩ <;> intro h <;>
        simp [rowFromData, Row.data, DayPlan.data, dayPlanFromData, requiredString, stringField,
          dateField, h, Json.lookup_cons_eq_ite]

/-- Copies that agree are read as rows that agree. -/
theorem Agree.read {key : RowKey} {left right : Data} (h : Agree key.1 left right)
    (hleft : TombstoneReads left) (hright : TombstoneReads right) (texts : Texts)
    (now later : String) :
    Agree key.1 (rowFromData texts key left now).data (rowFromData texts key right later).data := by
  refine ⟨fun field hfield => lookup_rowFromData hfield (h.fields field hfield) texts now later, ?_⟩
  rw [Row.tombstone_data, Row.tombstone_data, rowFromData_deletedAt, rowFromData_deletedAt,
    hleft, hright, h.tombstone]

end ShishiTodo.Native
