import ShishiTodo.Native.Sync

/-!
# Members of patches and copies

A property of single members, of a name and its value, goes through every way in which data is put together: members that are put, patches that are merged or copied, mutations that are replayed.
-/

namespace ShishiTodo.Native

open Lib

/-- Every member of the data has the property. -/
def Each (P : String → Json → Prop) (data : Data) : Prop := ∀ member ∈ data, P member.1 member.2

section

variable {P : String → Json → Prop} {name : String} {value : Json} {data patch : Data}

theorem mem_putMember {member : String × Json} (h : member ∈ Json.putMember name value data) :
    member = (name, value) ∨ member ∈ data := by
  induction data with
  | nil => exact .inl (List.mem_singleton.mp h)
  | cons first rest ih =>
      obtain ⟨other, old⟩ := first
      rw [Json.putMember] at h
      split at h
      · rcases List.mem_cons.mp h with heq | hrest
        · exact .inl heq
        · exact .inr (List.mem_cons_of_mem _ hrest)
      · rcases List.mem_cons.mp h with heq | hrest
        · exact .inr (heq ▸ List.mem_cons_self)
        · exact (ih hrest).imp_right (List.mem_cons_of_mem _)

/-- What is looked up is a member. -/
theorem mem_of_lookup (h : data.lookup name = some value) : (name, value) ∈ data := by
  induction data with
  | nil => cases h
  | cons first rest ih =>
      obtain ⟨other, old⟩ := first
      rw [Json.lookup_cons_eq_ite] at h
      split at h
      · rename_i heq
        cases h
        exact heq ▸ List.mem_cons_self
      · exact List.mem_cons_of_mem _ (ih h)

theorem each_nil : Each P [] := fun _ hmember => absurd hmember List.not_mem_nil

theorem Each.lookup (h : Each P data) (hlookup : data.lookup name = some value) : P name value :=
  h _ (mem_of_lookup hlookup)

theorem Each.put (h : Each P data) (hvalue : P name value) : Each P (Json.putMember name value data) := by
  intro member hmember
  rcases mem_putMember hmember with rfl | hold
  · exact hvalue
  · exact h member hold

theorem Each.foldl_put {α : Type} {nameOf : α → String} {valueOf : α → Json} {items : List α}
    (h : Each P data) (hitems : ∀ item ∈ items, P (nameOf item) (valueOf item)) :
    Each P (items.foldl (fun data item => Json.putMember (nameOf item) (valueOf item) data) data) := by
  induction items generalizing data with
  | nil => exact h
  | cons item rest ih =>
      exact ih (h.put (hitems item List.mem_cons_self)) fun other hother =>
        hitems other (List.mem_cons_of_mem item hother)

theorem Each.merge (hpatch : Each P patch) (h : Each P data) : Each P (mergeData patch data) :=
  Each.foldl_put h hpatch

theorem Each.copyFields (hpatch : Each P patch) (h : Each P data) (fields : List String) :
    Each P (copyFields patch fields data) := by
  induction fields generalizing data with
  | nil => exact h
  | cons field rest ih =>
      rw [Native.copyFields]
      split
      · rename_i value hlookup
        exact ih (h.put (hpatch.lookup hlookup))
      · exact ih h

theorem each_present {fields : List (String × Option Json)}
    (h : ∀ field ∈ fields, ∀ value, field.2 = some value → P field.1 value) : Each P (present fields) := by
  induction fields with
  | nil => exact each_nil
  | cons field rest ih =>
      obtain ⟨name, value⟩ := field
      have hrest := ih fun other hother => h other (List.mem_cons_of_mem _ hother)
      cases value with
      | none => exact hrest
      | some value => exact List.forall_mem_cons.mpr ⟨h _ List.mem_cons_self value rfl, hrest⟩

/-! ### Changes and mutations -/

/-- The members that a mutation or a change sets by itself. -/
def ownMembers : List String := ["id", "createdAt", "updatedAt", "deletedAt"]

theorem Each.normalizedPatch (hown : ∀ name ∈ ownMembers, ∀ value, P name value) (h : Each P patch)
    (kind : MutationKind) (now : String) : Each P (normalizedPatch kind patch now) := by
  have hdeleted : ∀ value, P "deletedAt" value := hown "deletedAt" (by decide)
  cases kind with
  | create => exact h
  | patch => exact h
  | delete =>
      rw [Native.normalizedPatch]
      split
      · exact h
      · exact h.put (hdeleted _)
  | restore => exact h.put (hdeleted _)

variable {entity : EntityType} {mutation : OutboxRow} {now : String}

theorem Each.applyMutation (hown : ∀ name ∈ ownMembers, ∀ value, P name value) (h : Each P data)
    (hpatch : Each P mutation.patch) : Each P (applyMutationToData entity data mutation now) := by
  have hput : ∀ {data : Data} {name : String} {value : Json}, Each P data → name ∈ ownMembers →
      Each P (Json.putMember name value data) := fun hdata hname => hdata.put (hown _ hname _)
  have hbase : Each P (mutationBase data mutation now) := by
    rw [mutationBase]
    split
    · have hcreated : Each P [("createdAt", .str now)] := hput each_nil (by decide)
      intro member hmember
      rcases List.mem_cons.mp hmember with rfl | hrest
      · exact hown "id" (by decide) _
      · exact hcreated member hrest
    · exact hput h (by decide)
  rw [applyMutationToData]
  split
  · exact hput (hput hbase (by decide)) (by decide)
  · apply hput _ (by decide)
    apply hpatch.copyFields
    split
    · exact hput hbase (by decide)
    · exact hbase

/-- What is replayed over data has the property where the data and the patches have it. -/
theorem Each.replayed (hown : ∀ name ∈ ownMembers, ∀ value, P name value) {pending : List OutboxRow}
    (h : Each P data) (hpending : ∀ mutation ∈ pending, Each P mutation.patch) :
    Each P (pending.foldl (fun data mutation => applyMutationToData entity data mutation now) data) := by
  induction pending generalizing data with
  | nil => exact h
  | cons mutation rest ih =>
      apply ih
      · exact h.applyMutation hown (hpending mutation List.mem_cons_self)
      · exact fun other hother => hpending other (List.mem_cons_of_mem mutation hother)

theorem Each.projected (hown : ∀ name ∈ ownMembers, ∀ value, P name value) {key : RowKey}
    {pending : List OutboxRow} (h : Each P data) (hpending : ∀ mutation ∈ pending, Each P mutation.patch) :
    Each P (projectedData key data pending now) :=
  (h.put (hown "id" (by decide) _)).replayed hown hpending

end

/-- The pending mutations of an entity are mutations of the outbox about it. -/
theorem mem_pendingForEntity {outbox : Table String OutboxRow} {key : RowKey} {row : OutboxRow}
    (h : row ∈ pendingForEntity outbox key) : row ∈ outbox.values ∧ row.key = key := by
  rw [pendingForEntity, List.mem_insertionSort, List.mem_filter] at h
  obtain ⟨hmem, htest⟩ := h
  exact ⟨hmem, beq_iff_eq.mp (Bool.and_eq_true_iff.mp htest).1⟩

end ShishiTodo.Native
