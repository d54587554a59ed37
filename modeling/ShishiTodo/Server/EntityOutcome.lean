import ShishiTodo.Server.Entities

/-!
# What an applied operation does to the entity tables

`EntitySpec.apply` taken apart once: an applied operation writes the one row under its id, and `EntityOutcome` says which checks it went through and which row it wrote. The tables of the other entities stay as they are.
-/

namespace ShishiTodo

open Lib

/-- Everything an applied operation can have done. -/
inductive EntityOutcome {V : Type} (spec : EntitySpec V) (entities : Entities) (userId : Uuid)
    (mutation : Mutation) (serverSeq : Int) (now : Instant) : Json → EntityRow V → Prop
  | created (values : V) (hkind : mutation.kind = .create)
      (hrequired : requirePresentFields mutation.patch spec.required = .ok ())
      (hfree : (spec.table entities).lookup mutation.entityId = none)
      (hpatched : spec.patched mutation.patch true (spec.blank now.dateNaive) = .ok values)
      (hcheck : spec.createCheck values = .ok ())
      (hvalid : spec.validate values = .ok ())
      (hparent : spec.ensureParent entities userId values = .ok ())
      (hkept : spec.violates entities userId mutation.entityId values = false) :
      EntityOutcome spec entities userId mutation serverSeq now (spec.changePatch values) {
        userId := userId
        values := spec.stored values
        serverRev := serverSeq
        createdAt := now
        updatedAt := now
        deletedAt := none }
  | patched (row : EntityRow V) (values : V) (hkind : mutation.kind = .patch)
      (hrow : (spec.table entities).lookup mutation.entityId = some row)
      (howner : row.userId = userId) (hlive : row.deletedAt = none)
      (hpatched : spec.patched mutation.patch false row.values = .ok values)
      (hvalid : spec.validate values = .ok ())
      (hparent : spec.ensureParent entities userId values = .ok ())
      (hkept : spec.violates entities userId mutation.entityId values = false) :
      EntityOutcome spec entities userId mutation serverSeq now (spec.logged mutation.patch values)
        { row with values := spec.stored values, serverRev := serverSeq, updatedAt := now }
  | deleted (row : EntityRow V) (hkind : mutation.kind = .delete)
      (hrow : (spec.table entities).lookup mutation.entityId = some row)
      (howner : row.userId = userId) (hlive : row.deletedAt = none)
      (hempty : ensureEmptyPatch mutation.patch = .ok ()) :
      EntityOutcome spec entities userId mutation serverSeq now (.obj [])
        { row with serverRev := serverSeq, updatedAt := now, deletedAt := some now }
  | restored (row : EntityRow V) (values : V) (hkind : mutation.kind = .restore)
      (hrow : (spec.table entities).lookup mutation.entityId = some row)
      (howner : row.userId = userId) (hdead : row.deletedAt ≠ none)
      (hpatched : spec.patched mutation.patch true row.values = .ok values)
      (hvalid : spec.validate values = .ok ())
      (hparent : spec.ensureParent entities userId values = .ok ())
      (hkept : spec.violates entities userId mutation.entityId values = false) :
      EntityOutcome spec entities userId mutation serverSeq now (spec.logged mutation.patch values)
        { row with
          values := spec.stored values
          serverRev := serverSeq
          updatedAt := now
          deletedAt := none }

namespace EntitySpec

variable {V : Type} {spec : EntitySpec V} {entities next : Entities} {userId : Uuid}
  {mutation : Mutation} {serverSeq : Int} {now : Instant} {logged : Json}

theorem selectRow_eq_some_iff {id : Uuid} {row : EntityRow V} :
    spec.selectRow entities userId id = some row ↔
      (spec.table entities).lookup id = some row ∧ row.userId = userId := by
  simp [selectRow, Option.filter_eq_some_iff]

/-- The tables after one row was written. -/
def write (spec : EntitySpec V) (entities : Entities) (id : Uuid) (row : EntityRow V) : Entities :=
  spec.withTable entities ((spec.table entities).insert id row)

theorem insertRow_eq_ok {id : Uuid} {values : V}
    (h : spec.insertRow entities userId id values serverSeq now = .ok next) :
    (spec.table entities).lookup id = none ∧ spec.violates entities userId id values = false ∧
      next = spec.write entities id {
        userId := userId
        values := spec.stored values
        serverRev := serverSeq
        createdAt := now
        updatedAt := now
        deletedAt := none } := by
  rw [insertRow, ite_error_eq_ok_iff] at h
  obtain ⟨hfree, hnext⟩ := h
  simp only [Bool.or_eq_true, not_or, Bool.not_eq_true, Option.isSome_eq_false_iff,
    Option.isNone_iff_eq_none] at hfree
  exact ⟨hfree.1, hfree.2, (Except.ok.inj hnext).symm⟩

theorem updateRow_eq_ok {id : Uuid} {row : EntityRow V} {values : V} {restoring : Bool}
    (h : spec.updateRow entities userId id row values serverSeq now restoring = .ok next) :
    spec.violates entities userId id values = false ∧
      next = spec.write entities id { row with
        values := spec.stored values
        serverRev := serverSeq
        updatedAt := now
        deletedAt := if restoring then none else row.deletedAt } := by
  rw [updateRow, ite_error_eq_ok_iff] at h
  exact ⟨by simpa using h.1, (Except.ok.inj h.2).symm⟩

theorem create_eq_ok (hkind : mutation.kind = .create)
    (h : spec.create entities userId mutation serverSeq now = .ok (logged, next)) :
    ∃ row, EntityOutcome spec entities userId mutation serverSeq now logged row ∧
      next = spec.write entities mutation.entityId row := by
  simp only [create, bind_eq_ok_iff, orReject_eq_ok_iff] at h
  obtain ⟨_, hrequired, _, -, values, hpatched, _, hcheck, _, hvalid, _, hparent, tables, hinsert, hresult⟩ := h
  obtain ⟨hfree, hkept, htables⟩ := insertRow_eq_ok hinsert
  cases hresult
  exact ⟨_, .created values hkind hrequired hfree hpatched hcheck hvalid hparent hkept, htables⟩

theorem patch_eq_ok (hkind : mutation.kind = .patch)
    (h : spec.patch entities userId mutation serverSeq now = .ok (logged, next)) :
    ∃ row, EntityOutcome spec entities userId mutation serverSeq now logged row ∧
      next = spec.write entities mutation.entityId row := by
  unfold patch at h
  split at h
  · cases h
  · rename_i row hselect
    obtain ⟨hrow, howner⟩ := selectRow_eq_some_iff.mp hselect
    simp only [bind_eq_ok_iff, orReject_eq_ok_iff, refuseIf_eq_ok_iff] at h
    obtain ⟨_, hlive, values, hpatched, _, hvalid, _, hparent, tables, hupdate, hresult⟩ := h
    obtain ⟨hkept, htables⟩ := updateRow_eq_ok hupdate
    cases hresult
    exact ⟨_, .patched row values hkind hrow howner (by simpa using hlive) hpatched hvalid hparent
      hkept, htables⟩

theorem delete_eq_ok (hkind : mutation.kind = .delete)
    (h : spec.delete entities userId mutation serverSeq now = .ok (logged, next)) :
    ∃ row, EntityOutcome spec entities userId mutation serverSeq now logged row ∧
      next = spec.write entities mutation.entityId row := by
  unfold delete at h
  split at h
  · cases h
  · rename_i row hselect
    obtain ⟨hrow, howner⟩ := selectRow_eq_some_iff.mp hselect
    simp only [bind_eq_ok_iff, orReject_eq_ok_iff, refuseIf_eq_ok_iff] at h
    obtain ⟨_, hlive, _, hempty, hresult⟩ := h
    cases hresult
    exact ⟨_, .deleted row hkind hrow howner (by simpa using hlive) hempty, rfl⟩

theorem restore_eq_ok (hkind : mutation.kind = .restore)
    (h : spec.restore entities userId mutation serverSeq now = .ok (logged, next)) :
    ∃ row, EntityOutcome spec entities userId mutation serverSeq now logged row ∧
      next = spec.write entities mutation.entityId row := by
  unfold restore at h
  split at h
  · cases h
  · rename_i row hselect
    obtain ⟨hrow, howner⟩ := selectRow_eq_some_iff.mp hselect
    simp only [bind_eq_ok_iff, orReject_eq_ok_iff, refuseIf_eq_ok_iff] at h
    obtain ⟨_, hdead, values, hpatched, _, hvalid, _, hparent, tables, hupdate, hresult⟩ := h
    obtain ⟨hkept, htables⟩ := updateRow_eq_ok hupdate
    cases hresult
    exact ⟨_, .restored row values hkind hrow howner (by simpa using hdead) hpatched hvalid hparent
      hkept, htables⟩

/-- An applied operation wrote one row, under its own id. -/
theorem apply_eq_ok (h : spec.apply entities userId mutation serverSeq now = .ok (logged, next)) :
    ∃ row, EntityOutcome spec entities userId mutation serverSeq now logged row ∧
      next = spec.write entities mutation.entityId row := by
  unfold apply at h
  cases hkind : mutation.kind with
  | create =>
      rw [hkind] at h
      exact create_eq_ok hkind h
  | patch =>
      rw [hkind] at h
      exact patch_eq_ok hkind h
  | delete =>
      rw [hkind] at h
      exact delete_eq_ok hkind h
  | restore =>
      rw [hkind] at h
      exact restore_eq_ok hkind h

end EntitySpec

end ShishiTodo
