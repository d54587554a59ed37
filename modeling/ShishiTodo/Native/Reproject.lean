import ShishiTodo.Native.Explained

/-!
# Projecting again what the outbox explains

While all the mutations of an entity are pending, the projection replays the same mutations over the same row, so the row comes out as it is. What can still go wrong is the reading: a row that is not what its own data reads as is changed by any projection.
-/

namespace ShishiTodo.Native

open Lib

theorem projectedData_eq_replay (payload : Data) {key : RowKey} {pending : List OutboxRow}
    (hpending : ∀ mutation ∈ pending, mutation.key = key) (now : String) :
    projectedData key payload pending now =
      (projection now).replay (Json.putMember "id" (.str key.2) payload) pending := by
  apply List.foldl_ext
  intro data mutation hmem
  show _ = applyMutationToData mutation.entity data mutation now
  rw [← hpending mutation hmem]
  rfl

theorem agree_putMember_id (entity : EntityType) (id : Json) (data : Data) :
    Agree entity (Json.putMember "id" id data) data := by
  refine ⟨fun field hfield => ?_, ?_⟩
  · rw [Json.lookup_putMember, if_neg (ne_of_mem_mutableFields hfield (by decide))]
  · rw [tombstone, Json.lookup_putMember, if_neg (by decide), ← tombstone]

theorem TombstoneReads.putMember_id {data : Data} (h : TombstoneReads data) (id : Json) :
    TombstoneReads (Json.putMember "id" id data) := by
  rw [TombstoneReads, (agree_putMember_id .list id data).tombstone, nullableString, stringField,
    Json.lookup_putMember, if_neg (by decide)]
  exact h

/-- The references of a row are among its mutable fields. -/
theorem Agree.task_listId {task other : Task} (h : Agree .task task.data other.data) :
    task.listId = other.listId := by
  have hfield : textJson task.listId = textJson other.listId :=
    Option.some.inj (h.fields "listId" (by decide))
  cases hleft : task.listId <;> cases hright : other.listId <;> simp_all [textJson, Json.ofOption]

theorem Agree.step_taskId {step other : Step} (h : Agree .step step.data other.data) :
    step.taskId = other.taskId :=
  Json.str.inj (Option.some.inj (h.fields "taskId" (by decide)))

theorem Agree.plan_slot {plan other : DayPlan} (h : Agree .dayPlan plan.data other.data) :
    plan.taskId = other.taskId ∧ plan.localDate = other.localDate :=
  ⟨Json.str.inj (Option.some.inj (h.fields "taskId" (by decide))),
    Json.str.inj (Option.some.inj (h.fields "localDate" (by decide)))⟩

/-- A row that agrees with the row in its place fits there, and no other row holds its slot. -/
theorem fitted_of_agree {tables : Tables} (h : tables.Consistent) {row other : Row}
    (hfind : tables.find row.key = some row) (hkey : other.key = row.key)
    (hagree : Agree row.entity other.data row.data) :
    fitted tables other = some other ∧ ∀ key, (cleared tables other).find key = tables.find key := by
  cases row with
  | list list =>
      cases other with
      | list value => exact ⟨rfl, fun _ => rfl⟩
      | task value => cases hkey
      | step value => cases hkey
      | dayPlan value => cases hkey
  | task task =>
      cases other with
      | task value =>
          obtain ⟨found, hlookup, hfound⟩ := Option.map_eq_some_iff.mp hfind
          cases hfound
          refine ⟨?_, fun _ => rfl⟩
          have hkept : (value.listId.filter fun listId => (tables.lists.lookup listId).isSome) =
              value.listId := by
            cases hlist : value.listId with
            | none => rfl
            | some listId =>
                rw [Option.filter_some, if_pos]
                exact h.listOf _ _ hlookup listId (hagree.task_listId.symm.trans hlist)
          rw [fitted, hkept]
      | list value => cases hkey
      | step value => cases hkey
      | dayPlan value => cases hkey
  | step step =>
      cases other with
      | step value =>
          obtain ⟨found, hlookup, hfound⟩ := Option.map_eq_some_iff.mp hfind
          cases hfound
          refine ⟨?_, fun _ => rfl⟩
          rw [fitted, hagree.step_taskId, if_pos (h.taskOfStep _ _ hlookup)]
      | list value => cases hkey
      | task value => cases hkey
      | dayPlan value => cases hkey
  | dayPlan plan =>
      cases other with
      | dayPlan value =>
          obtain ⟨found, hlookup, hfound⟩ := Option.map_eq_some_iff.mp hfind
          cases hfound
          obtain ⟨htaskId, hdate⟩ := hagree.plan_slot
          refine ⟨?_, ?_⟩
          · rw [fitted, htaskId, if_pos (h.taskOfPlan _ _ hlookup)]
          · have hfree : (tables.withoutSlot value).dayPlans = tables.dayPlans := by
              apply AList.ext
              apply List.filter_eq_self.mpr
              rintro ⟨id, taken⟩ hmem
              have hown := h.slot _ _ hlookup id taken (Table.mem_entries_iff.mp hmem)
              have hid : plan.id = value.id := (congrArg Prod.snd hkey).symm
              by_cases hslot : taken.taskId = value.taskId ∧ taken.localDate = value.localDate
              · have hsame := hown (hslot.1.trans htaskId) (hslot.2.trans hdate)
                simp [hsame, Row.id, hid]
              · simp only [Bool.not_eq_true', Bool.and_eq_false_iff, beq_eq_false_iff_ne]
                by_cases htask : taken.taskId = value.taskId
                · exact Or.inl (Or.inr fun hdate => hslot ⟨htask, hdate⟩)
                · exact Or.inl (Or.inl htask)
            rintro ⟨entity, id⟩
            cases entity with
            | list => rfl
            | task => rfl
            | step => rfl
            | dayPlan => rw [cleared, Tables.find, hfree, Tables.find]
      | list value => cases hkey
      | task value => cases hkey
      | step value => cases hkey

/-- Data that agrees with the row, where both read back, is projected onto the row as it is. -/
theorem upsertEntityData_keeps {texts : Texts} {tx : Tx} {key : RowKey} {row : Row} {data : Data}
    (hfind : tx.tables.find key = some row) (hagree : Agree key.1 data row.data)
    (hreads : TombstoneReads data) (hrow : row.ReadsBack texts) (now : String) :
    ∃ after, upsertEntityData texts tx key data now = .ok after ∧
      (∃ again, after.tables.find key = some again ∧ Agree key.1 again.data row.data) ∧
      ∀ other, other ≠ key → after.tables.find other = tx.tables.find other := by
  have hkey : row.key = key := tx.store.rows.property.keyed key row hfind
  subst hkey
  have hagain : Agree row.entity (rowFromData texts row.key data now).data row.data :=
    (hagree.read hreads hrow.tombstoneReads texts now "").trans hrow
  have hsame : (rowFromData texts row.key data now).key = row.key := rowFromData_key texts row.key data now
  obtain ⟨hfitted, hcleared⟩ := fitted_of_agree tx.store.rows.property hfind hsame hagain
  obtain ⟨rows, hupsert, hrows⟩ := upsertRow_eq tx (rowFromData texts row.key data now)
  have hvalue : rows.val = (cleared tx.tables (rowFromData texts row.key data now)).put
      (rowFromData texts row.key data now) := by
    rw [hrows, hfitted]
  refine ⟨_, hupsert, ⟨rowFromData texts row.key data now, ?_, hagain⟩, fun other hother => ?_⟩
  · rw [Tx.withRows_tables, hvalue, Tables.find_put, if_pos hsame.symm]
  · rw [Tx.withRows_tables, hvalue, Tables.find_put, if_neg fun heq => hother (heq.trans hsame),
      hcleared]

/-- While everything logged about an entity is pending, projecting it again leaves the rows as they are. -/
theorem reprojectEntity_keeps {texts : Texts} {now : String} (hnow : now ≠ "") {before after : Store}
    {log : List OutboxRow} (hexplains : (projection now).Explains log before.dataAt after.dataAt)
    {key : RowKey} {row : Row} {shadow : ShadowRow} (hfind : after.find key = some row)
    (hshadow : after.shadow.lookup key = some shadow) (hreads : TombstoneReads shadow.payload)
    (hstart : ∀ old, before.find key = some old → Agree key.1 shadow.payload old.data)
    (hpending : pendingForEntity after.outbox key = (projection now).about key log)
    (hrow : row.ReadsBack texts) :
    ∃ tx, reprojectEntity texts after.begin key now = .ok tx ∧
      (∃ again, tx.store.find key = some again ∧ Agree key.1 again.data row.data) ∧
      ∀ other, other ≠ key → tx.store.find other = after.find other := by
  have habout : ∀ mutation ∈ pendingForEntity after.outbox key, mutation.key = key := by
    rw [hpending]
    exact fun mutation hmem => (projection now).keyOf_of_mem_about hmem
  have hdata := projectedData_eq_replay shadow.payload habout now
  have hagree : Agree key.1 (projectedData key shadow.payload (pendingForEntity after.outbox key) now)
      row.data := by
    rw [hdata, hpending]
    apply hexplains key row.data
    · rw [Store.dataAt, Tables.dataAt, show after.rows.val.find key = some row from hfind]
      rfl
    · intro old hold
      obtain ⟨found, hfound, rfl⟩ := Option.map_eq_some_iff.mp hold
      exact (agree_putMember_id key.1 _ shadow.payload).trans (hstart found hfound)
  have hprojected : TombstoneReads
      (projectedData key shadow.payload (pendingForEntity after.outbox key) now) := by
    rw [hdata]
    exact (hreads.putMember_id _).replay hnow _
  have hfindTx : after.begin.tables.find key = some row := hfind
  have hshadowTx : after.begin.store.shadow.lookup key = some shadow := hshadow
  rw [reprojectEntity, hshadowTx]
  exact upsertEntityData_keeps hfindTx hagree hprojected hrow now

/-- Rows are explained by the outbox along every run of explainable requests, and a row that reads back stays as it is when its entity is projected again from a copy of the row it started from, with all its mutations pending. -/
theorem local_rows_explained (texts : Texts) (store : Store) (requests : List Request)
    (halong : (localRuns texts).Along Explainable store requests) (now : String) (hnow : now ≠ "") :
    let after := (localRuns texts).run store requests
    let log := (localRuns texts).trace store requests
    (∀ key row, after.find key = some row → ∀ base,
      (∀ old, store.find key = some old → base = old.data) →
      Agree key.1 ((projection now).replay base ((projection now).about key log)) row.data) ∧
    (∀ key row shadow, after.find key = some row → after.shadow.lookup key = some shadow →
      TombstoneReads shadow.payload →
      (∀ old, store.find key = some old → Agree key.1 shadow.payload old.data) →
      pendingForEntity after.outbox key = (projection now).about key log →
      row.ReadsBack texts →
      ∃ tx, reprojectEntity texts after.begin key now = .ok tx ∧
        (∃ again, tx.store.find key = some again ∧ Agree key.1 again.data row.data) ∧
        ∀ other, other ≠ key → tx.store.find other = after.find other) := by
  intro after log
  have hexplains := localRuns_explains texts now store requests halong
  refine ⟨fun key row hfind base hbase => ?_, ?_⟩
  · apply hexplains key row.data
    · rw [Store.dataAt, Tables.dataAt, show after.rows.val.find key = some row from hfind]
      rfl
    · intro old hold
      obtain ⟨found, hfound, rfl⟩ := Option.map_eq_some_iff.mp hold
      rw [hbase found hfound]
      exact Agree.refl key.1 found.data
  · intro key row shadow hfind hshadow hreads hstart hpending hrow
    exact reprojectEntity_keeps hnow hexplains hfind hshadow hreads hstart hpending hrow

/-- A list is created and renamed, and a task in it is completed. -/
def sampleRequests : List Request :=
  let supply (n : String) : Supply := {
    now := "2026-10-21T05:00:00.000Z"
    id := n
    planId := n ++ "-plan"
    opId := fun seq => n ++ "-" ++ toString seq }
  [⟨.createList ⟨" Work ", some "red", none⟩, supply "list"⟩,
    ⟨.patchList "list" ⟨some (some "Home"), some none, none, none⟩, supply "rename"⟩,
    ⟨.createTask ⟨"Buy milk", some "list", none, ["a", "A"], none, none, none, none, none, none,
      some "2026-10-22"⟩, supply "task"⟩,
    ⟨.commitCompletion "task" "2026-10-21T06:00:00Z" none, supply "done"⟩]

theorem local_rows_explained_sample :
    (∀ key row, ((localRuns .utc).run (.open "device") sampleRequests).find key = some row → ∀ base,
      (∀ old, (Store.open "device").find key = some old → base = old.data) →
      Agree key.1 ((projection "now").replay base ((projection "now").about key
        ((localRuns .utc).trace (.open "device") sampleRequests))) row.data) ∧
    (((localRuns .utc).run (.open "device") sampleRequests).find (.task, "task")).isSome :=
  ⟨(local_rows_explained .utc (.open "device") sampleRequests (by decide) "now"
    (by decide)).1, by decide⟩

/-- A rename with blanks around the name is logged as it came in and stored without them. -/
def untidyRequests : List Request :=
  sampleRequests.take 1 ++
    [⟨.patchList "list" ⟨some (some " Home "), none, none, none⟩,
      ⟨"2026-10-21T05:01:00.000Z", "rename", "plan", fun seq => "rename-" ++ toString seq⟩⟩]

theorem local_rows_unexplained :
    ¬ ∀ (texts : Texts) (store : Store) (requests : List Request) (now : String), now ≠ "" →
      ∀ key row, ((localRuns texts).run store requests).find key = some row → ∀ base,
        (∀ old, store.find key = some old → base = old.data) →
        Agree key.1 ((projection now).replay base ((projection now).about key
          ((localRuns texts).trace store requests))) row.data := by
  intro h
  have hrow : ((localRuns .utc).run (.open "device") untidyRequests).find (.list, "list") =
      some (.list ⟨"list", "Home", some "red", none, "000001", "2026-10-21T05:00:00.000Z",
        "2026-10-21T05:01:00.000Z", none⟩) := by
    decide
  have hagree := h .utc (.open "device") untidyRequests "now" (by decide) (.list, "list") _ hrow []
    (by simp [Store.open, Store.find, Rows.empty])
  revert hagree
  decide

end ShishiTodo.Native
