import ShishiTodo.Recurring.Copies

/-!
# What an answer leaves on a device

An answer of the server, and the clearing of rejected operations, keep what a store says of the tasks, as long as the changes of the answer say what their marks do. A projection reads its row from copies and patches that do.
-/

namespace ShishiTodo.Recurring

open Lib Native Sync

variable {env : Env} {texts : Texts} {mark : String → Mark} {store after : Store} {now : String}

/-! ### The outbox -/

/-- An acknowledgement changes how a row stands, not what it says. -/
theorem acked_bears {outbox : Table String OutboxRow} {acks : List ServerAck}
    (h : ∀ row ∈ outbox.values, MutationBears env texts mark row) :
    ∀ row ∈ (applyAcks outbox acks).2.values, MutationBears env texts mark row := by
  intro row hrow
  obtain ⟨opId, hlookup⟩ := Table.mem_values_iff.mp hrow
  rcases lookup_applyAcks opId acks outbox with hsame | ⟨before, hbefore, ⟨hnone, -⟩ | ⟨_, -, -, -, hrejected⟩⟩
  · rw [hsame] at hlookup
    exact h row (Table.mem_values_iff.mpr ⟨opId, hlookup⟩)
  · rw [hnone] at hlookup
    cases hlookup
  · rw [hrejected] at hlookup
    cases hlookup
    exact h before (Table.mem_values_iff.mpr ⟨opId, hbefore⟩)

/-! ### Reading a change -/

/-- In camel case only the members about the occurrence have its names. -/
theorem bears_camelizeObject {mark : Mark} {object : Data} (h : Bears env (wire texts) mark object) :
    Bears env columns mark (camelizeObject texts object) := by
  apply Bears.merge _ bears_nil
  intro member hmember
  obtain ⟨⟨name, value⟩, hold, rfl⟩ := List.mem_map.mp hmember
  exact ⟨fun hname => (h _ hold).series (.inr hname), fun hname => (h _ hold).key (.inr hname)⟩

/-- A column that is not about the occurrence takes any value. -/
theorem fits_column {mark : Mark} {name : String} (hseries : name ≠ "seriesId")
    (hkey : name ≠ "occurrenceKey") (value : Json) : Fits env columns mark name value where
  series hname := absurd hname hseries
  key hname := absurd hname hkey

theorem fits_own {mark : Mark} : ∀ name ∈ ownMembers, ∀ value, Fits env columns mark name value := by
  have hother : ∀ name ∈ ownMembers, name ≠ "seriesId" ∧ name ≠ "occurrenceKey" := by
    decide
  exact fun name hname => fits_column (hother name hname).1 (hother name hname).2

theorem bears_normalizedPatch {mark : Mark} {patch : Data} (h : Bears env columns mark patch)
    (kind : MutationKind) : Bears env columns mark (normalizedPatch kind patch now) :=
  Each.normalizedPatch fits_own h kind now

/-! ### Writing a change -/

theorem rowBears_assignRow {mark : Mark} {task next : Task} {assignments : List (String × SqlValue)}
    (h : RowBears env mark task)
    (hassignments : ∀ assignment ∈ assignments, ∀ text, assignment.2 = .text text →
      Fits env columns mark assignment.1 (.str text))
    (hassign : assignments.foldlM Native.setTask task = .ok next) :
    RowBears env mark next ∧ next.id = task.id := by
  have hfold := foldlM_induction
    (fun rest current => (∀ assignment ∈ rest, ∀ text, assignment.2 = .text text →
      Fits env columns mark assignment.1 (.str text)) ∧ RowBears env mark current ∧
        current.id = task.id)
    (fun assignment rest current following hcurrent hset => by
      obtain ⟨hrest, hrow, hid⟩ := hcurrent
      obtain ⟨hfollowing, hsame⟩ := hrow.set (hrest assignment List.mem_cons_self) hset
      exact ⟨fun other hother => hrest other (List.mem_cons_of_mem assignment hother), hfollowing,
        hsame.trans hid⟩)
    ⟨hassignments, h, rfl⟩ hassign
  exact hfold.2

/-- The row that a change writes, if it writes a task. -/
theorem applyMaterializedChange_bears {tx next : Tx} {key : RowKey} {kind : MutationKind}
    {patch merged : Data} (h : TasksBear env mark tx.tables)
    (hchange : applyMaterializedChange tx key kind patch merged now = .ok next)
    (hkey : key.1 = .task → Spelled env key.2 ∧ Bears env columns (mark key.2) patch ∧
      Bears env columns (mark key.2) merged) : TasksBear env mark next.tables := by
  obtain ⟨entity, id⟩ := key
  rw [applyMaterializedChange] at hchange
  split at hchange
  · rename_i row hfind
    obtain ⟨assignments, hassignments, hchange⟩ := bind_eq_ok_iff.mp hchange
    obtain ⟨written, hassign, hwrite⟩ := bind_eq_ok_iff.mp hchange
    obtain ⟨hconsistent, rfl⟩ := Tx.statement_ok hwrite
    apply h.put
    rintro task rfl
    cases row with
    | task current =>
        obtain ⟨assigned, hassigned, hassign⟩ := bind_eq_ok_iff.mp hassign
        cases hassign
        have hcurrent := tx.store.key_of_find hfind
        cases hcurrent
        obtain ⟨hspelled, hpatch, -⟩ := hkey rfl
        have hlookup : tx.tables.tasks.lookup current.id = some current := by
          obtain ⟨found, hfound, heq⟩ := Option.map_eq_some_iff.mp hfind
          cases heq
          exact hfound
        obtain ⟨hrow, hid⟩ := rowBears_assignRow (h current.id current hlookup).2
          (fun assignment hassignment text htext => by
            apply hpatch (assignment.1, .str text)
            apply mem_serverAssignments hassignments
            rw [← htext]
            exact hassignment) hassigned
        show Spelled env assigned.id ∧ RowBears env (mark assigned.id) _
        rw [hid]
        exact ⟨hspelled, hrow.of_same rfl rfl⟩
    | list =>
        obtain ⟨_, -, hassign⟩ := bind_eq_ok_iff.mp hassign
        cases hassign
    | step =>
        obtain ⟨_, -, hassign⟩ := bind_eq_ok_iff.mp hassign
        cases hassign
    | dayPlan =>
        obtain ⟨_, -, hassign⟩ := bind_eq_ok_iff.mp hassign
        cases hassign
  · split at hchange
    · cases entity with
      | task =>
          obtain ⟨_, -, hchange⟩ := bind_eq_ok_iff.mp hchange
          obtain ⟨_, -, hchange⟩ := bind_eq_ok_iff.mp hchange
          obtain ⟨created, hcreated, hchange⟩ := bind_eq_ok_iff.mp hchange
          obtain ⟨_, -, hchange⟩ := bind_eq_ok_iff.mp hchange
          obtain ⟨_, -, hchange⟩ := bind_eq_ok_iff.mp hchange
          obtain ⟨_, -, hwrite⟩ := bind_eq_ok_iff.mp hchange
          obtain ⟨hconsistent, rfl⟩ := Tx.statement_ok hwrite
          obtain ⟨hspelled, -, hmerged⟩ := hkey rfl
          have hid : created.id = id := by
            simp only [createdTask, bind_eq_ok_iff] at hcreated
            obtain ⟨_, -, _, -, _, -, _, -, _, -, _, -, _, -, _, -, hcreated⟩ := hcreated
            cases hcreated
            rfl
          apply h.put
          intro task htask
          cases htask
          rw [hid]
          exact ⟨hspelled, rowBears_createdTask hmerged hcreated⟩
      | list =>
          obtain ⟨_, -, hchange⟩ := bind_eq_ok_iff.mp hchange
          obtain ⟨_, -, hwrite⟩ := bind_eq_ok_iff.mp hchange
          obtain ⟨hconsistent, rfl⟩ := Tx.statement_ok hwrite
          exact h
      | step =>
          obtain ⟨taskId, -, hchange⟩ := bind_eq_ok_iff.mp hchange
          cases taskId with
          | none =>
              cases hchange
              exact h
          | some taskId =>
              obtain ⟨_, -, hchange⟩ := bind_eq_ok_iff.mp hchange
              obtain ⟨_, -, hwrite⟩ := bind_eq_ok_iff.mp hchange
              obtain ⟨hconsistent, rfl⟩ := Tx.statement_ok hwrite
              exact h
      | dayPlan =>
          obtain ⟨taskId, -, hchange⟩ := bind_eq_ok_iff.mp hchange
          cases taskId with
          | none =>
              cases hchange
              exact h
          | some taskId =>
              obtain ⟨localDate, -, hchange⟩ := bind_eq_ok_iff.mp hchange
              cases localDate with
              | none =>
                  cases hchange
                  exact h
              | some localDate =>
                  obtain ⟨_, -, hchange⟩ := bind_eq_ok_iff.mp hchange
                  obtain ⟨_, -, hwrite⟩ := bind_eq_ok_iff.mp hchange
                  obtain ⟨hconsistent, rfl⟩ := Tx.statement_ok hwrite
                  exact h
    · cases hchange
      exact h

/-- A change that says of a task what its mark does. -/
def ChangeBears (env : Env) (texts : Texts) (mark : String → Mark) (change : ServerChange) : Prop :=
  change.entity = .task → Spelled env change.entityId ∧
    ∀ members, change.patch = .obj members → Bears env (wire texts) (mark change.entityId) members

theorem applyServerChange_bears {tx next : Tx} {change : ServerChange}
    (h : StoreBears env texts mark tx.store) (hbears : ChangeBears env texts mark change)
    (hchange : applyServerChange texts now tx change = .ok next) :
    StoreBears env texts mark next.store := by
  obtain ⟨object, hobject, hchange⟩ := bind_eq_ok_iff.mp hchange
  have hpatch : change.entity = .task → Spelled env change.entityId ∧
      Bears env columns (mark change.entityId)
        (normalizedPatch change.kind (camelizeObject texts object) now) := by
    intro hentity
    obtain ⟨hspelled, hmembers⟩ := hbears hentity
    refine ⟨hspelled, bears_normalizedPatch (bears_camelizeObject ?_) change.kind⟩
    cases hjson : change.patch with
    | obj members =>
        rw [hjson] at hobject
        cases hobject
        exact hmembers _ hjson
    | null =>
        rw [hjson] at hobject
        cases hobject
        exact bears_nil
    | _ =>
        rw [hjson] at hobject
        cases hobject
  have hshadow : change.entity = .task →
      Bears env columns (mark change.entityId) (shadowPayload tx.store change.key) := by
    intro hentity
    rw [shadowPayload]
    cases hlookup : tx.store.shadow.lookup change.key with
    | none => exact bears_nil
    | some copy =>
        have hkey : change.key = (.task, change.entityId) := Prod.ext hentity rfl
        rw [hkey] at hlookup
        exact (h.shadow _ copy hlookup).2
  change applyMaterializedChange (tx.withShadow change.key _) change.key change.kind _ _ now = _ at hchange
  have hbefore : TasksBear env mark (tx.withShadow change.key ⟨change.serverSeq, mergeData
      (normalizedPatch change.kind (camelizeObject texts object) now)
      (shadowPayload tx.store change.key)⟩).tables := h.tasks
  have htasks := applyMaterializedChange_bears hbefore hchange
    fun hentity => ⟨(hpatch hentity).1, (hpatch hentity).2, (hpatch hentity).2.merge (hshadow hentity)⟩
  obtain ⟨rows, rfl⟩ := wroteRows_of_applyMaterializedChange hchange
  refine ⟨htasks, h.outbox, ?_⟩
  intro id copy hlookup
  change (tx.store.shadow.insert change.key _).lookup (EntityType.task, id) = some copy at hlookup
  rw [Table.lookup_insert_eq_ite] at hlookup
  split at hlookup
  · rename_i heq
    cases hlookup
    obtain ⟨hentity, hid⟩ := Prod.mk.inj heq
    rw [hid]
    exact ⟨(hpatch hentity.symm).1, (hpatch hentity.symm).2.merge (hshadow hentity.symm)⟩
  · exact h.shadow id copy hlookup

/-! ### Projections -/

/-- The row of a projection says what the copy and the pending patches do. -/
theorem rowBears_projected (now : String) (h : StoreBears env texts mark store) {id : String} {copy : ShadowRow}
    (hcopy : store.shadow.lookup (.task, id) = some copy) :
    RowBears env (mark id) (taskFromData texts id (projectedData (.task, id) copy.payload
      (pendingForEntity store.outbox (.task, id)) now) now) := by
  apply rowBears_taskFromData
  apply Each.projected fits_own (h.shadow id copy hcopy).2
  intro mutation hmutation
  obtain ⟨hmem, hkey⟩ := mem_pendingForEntity hmutation
  obtain ⟨hentity, hid⟩ := Prod.mk.inj hkey
  obtain ⟨-, hpatch⟩ := h.outbox mutation hmem hentity
  rw [hid] at hpatch
  exact hpatch.columns

theorem reprojectEntity_bears {tx next : Tx} {key : RowKey} (h : StoreBears env texts mark tx.store)
    (hproject : reprojectEntity texts tx key now = .ok next) : StoreBears env texts mark next.store := by
  obtain ⟨rows, hrows, hval⟩ := reprojectEntity_eq texts tx key now
  have hsame := Except.ok.inj (hproject.symm.trans hrows)
  subst hsame
  apply h.withRows
  rw [hval]
  cases hcopy : tx.store.shadow.lookup key with
  | none => exact h.tasks
  | some copy =>
      simp only
      split
      · rename_i written hwritten
        apply TasksBear.put
        · intro id task hlookup
          rw [cleared_tasks] at hlookup
          exact h.tasks id task hlookup
        · rintro task rfl
          obtain ⟨entity, id⟩ := key
          cases entity with
          | task =>
              have hrow := rowBears_projected now h hcopy
              have hspelled := (h.shadow id copy hcopy).1
              cases hwritten
              exact ⟨hspelled, hrow.of_same rfl rfl⟩
          | list => cases hwritten
          | step =>
              change (if _ then _ else _) = _ at hwritten
              split at hwritten <;> cases hwritten
          | dayPlan =>
              change (if _ then _ else _) = _ at hwritten
              split at hwritten <;> cases hwritten
      · exact h.tasks

theorem reprojectEntities_bears {tx next : Tx} {affected : List RowKey}
    (h : StoreBears env texts mark tx.store)
    (hproject : reprojectEntities texts tx affected now = .ok next) :
    StoreBears env texts mark next.store :=
  foldlM_induction (fun _ tx => StoreBears env texts mark tx.store)
    (fun _ _ _ _ hbefore hone => reprojectEntity_bears hbefore hone) h hproject

/-! ### An answer -/

theorem applyServerResult_bears (h : StoreBears env texts mark store) {request : ApplyServerResultRequest}
    (hchanges : ∀ change ∈ request.changes, ChangeBears env texts mark change)
    (happly : applyServerResult texts now store request = .ok after) :
    StoreBears env texts mark after := by
  obtain ⟨-, tx, hfold, -, rows, hproject, rfl⟩ := applyServerResult_ok happly
  have hacked : StoreBears env texts mark
      (store.withOutbox (applyAcks store.outbox request.acks).2).begin.store :=
    ⟨h.tasks, acked_bears h.outbox, h.shadow⟩
  have hchanged : StoreBears env texts mark tx.store :=
    (foldlM_induction (fun rest tx => (∀ change ∈ rest, ChangeBears env texts mark change) ∧
      StoreBears env texts mark tx.store)
      (fun change rest _ _ hbefore hone =>
        ⟨fun other hother => hbefore.1 other (List.mem_cons_of_mem change hother),
          applyServerChange_bears hbefore.2 (hbefore.1 change List.mem_cons_self) hone⟩)
      ⟨hchanges, hacked⟩ hfold).2
  have hprojected := reprojectEntities_bears hchanged hproject
  exact ⟨hprojected.tasks, hprojected.outbox, hprojected.shadow⟩

theorem syncClearRejected_bears (h : StoreBears env texts mark store)
    (hclear : syncClearRejected texts now store = .ok after) : StoreBears env texts mark after := by
  obtain ⟨tx, hproject, hclear⟩ := bind_eq_ok_iff.mp hclear
  cases hclear
  apply reprojectEntities_bears _ hproject
  exact ⟨h.tasks, fun row hrow => h.outbox row (Table.mem_values_select hrow), h.shadow⟩

end ShishiTodo.Recurring
