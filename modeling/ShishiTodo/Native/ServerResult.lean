import ShishiTodo.Lib.Slots
import ShishiTodo.Native.Sync
import ShishiTodo.Native.Upsert
import ShishiTodo.Native.Agreement

/-!
# What a server result leaves behind

The outbox changes only where an acknowledgement says so, the changes of the server only write rows and copies, and at the end the projections put the pending mutations back on top of what the server sent.
-/

namespace ShishiTodo.Native

open Lib

/-! ### The outbox -/

/-- The row under an operation, as one acknowledgement leaves it. -/
theorem lookup_applyAck (outbox : Table String OutboxRow) (ack : ServerAck) (opId : String) :
    (applyAck outbox ack).lookup opId =
      if ack.opId = opId then
        match ackEffect ack.status with
        | .remove => none
        | .reject => (outbox.lookup opId).map fun row =>
            { row with status := .rejected, errorCode := ack.errorCode }
        | .ignore => outbox.lookup opId
      else outbox.lookup opId := by
  rw [applyAck]
  cases heffect : ackEffect ack.status with
  | ignore => simp
  | remove =>
      simp only [Table.lookup_erase_eq_ite, eq_comm (a := opId)]
  | reject =>
      cases hlookup : outbox.lookup ack.opId with
      | none =>
          by_cases hid : ack.opId = opId
          · subst hid
            simp [hlookup]
          · simp [hid]
      | some row =>
          by_cases hid : ack.opId = opId
          · subst hid
            simp [hlookup]
          · simp [hid, eq_comm (a := opId)]

/-- What acknowledgements may do to a row: nothing, reject it, or remove it; each only when one of them names it and says so. -/
def AckedBy (acks : List ServerAck) (opId : String) (before after : Option OutboxRow) : Prop :=
  after = before ∨
    (∃ row, before = some row ∧
      ((after = none ∧ ∃ ack ∈ acks, ack.opId = opId ∧ ackEffect ack.status = .remove) ∨
        ∃ ack ∈ acks, ack.opId = opId ∧ ackEffect ack.status = .reject ∧
          after = some { row with status := .rejected, errorCode := ack.errorCode }))

theorem lookup_applyAcks (opId : String) : ∀ (acks : List ServerAck) (outbox : Table String OutboxRow),
    AckedBy acks opId (outbox.lookup opId) ((applyAcks outbox acks).2.lookup opId)
  | [], _ => Or.inl rfl
  | ack :: rest, outbox => by
      have hrest := lookup_applyAcks opId rest (applyAck outbox ack)
      show AckedBy (ack :: rest) opId _ ((applyAcks (applyAck outbox ack) rest).2.lookup opId)
      rw [lookup_applyAck] at hrest
      have hlater : ∀ {P : ServerAck → Prop}, (∃ later ∈ rest, P later) → ∃ any ∈ ack :: rest, P any :=
        fun ⟨later, hmem, h⟩ => ⟨later, List.mem_cons_of_mem ack hmem, h⟩
      by_cases hid : ack.opId = opId
      · rw [if_pos hid] at hrest
        cases heffect : ackEffect ack.status with
        | ignore =>
            rw [heffect] at hrest
            rcases hrest with hsame | ⟨row, hrow, ⟨hnone, hack⟩ | hreject⟩
            · exact Or.inl hsame
            · exact Or.inr ⟨row, hrow, Or.inl ⟨hnone, hlater hack⟩⟩
            · exact Or.inr ⟨row, hrow, Or.inr (hlater hreject)⟩
        | remove =>
            rw [heffect] at hrest
            rcases hrest with hsame | ⟨row, hrow, -⟩
            · cases hbefore : outbox.lookup opId with
              | none => exact Or.inl hsame
              | some row =>
                  exact Or.inr ⟨row, rfl, Or.inl ⟨hsame, ack, List.mem_cons_self, hid, heffect⟩⟩
            · cases hrow
        | reject =>
            rw [heffect] at hrest
            cases hbefore : outbox.lookup opId with
            | none =>
                rw [hbefore] at hrest
                rcases hrest with hsame | ⟨row, hrow, -⟩
                · exact Or.inl hsame
                · cases hrow
            | some row =>
                rw [hbefore] at hrest
                rcases hrest with hsame | ⟨found, hfound, ⟨hnone, hack⟩ | hreject⟩
                · exact Or.inr ⟨row, rfl, Or.inr
                    ⟨ack, List.mem_cons_self, hid, heffect, hsame⟩⟩
                · exact Or.inr ⟨row, rfl, Or.inl ⟨hnone, hlater hack⟩⟩
                · cases hfound
                  exact Or.inr ⟨row, rfl, Or.inr (hlater hreject)⟩
      · rw [if_neg hid] at hrest
        rcases hrest with hsame | ⟨row, hrow, ⟨hnone, hack⟩ | hreject⟩
        · exact Or.inl hsame
        · exact Or.inr ⟨row, hrow, Or.inl ⟨hnone, hlater hack⟩⟩
        · exact Or.inr ⟨row, hrow, Or.inr (hlater hreject)⟩

/-! ### Steps that only write rows -/

section

variable {texts : Texts} {now : String} {tx after : Tx}

/-! The columns that a change sets do not hold the id. -/

theorem setList_id {list next : TaskList} {assignment : String × SqlValue}
    (h : setList list assignment = .ok next) : next.id = list.id := by
  unfold setList at h
  split at h <;> first | (cases h; rfl) | (obtain ⟨_, -, h⟩ := bind_eq_ok_iff.mp h; cases h; rfl)

theorem setTask_id {task next : Task} {assignment : String × SqlValue}
    (h : setTask task assignment = .ok next) : next.id = task.id := by
  unfold setTask at h
  split at h <;> first | (cases h; rfl) | (obtain ⟨_, -, h⟩ := bind_eq_ok_iff.mp h; cases h; rfl)

theorem setStep_id {step next : Step} {assignment : String × SqlValue}
    (h : setStep step assignment = .ok next) : next.id = step.id := by
  unfold setStep at h
  split at h <;> first | (cases h; rfl) | (obtain ⟨_, -, h⟩ := bind_eq_ok_iff.mp h; cases h; rfl)

theorem setDayPlan_id {plan next : DayPlan} {assignment : String × SqlValue}
    (h : setDayPlan plan assignment = .ok next) : next.id = plan.id := by
  unfold setDayPlan at h
  split at h <;> first | (cases h; rfl) | (obtain ⟨_, -, h⟩ := bind_eq_ok_iff.mp h; cases h; rfl)

theorem assignRow_key {row written : Row} {assignments : List (String × SqlValue)}
    (h : assignRow row assignments now = .ok written) : written.key = row.key := by
  cases row with
  | list list =>
      obtain ⟨assigned, hassigned, h⟩ := bind_eq_ok_iff.mp h
      cases h
      have hid : assigned.id = list.id := foldlM_same (fun _ _ _ => setList_id) hassigned
      exact congrArg (Prod.mk EntityType.list) hid
  | task task =>
      obtain ⟨assigned, hassigned, h⟩ := bind_eq_ok_iff.mp h
      cases h
      have hid : assigned.id = task.id := foldlM_same (fun _ _ _ => setTask_id) hassigned
      exact congrArg (Prod.mk EntityType.task) hid
  | step step =>
      obtain ⟨assigned, hassigned, h⟩ := bind_eq_ok_iff.mp h
      cases h
      have hid : assigned.id = step.id := foldlM_same (fun _ _ _ => setStep_id) hassigned
      exact congrArg (Prod.mk EntityType.step) hid
  | dayPlan plan =>
      obtain ⟨assigned, hassigned, h⟩ := bind_eq_ok_iff.mp h
      cases h
      have hid : assigned.id = plan.id := foldlM_same (fun _ _ _ => setDayPlan_id) hassigned
      exact congrArg (Prod.mk EntityType.dayPlan) hid

/-- A creation inserts a row of its own, or nothing. -/
theorem insertCreated_ok {key : RowKey} {merged : Data} (h : insertCreated tx key merged now = .ok after) :
    after = tx ∨ ∃ row, row.key = key ∧ tx.insert row = .ok after := by
  obtain ⟨entity, id⟩ := key
  cases entity with
  | list =>
      obtain ⟨list, hlist, h⟩ := bind_eq_ok_iff.mp h
      simp only [createdList, bind_eq_ok_iff] at hlist
      obtain ⟨_, -, _, -, _, -, hlist⟩ := hlist
      cases hlist
      exact .inr ⟨_, rfl, h⟩
  | task =>
      obtain ⟨listId, -, h⟩ := bind_eq_ok_iff.mp h
      obtain ⟨_, -, h⟩ := bind_eq_ok_iff.mp h
      obtain ⟨task, htask, h⟩ := bind_eq_ok_iff.mp h
      obtain ⟨_, -, h⟩ := bind_eq_ok_iff.mp h
      obtain ⟨_, -, h⟩ := bind_eq_ok_iff.mp h
      simp only [createdTask, bind_eq_ok_iff] at htask
      obtain ⟨_, -, _, -, _, -, _, -, _, -, _, -, _, -, _, -, htask⟩ := htask
      cases htask
      exact .inr ⟨_, rfl, h⟩
  | step =>
      obtain ⟨taskId, -, h⟩ := bind_eq_ok_iff.mp h
      cases taskId with
      | none =>
          cases h
          exact .inl rfl
      | some taskId =>
          obtain ⟨step, hstep, h⟩ := bind_eq_ok_iff.mp h
          obtain ⟨_, -, hstep⟩ := bind_eq_ok_iff.mp hstep
          cases hstep
          exact .inr ⟨_, rfl, h⟩
  | dayPlan =>
      obtain ⟨taskId, -, h⟩ := bind_eq_ok_iff.mp h
      cases taskId with
      | none =>
          cases h
          exact .inl rfl
      | some taskId =>
          obtain ⟨localDate, -, h⟩ := bind_eq_ok_iff.mp h
          cases localDate with
          | none =>
              cases h
              exact .inl rfl
          | some localDate =>
              obtain ⟨plan, hplan, h⟩ := bind_eq_ok_iff.mp h
              obtain ⟨_, -, hplan⟩ := bind_eq_ok_iff.mp hplan
              cases hplan
              exact .inr ⟨_, rfl, h⟩

/-- A change writes its own row, or nothing. -/
theorem applyMaterializedChange_ok {key : RowKey} {kind : MutationKind} {patch merged : Data}
    (h : applyMaterializedChange tx key kind patch merged now = .ok after) :
    after = tx ∨ ∃ row, row.key = key ∧ tx.write row = .ok after := by
  rw [applyMaterializedChange] at h
  split at h
  · rename_i row hfind
    obtain ⟨assignments, -, h⟩ := bind_eq_ok_iff.mp h
    obtain ⟨written, hassign, h⟩ := bind_eq_ok_iff.mp h
    exact .inr ⟨written, (assignRow_key hassign).trans (tx.store.key_of_find hfind), h⟩
  · split at h
    · rcases insertCreated_ok h with hsame | ⟨row, hkey, hinsert⟩
      · exact .inl hsame
      · obtain ⟨_, -, hwrite⟩ := bind_eq_ok_iff.mp hinsert
        exact .inr ⟨row, hkey, hwrite⟩
    · cases h
      exact .inl rfl

theorem wroteRows_of_applyMaterializedChange {key : RowKey} {kind : MutationKind} {patch merged : Data}
    (h : applyMaterializedChange tx key kind patch merged now = .ok after) : WroteRows tx after := by
  rcases applyMaterializedChange_ok h with rfl | ⟨row, -, hwrite⟩
  · exact WroteRows.refl after
  · exact wroteRows_of_write hwrite

/-- A change of the server leaves the outbox and the `kv_state` rows alone. -/
theorem applyServerChange_ok {change : ServerChange}
    (h : applyServerChange texts now tx change = .ok after) :
    after.store.outbox = tx.store.outbox ∧ after.store.kv = tx.store.kv := by
  obtain ⟨object, -, h⟩ := bind_eq_ok_iff.mp h
  obtain ⟨rows, rfl⟩ := wroteRows_of_applyMaterializedChange h
  exact ⟨rfl, rfl⟩

theorem applyServerChanges_ok {changes : List ServerChange}
    (h : changes.foldlM (applyServerChange texts now) tx = .ok after) :
    after.store.outbox = tx.store.outbox ∧ after.store.kv = tx.store.kv :=
  foldlM_induction
    (fun _ state => state.store.outbox = tx.store.outbox ∧ state.store.kv = tx.store.kv)
    (fun _ _ _ _ hstate hnext =>
      ⟨(applyServerChange_ok hnext).1.trans hstate.1, (applyServerChange_ok hnext).2.trans hstate.2⟩)
    ⟨rfl, rfl⟩ h

/-! ### Projections -/

/-- The row that a projection wants under the key. -/
def projectedRow (texts : Texts) (store : Store) (key : RowKey) (shadow : ShadowRow) (now : String) :
    Row :=
  rowFromData texts key
    (projectedData key shadow.payload (pendingForEntity store.outbox key) now) now

/-- A projection always succeeds. -/
theorem reprojectEntity_eq (texts : Texts) (tx : Tx) (key : RowKey) (now : String) :
    ∃ rows : Rows, reprojectEntity texts tx key now = .ok (tx.withRows rows) ∧
      rows.val = match tx.store.shadow.lookup key with
        | none => tx.tables
        | some shadow =>
            match fitted tx.tables (projectedRow texts tx.store key shadow now) with
            | some written =>
                (cleared tx.tables (projectedRow texts tx.store key shadow now)).put written
            | none => tx.tables := by
  rw [reprojectEntity]
  cases hshadow : tx.store.shadow.lookup key with
  | none => exact ⟨tx.store.rows, rfl, rfl⟩
  | some shadow => exact upsertRow_eq tx (projectedRow texts tx.store key shadow now)

theorem reprojectEntities_ok (texts : Texts) (affected : List RowKey) (now : String) (tx : Tx) :
    ∃ rows : Rows, reprojectEntities texts tx affected now = .ok (tx.withRows rows) := by
  rw [reprojectEntities]
  induction affected.dedup.insertionSort projectionOrder generalizing tx with
  | nil => exact ⟨tx.store.rows, rfl⟩
  | cons key rest ih =>
      obtain ⟨rows, hkey, -⟩ := reprojectEntity_eq texts tx key now
      obtain ⟨final, hrest⟩ := ih (tx.withRows rows)
      refine ⟨final, ?_⟩
      rw [List.foldlM_cons, hkey]
      exact hrest

end

/-! ### The whole result -/

/-- A result that is applied: what was acknowledged, what the server changed, and what was projected. -/
theorem applyServerResult_ok {texts : Texts} {now : String} {store after : Store}
    {request : ApplyServerResultRequest} (h : applyServerResult texts now store request = .ok after) :
    (∀ session, request.sessionId = some session → store.kv.syncSession = some session) ∧
      ∃ tx : Tx,
        request.changes.foldlM (applyServerChange texts now)
          (store.withOutbox (applyAcks store.outbox request.acks).2).begin = .ok tx ∧
        tx.store.outbox = (applyAcks store.outbox request.acks).2 ∧
        ∃ rows : Rows,
          reprojectEntities texts tx ((applyAcks store.outbox request.acks).1 ++
            request.changes.map ServerChange.key) now = .ok (tx.withRows rows) ∧
          after = { (tx.withRows rows).store with kv := { store.kv with
            syncCursor := request.nextCursor, bootstrapRequired := false } } := by
  obtain ⟨_, hsession, h⟩ := bind_eq_ok_iff.mp h
  obtain ⟨tx, hchanges, h⟩ := bind_eq_ok_iff.mp h
  obtain ⟨final, hfinal, h⟩ := bind_eq_ok_iff.mp h
  obtain ⟨rows, hrows⟩ := reprojectEntities_ok texts ((applyAcks store.outbox request.acks).1 ++
    request.changes.map ServerChange.key) now tx
  have hsame : final = tx.withRows rows := by
    have hboth := hfinal.symm.trans hrows
    exact Except.ok.inj hboth
  obtain ⟨houtbox, hkv⟩ := applyServerChanges_ok hchanges
  refine ⟨fun session hsome => ?_, tx, hchanges, houtbox, rows, hrows, ?_⟩
  · rw [assertSyncSession, refuseIf_eq_ok_iff, hsome] at hsession
    by_contra hne
    exact hsession ⟨rfl, hne⟩
  · rw [← Except.ok.inj h, hsame]
    show _ = ({ tx.store with rows := rows, kv := _ } : Store)
    rw [Tx.withRows_kv, hkv]
    rfl

/-! ### Pending wins -/

/-- The mutation sets the field; a creation sets every field. -/
def SetsField (mutation : OutboxRow) (field : String) : Prop :=
  mutation.kind = .create ∨ mutation.kind ≠ .delete ∧ (mutation.patch.lookup field).isSome

/-- The last mutation that sets a field decides it. -/
theorem lookup_projectedData {key : RowKey} {payload : Data} {earlier later : List OutboxRow}
    {mutation : OutboxRow} {field : String} {value : Json} (hfield : field ∈ mutableFields key.1)
    (hkind : mutation.kind ≠ .delete) (hvalue : mutation.patch.lookup field = some value)
    (hlast : ∀ other ∈ later, ¬ SetsField other field) (now : String) :
    (projectedData key payload (earlier ++ mutation :: later) now).lookup field = some value := by
  have hmutation : ∀ data, (applyMutationToData key.1 data mutation now).lookup field = some value := by
    intro data
    rw [lookup_applyMutationToData_field hfield, hvalue]
    cases hk : mutation.kind <;> simp_all
  have hlater : ∀ data : Data, data.lookup field = some value →
      (later.foldl (fun data mutation => applyMutationToData key.1 data mutation now) data).lookup
        field = some value := by
    induction later with
    | nil => exact fun _ h => h
    | cons other rest ih =>
        intro data hdata
        apply ih fun more hmore => hlast more (List.mem_cons_of_mem other hmore)
        have hnot := hlast other List.mem_cons_self
        rw [SetsField, not_or, not_and] at hnot
        have hunset : other.kind ≠ .delete → other.patch.lookup field = none := fun hk =>
          Option.not_isSome_iff_eq_none.mp (hnot.2 hk)
        rw [lookup_applyMutationToData_field hfield, hdata]
        cases hk : other.kind with
        | create => exact absurd hk hnot.1
        | delete => rfl
        | patch => rw [hunset (by rw [hk]; decide), Option.none_or]
        | restore => rw [hunset (by rw [hk]; decide), Option.none_or]
  rw [projectedData, List.foldl_append, List.foldl_cons]
  exact hlater _ (hmutation _)

/-- The slot that a plan takes. -/
def Row.slot : Row → Option (String × String)
  | .dayPlan plan => some (plan.taskId, plan.localDate)
  | _ => none

/-- Clearing a slot takes away only plans of that slot. -/
theorem find_cleared {tables : Tables} {key : RowKey} {row other : Row}
    (hfind : tables.find key = some row) (hne : key ≠ other.key) :
    (cleared tables other).find key = some row ∨
      (cleared tables other).find key = none ∧ row.slot.isSome ∧ other.slot = row.slot := by
  cases other with
  | list value => exact Or.inl hfind
  | task value => exact Or.inl hfind
  | step value => exact Or.inl hfind
  | dayPlan value =>
      obtain ⟨entity, id⟩ := key
      cases entity with
      | list => exact Or.inl hfind
      | task => exact Or.inl hfind
      | step => exact Or.inl hfind
      | dayPlan =>
          obtain ⟨plan, hlookup, rfl⟩ := Option.map_eq_some_iff.mp hfind
          by_cases hslot : plan.taskId = value.taskId ∧ plan.localDate = value.localDate
          · refine Or.inr ⟨?_, rfl, ?_⟩
            · have hid : id ≠ value.id := fun heq => hne (congrArg (Prod.mk EntityType.dayPlan) heq)
              rw [cleared, Tables.find, Option.map_eq_none_iff, Option.eq_none_iff_forall_ne_some]
              intro found hfound
              obtain ⟨hsame, htest⟩ := Table.lookup_select_eq_some_iff.mp hfound
              rw [hlookup] at hsame
              cases hsame
              simp [hslot.1, hslot.2, hid] at htest
            · rw [Row.slot, Row.slot, hslot.1, hslot.2]
          · refine Or.inl ?_
            have hkept : (tables.withoutSlot value).dayPlans.lookup id = some plan := by
              apply Table.lookup_select_of_true hlookup
              rw [Bool.not_eq_true', Bool.and_eq_false_iff, Bool.and_eq_false_iff,
                beq_eq_false_iff_ne, beq_eq_false_iff_ne]
              by_cases htask : plan.taskId = value.taskId
              · exact Or.inl (Or.inr fun hdate => hslot ⟨htask, hdate⟩)
              · exact Or.inl (Or.inl htask)
            rw [cleared, Tables.find, hkept]
            rfl

theorem find_of_find_cleared {tables : Tables} {key : RowKey} {row found : Row}
    (h : (cleared tables row).find key = some found) : tables.find key = some found := by
  cases row with
  | list list => exact h
  | task task => exact h
  | step step => exact h
  | dayPlan plan =>
      obtain ⟨entity, id⟩ := key
      cases entity with
      | list => exact h
      | task => exact h
      | step => exact h
      | dayPlan =>
          obtain ⟨plan, hlookup, rfl⟩ := Option.map_eq_some_iff.mp h
          exact Option.map_eq_some_iff.mpr ⟨plan, Table.lookup_of_lookup_select hlookup, rfl⟩

theorem cleared_lists (tables : Tables) (row : Row) : (cleared tables row).lists = tables.lists := by
  cases row <;> rfl

theorem cleared_tasks (tables : Tables) (row : Row) : (cleared tables row).tasks = tables.tasks := by
  cases row <;> rfl

/-- A row that is fitted keeps its key and its slot. -/
theorem fitted_some {tables : Tables} {row written : Row} (h : fitted tables row = some written) :
    written.key = row.key ∧ written.slot = row.slot := by
  cases row with
  | list value =>
      cases h
      exact ⟨rfl, rfl⟩
  | task value =>
      cases h
      exact ⟨rfl, rfl⟩
  | step value =>
      rw [fitted] at h
      split at h
      · cases h
        exact ⟨rfl, rfl⟩
      · cases h
  | dayPlan value =>
      rw [fitted] at h
      split at h
      · cases h
        exact ⟨rfl, rfl⟩
      · cases h

/-- Whether a row fits depends on the lists and the tasks that come before it. -/
theorem fitted_put {tables : Tables} {row other written : Row}
    (horder : entityOrder row.entity ≤ entityOrder other.entity)
    (hwritten : written.entity = other.entity) :
    fitted ((cleared tables other).put written) row = fitted tables row := by
  cases row with
  | list value => rfl
  | task value =>
      cases other <;> cases written <;> simp_all [Row.entity, entityOrder, fitted, Tables.put,
        cleared_lists]
  | step value =>
      cases other <;> cases written <;> simp_all [Row.entity, entityOrder, fitted, Tables.put,
        cleared_tasks]
  | dayPlan value =>
      cases other <;> cases written <;> simp_all [Row.entity, entityOrder, fitted, Tables.put,
        cleared_tasks]

section

variable {texts : Texts} {now : String}

/-- The step of a loop over entities. -/
def reprojectStep (texts : Texts) (now : String) (tx : Tx) (key : RowKey) : StoreResult Tx :=
  reprojectEntity texts tx key now

/-- What projecting one entity does to the tables. -/
theorem reprojectStep_ok {tx after : Tx} {other : RowKey} (h : reprojectStep texts now tx other = .ok after) :
    WroteRows tx after ∧
      (after.tables = tx.tables ∨ ∃ shadow written, tx.store.shadow.lookup other = some shadow ∧
        fitted tx.tables (projectedRow texts tx.store other shadow now) = some written ∧
        after.tables = (cleared tx.tables (projectedRow texts tx.store other shadow now)).put written) := by
  obtain ⟨rows, hwrote, hrows⟩ := reprojectEntity_eq texts tx other now
  have hsame : after = tx.withRows rows := Except.ok.inj (h.symm.trans hwrote)
  subst hsame
  refine ⟨⟨rows, rfl⟩, ?_⟩
  rw [Tx.withRows_tables, hrows]
  cases hshadow : tx.store.shadow.lookup other with
  | none => exact Or.inl rfl
  | some shadow =>
      cases hfitted : fitted tx.tables (projectedRow texts tx.store other shadow now) with
      | none =>
          simp only [hfitted]
          exact Or.inl trivial
      | some written =>
          simp only [hfitted]
          exact Or.inr ⟨shadow, written, rfl, hfitted, rfl⟩

theorem projectedRow_key (texts : Texts) (now : String) (store : Store) (key : RowKey)
    (shadow : ShadowRow) : (projectedRow texts store key shadow now).key = key :=
  rowFromData_key _ _ _ _

/-- The row that stands once the entity is projected; none without a copy, or with a parent that is missing. -/
def wantedRow (texts : Texts) (now : String) (store : Store) (key : RowKey) : Option Row :=
  (store.shadow.lookup key).bind fun shadow => fitted store.rows.val (projectedRow texts store key shadow now)

/-- The projected plan of another entity that takes the slot of the row. -/
def SlotTaken (texts : Texts) (store : Store) (now : String) (row : Row) (other : RowKey) : Prop :=
  ∃ shadow, store.shadow.lookup other = some shadow ∧ row.slot.isSome ∧
    (projectedRow texts store other shadow now).slot = row.slot

/-- One projection is a turn: a row that goes gave its slot to the row that is written. -/
theorem reprojectStep_turn {tx next : Tx} {key : RowKey} (h : reprojectStep texts now tx key = .ok next) :
    SlotTurn Row.slot (wantedRow texts now tx.store) key tx.tables.find next.tables.find := by
  obtain ⟨rows, hwrote, hrows⟩ := reprojectEntity_eq texts tx key now
  have hsame : next = tx.withRows rows := Except.ok.inj (h.symm.trans hwrote)
  subst hsame
  rw [Tx.withRows_tables, hrows]
  cases hshadow : tx.store.shadow.lookup key with
  | none =>
      refine ⟨?_, fun other _ => Or.inl rfl⟩
      rw [wantedRow, hshadow]
      rfl
  | some shadow =>
      have hwanted : wantedRow texts now tx.store key =
          fitted tx.tables (projectedRow texts tx.store key shadow now) := by
        rw [wantedRow, hshadow]
        rfl
      have hown := projectedRow_key texts now tx.store key shadow
      cases hfitted : fitted tx.tables (projectedRow texts tx.store key shadow now) with
      | none =>
          refine ⟨?_, fun other _ => Or.inl ?_⟩
          · simp only [hfitted]
            rw [hwanted, hfitted, Option.none_or]
          · simp only [hfitted]
      | some written =>
          simp only [hfitted]
          obtain ⟨hkey, hslot⟩ := fitted_some hfitted
          rw [hown] at hkey
          constructor
          · rw [hwanted, hfitted, Option.some_or, ← hkey, Tables.find_put_self]
          · intro other hother
            rw [Tables.find_put, if_neg (hkey ▸ hother)]
            cases hfind : tx.tables.find other with
            | none =>
                left
                rw [Option.eq_none_iff_forall_ne_some]
                intro found hfound
                cases hfind.symm.trans (find_of_find_cleared hfound)
            | some found =>
                rcases find_cleared hfind (hown.symm ▸ hother) with hstays | ⟨hgone, hsome, hsame⟩
                · exact Or.inl hstays
                · exact Or.inr ⟨hgone, written, found, hwanted.trans hfitted, rfl, hsome, hslot.trans hsame⟩

theorem fitted_of_reprojectStep {tx after : Tx} {other : RowKey} {row : Row}
    (horder : entityOrder row.entity ≤ entityOrder other.1)
    (h : reprojectStep texts now tx other = .ok after) :
    fitted after.tables row = fitted tx.tables row := by
  obtain ⟨-, hsame | ⟨shadow, written, hshadow, hfitted, hput⟩⟩ := reprojectStep_ok h
  · rw [hsame]
  · have hkey := projectedRow_key texts now tx.store other shadow
    have hentity : (projectedRow texts tx.store other shadow now).entity = other.1 := congrArg Prod.fst hkey
    rw [hput]
    apply fitted_put
    · rw [hentity]
      exact horder
    · exact congrArg Prod.fst (fitted_some hfitted).1

theorem reprojectSteps_wroteRows {keys : List RowKey} {tx final : Tx}
    (h : keys.foldlM (reprojectStep texts now) tx = .ok final) : WroteRows tx final := by
  apply foldlM_induction (fun _ state => WroteRows tx state) ?_ (WroteRows.refl tx) h
  rintro key rest state next ⟨rows, rfl⟩ hnext
  obtain ⟨⟨later, rfl⟩, -⟩ := reprojectStep_ok hnext
  exact ⟨later, rfl⟩

theorem fitted_of_reprojectSteps {row : Row} : ∀ {others : List RowKey} {tx final : Tx},
    (∀ other ∈ others, entityOrder row.entity ≤ entityOrder other.1) →
    others.foldlM (reprojectStep texts now) tx = .ok final →
    fitted final.tables row = fitted tx.tables row
  | [], tx, final, _, h => by
      cases h
      rfl
  | other :: rest, tx, final, horder, h => by
      rw [List.foldlM_cons] at h
      obtain ⟨next, hnext, hrest⟩ := bind_eq_ok_iff.mp h
      rw [fitted_of_reprojectSteps (fun more hmore => horder more (List.mem_cons_of_mem other hmore)) hrest,
        fitted_of_reprojectStep (horder other List.mem_cons_self) hnext]

/-- A pass in the order of the entities: what a row needs is in place before it, and stays. -/
theorem reprojectSteps_pass : ∀ {keys : List RowKey} {tx final : Tx},
    keys.Pairwise (fun left right => entityOrder left.1 ≤ entityOrder right.1) →
    keys.foldlM (reprojectStep texts now) tx = .ok final →
    SlotPass Row.slot (wantedRow texts now final.store) keys tx.tables.find final.tables.find
  | [], tx, final, _, h => by
      cases h
      exact .nil _
  | key :: keys, tx, final, horder, h => by
      rw [List.foldlM_cons] at h
      obtain ⟨next, hnext, hrest⟩ := bind_eq_ok_iff.mp h
      obtain ⟨hfirst, hlater⟩ := List.pairwise_cons.mp horder
      refine .cons ((reprojectStep_turn hnext).congr ?_) (reprojectSteps_pass hlater hrest)
      have hwrote : WroteRows tx final :=
        reprojectSteps_wroteRows (List.foldlM_cons.trans (bind_eq_ok_iff.mpr ⟨next, hnext, hrest⟩))
      obtain ⟨rows, rfl⟩ := hwrote
      rw [wantedRow, wantedRow]
      refine Option.bind_congr fun shadow _ => ?_
      have hentity : (projectedRow texts tx.store key shadow now).entity = key.1 :=
        congrArg Prod.fst (projectedRow_key texts now tx.store key shadow)
      exact (fitted_of_reprojectSteps (fun other hother => hentity ▸ hfirst other hother) hrest).trans
        (fitted_of_reprojectStep (le_of_eq (congrArg entityOrder hentity)) hnext)

/-- What projecting the affected entities leaves in the tables. -/
theorem reprojectEntities_overlaid {affected : List RowKey} {tx final : Tx}
    (h : reprojectEntities texts tx affected now = .ok final) :
    Overlaid Row.slot (· ∈ affected) (wantedRow texts now final.store) tx.tables.find final.tables.find := by
  have hsorted := List.pairwise_insertionSort projectionOrder affected.dedup
  have hpass := reprojectSteps_pass (hsorted.imp projectionOrder.le) h
  have hmem : ∀ key, key ∈ affected.dedup.insertionSort projectionOrder ↔ key ∈ affected := fun key =>
    (List.mem_insertionSort _).trans List.mem_dedup
  have h := hpass.overlaid
  simp only [hmem] at h
  exact h

/-- Each affected entity with a copy stands as its projection wants it, unless its parent is missing or another plan took its slot. -/
theorem reprojectEntities_find {affected : List RowKey} {tx final : Tx} {key : RowKey}
    {shadow : ShadowRow} (h : reprojectEntities texts tx affected now = .ok final)
    (hkey : key ∈ affected) (hshadow : tx.store.shadow.lookup key = some shadow) :
    fitted final.tables (projectedRow texts tx.store key shadow now) = none ∨
      (final.tables.find key = none ∧ ∃ other ∈ affected, other ≠ key ∧
        SlotTaken texts tx.store now (projectedRow texts tx.store key shadow now) other) ∨
      final.tables.find key =
        fitted final.tables (projectedRow texts tx.store key shadow now) := by
  have hover := reprojectEntities_overlaid h
  obtain ⟨rows, hrows⟩ := reprojectEntities_ok texts affected now tx
  obtain rfl : final = tx.withRows rows := Except.ok.inj (h.symm.trans hrows)
  cases hfitted : fitted rows.val (projectedRow texts tx.store key shadow now) with
  | none => exact Or.inl hfitted
  | some row =>
      have hwanted : wantedRow texts now (tx.withRows rows).store key = some row :=
        Option.bind_eq_some_iff.mpr ⟨shadow, hshadow, hfitted⟩
      right
      rcases hover.shown key row hkey hwanted with hstands | ⟨hgone, other, taking, hne, hother, htaking, -, hsome, hslot⟩
      · exact Or.inr (hstands.trans hfitted.symm)
      · obtain ⟨copy, hcopy, hfits⟩ := Option.bind_eq_some_iff.mp htaking
        rw [(fitted_some hfitted).2] at hsome hslot
        exact Or.inl ⟨hgone, other, hother, hne, copy, hcopy, hsome, (fitted_some hfits).2.symm.trans hslot⟩

end

/-! ### Atomic, fenced, and nothing lost -/

/-- The store after a request: an error rolls the transaction back. -/
def afterServerResult (texts : Texts) (now : String) (store : Store)
    (request : ApplyServerResultRequest) : Store :=
  match applyServerResult texts now store request with
  | .ok after => after
  | .error _ => store

/-- An acknowledgement of one of its operations, or a change of its own, names the entity. -/
def Touched (store : Store) (request : ApplyServerResultRequest) (key : RowKey) : Prop :=
  (∃ ack ∈ request.acks, ∃ row, store.outbox.lookup ack.opId = some row ∧ row.key = key) ∨
    ∃ change ∈ request.changes, change.key = key

theorem key_mem_applyAcks {ack : ServerAck} {row : OutboxRow} :
    ∀ {acks : List ServerAck} {outbox : Table String OutboxRow}, ack ∈ acks →
      outbox.lookup ack.opId = some row → row.key ∈ (applyAcks outbox acks).1
  | first :: rest, outbox, hmem, hlookup => by
      show row.key ∈ (outbox.lookup first.opId).toList.map OutboxRow.key ++
        (applyAcks (applyAck outbox first) rest).1
      rcases List.mem_cons.mp hmem with rfl | hrest
      · rw [hlookup]
        exact List.mem_append_left _ List.mem_cons_self
      · by_cases hid : first.opId = ack.opId
        · rw [hid, hlookup]
          exact List.mem_append_left _ List.mem_cons_self
        · apply List.mem_append_right
          apply key_mem_applyAcks hrest
          rw [lookup_applyAck, if_neg hid, hlookup]

theorem touched_of_mem_applyAcks {key : RowKey} :
    ∀ {acks : List ServerAck} {outbox : Table String OutboxRow}, key ∈ (applyAcks outbox acks).1 →
      ∃ ack ∈ acks, ∃ row, outbox.lookup ack.opId = some row ∧ row.key = key
  | first :: rest, outbox, hmem => by
      rcases List.mem_append.mp hmem with hown | hrest
      · obtain ⟨row, hrow, rfl⟩ := List.mem_map.mp hown
        exact ⟨first, List.mem_cons_self, row, Option.mem_toList.mp hrow, rfl⟩
      · obtain ⟨ack, hack, row, hlookup, rfl⟩ := touched_of_mem_applyAcks hrest
        rw [lookup_applyAck] at hlookup
        split at hlookup
        · rename_i hid
          split at hlookup
          · cases hlookup
          · obtain ⟨found, hfound, rfl⟩ := Option.map_eq_some_iff.mp hlookup
            exact ⟨ack, List.mem_cons_of_mem first hack, found, hfound, rfl⟩
          · exact ⟨ack, List.mem_cons_of_mem first hack, row, hlookup, rfl⟩
        · exact ⟨ack, List.mem_cons_of_mem first hack, row, hlookup, rfl⟩

/-- The task that a step or a plan belongs to. -/
def Row.parentTask : Row → Option String
  | .step value => some value.taskId
  | .dayPlan value => some value.taskId
  | _ => none

theorem fitted_eq_none {tables : Tables} {row : Row} (h : fitted tables row = none) :
    ∃ taskId, row.parentTask = some taskId ∧ tables.tasks.lookup taskId = none := by
  cases row with
  | list value => cases h
  | task value => cases h
  | step value =>
      rw [fitted] at h
      split at h
      · cases h
      · rename_i hnot
        exact ⟨value.taskId, rfl, Option.not_isSome_iff_eq_none.mp hnot⟩
  | dayPlan value =>
      rw [fitted] at h
      split at h
      · cases h
      · rename_i hnot
        exact ⟨value.taskId, rfl, Option.not_isSome_iff_eq_none.mp hnot⟩

/-- The row shows the value; a list that is not there is shown as none. -/
def ShowsField (store : Store) (key : RowKey) (field : String) (value : Option Json) : Prop :=
  ∃ row, store.find key = some row ∧ (row.data.lookup field = value ∨
    ∃ listId, field = "listId" ∧ value = some (.str listId) ∧
      store.rows.val.lists.lookup listId = none ∧ row.data.lookup field = some .null)

theorem filter_listed (tables : Tables) (listId : Option String) :
    (listId.filter fun listId => (tables.lists.lookup listId).isSome) = listId ∨
      ∃ id, listId = some id ∧ tables.lists.lookup id = none ∧
        (listId.filter fun listId => (tables.lists.lookup listId).isSome) = none := by
  cases listId with
  | none => exact Or.inl rfl
  | some id =>
      cases hlookup : tables.lists.lookup id with
      | some list =>
          refine Or.inl ?_
          rw [Option.filter_some, if_pos (by rw [hlookup]; rfl)]
      | none =>
          refine Or.inr ⟨id, rfl, hlookup, ?_⟩
          rw [Option.filter_some, if_neg (by rw [hlookup]; simp)]

theorem lookup_fitted {tables : Tables} {row written : Row} (h : fitted tables row = some written)
    (field : String) : written.data.lookup field = row.data.lookup field ∨
      ∃ listId, field = "listId" ∧ row.data.lookup field = some (.str listId) ∧
        tables.lists.lookup listId = none ∧ written.data.lookup field = some .null := by
  cases row with
  | list value =>
      cases h
      exact Or.inl rfl
  | step value =>
      rw [fitted] at h
      split at h <;> cases h
      exact Or.inl rfl
  | dayPlan value =>
      rw [fitted] at h
      split at h <;> cases h
      exact Or.inl rfl
  | task value =>
      cases h
      rcases filter_listed tables value.listId with hkept | ⟨listId, hlist, hlookup, hkept⟩
      · rw [hkept]
        exact Or.inl rfl
      · rw [hkept]
        by_cases hfield : field = "listId"
        · subst hfield
          refine Or.inr ⟨listId, rfl, ?_, hlookup, rfl⟩
          simp [Row.data, Task.data, hlist, Json.lookup_cons_eq_ite, textJson, Json.ofOption]
        · refine Or.inl ?_
          simp only [Row.data, Task.data, Json.lookup_cons_eq_ite, if_neg hfield]

theorem server_result_sound (texts : Texts) (now : String) (store : Store)
    (request : ApplyServerResultRequest) :
    (∀ session, request.sessionId = some session → store.kv.syncSession ≠ some session →
      applyServerResult texts now store request = .error .staleSyncSession) ∧
    (∀ error, applyServerResult texts now store request = .error error →
      afterServerResult texts now store request = store) ∧
    ∀ after, applyServerResult texts now store request = .ok after →
      (∀ opId, AckedBy request.acks opId (store.outbox.lookup opId) (after.outbox.lookup opId)) ∧
      ∀ key shadow, Touched store request key → after.shadow.lookup key = some shadow →
        ∀ earlier mutation later, pendingForEntity after.outbox key = earlier ++ mutation :: later →
          ∀ field ∈ mutableFields key.1, ∀ value, mutation.kind ≠ .delete →
            mutation.patch.lookup field = some value → (∀ other ∈ later, ¬ SetsField other field) →
            (∃ taskId, (projectedRow texts after key shadow now).parentTask = some taskId ∧
              after.rows.val.tasks.lookup taskId = none) ∨
            (after.find key = none ∧ ∃ other, Touched store request other ∧ other ≠ key ∧
              SlotTaken texts after now (projectedRow texts after key shadow now) other) ∨
            ShowsField after key field
              ((rowFromData texts key mutation.patch now).data.lookup field) := by
  refine ⟨?_, ?_, ?_⟩
  · intro session hsession hstale
    have hrefuse : assertSyncSession store request.sessionId = .error .staleSyncSession := by
      rw [assertSyncSession, refuseIf, if_pos]
      rw [hsession]
      exact ⟨rfl, hstale⟩
    rw [applyServerResult, hrefuse]
    rfl
  · intro error herror
    rw [afterServerResult, herror]
  · intro after hafter
    obtain ⟨-, tx, hchanges, houtbox, rows, hrows, rfl⟩ := applyServerResult_ok hafter
    refine ⟨fun opId => ?_, ?_⟩
    · show AckedBy request.acks opId (store.outbox.lookup opId) (tx.store.outbox.lookup opId)
      rw [houtbox]
      exact lookup_applyAcks opId request.acks store.outbox
    · intro key shadow htouched hshadow earlier mutation later hpending field hfield value hkind hvalue
        hlast
      have haffected : key ∈ (applyAcks store.outbox request.acks).1 ++
          request.changes.map ServerChange.key := by
        rcases htouched with ⟨ack, hack, row, hlookup, rfl⟩ | ⟨change, hchange, rfl⟩
        · exact List.mem_append_left _ (key_mem_applyAcks hack hlookup)
        · exact List.mem_append_right _ (List.mem_map_of_mem hchange)
      have hdata : (projectedData key shadow.payload (earlier ++ mutation :: later) now).lookup field =
          some value := lookup_projectedData hfield hkind hvalue hlast now
      rw [← hpending] at hdata
      have hread := lookup_rowFromData hfield (hdata.trans hvalue.symm) texts now now
      rcases reprojectEntities_find hrows haffected hshadow with horphan | ⟨hgone, other, hother, hne, htaken⟩ |
        hfind
      · exact Or.inl (fitted_eq_none horphan)
      · refine Or.inr (Or.inl ⟨hgone, other, ?_, hne, htaken⟩)
        rcases List.mem_append.mp hother with hack | hchange
        · exact Or.inl (touched_of_mem_applyAcks hack)
        · exact Or.inr (List.mem_map.mp hchange)
      · cases hfitted : fitted rows.val (projectedRow texts tx.store key shadow now) with
        | none => exact Or.inl (fitted_eq_none hfitted)
        | some written =>
            refine Or.inr (Or.inr ⟨written, hfind.trans hfitted, ?_⟩)
            rcases lookup_fitted hfitted field with hsame | ⟨listId, hlistId, hvalue, hgone, hnull⟩
            · exact Or.inl (hsame.trans hread)
            · exact Or.inr ⟨listId, hlistId, hread.symm.trans hvalue, hgone, hnull⟩

/-- A list of the server into which a backup with a blank rank was imported. -/
def blankRankStore : StoreResult Store := do
  let supply : Supply := ⟨"2026-10-21T05:00:00.000Z", "id", "plan", fun seq => "op-" ++ toString seq⟩
  let created : ServerChange := ⟨1, "remote", .list, "list", .create,
    .obj [("name", .str "Home"), ("rank", .str "a0")]⟩
  let store ← applyServerResult .utc supply.now (syncSetEnabled (.open "device") true)
    ⟨[], [created], "1", none⟩
  let list : TaskList := ⟨"list", "Home", none, none, "", supply.now, supply.now, none⟩
  let tx ← importData .utc supply store ⟨"todo-export", 1, [], [list], [], []⟩ .merge
  return tx.store

/-- The server gives the list a color. -/
def recolored : ApplyServerResultRequest :=
  ⟨[], [⟨2, "remote-2", .list, "list", .patch, .obj [("color", .str "red")]⟩], "2", none⟩

theorem pending_rank_read_as_default :
    ¬ ∀ (texts : Texts) (now : String) (store : Store) (request : ApplyServerResultRequest)
        (after : Store), applyServerResult texts now store request = .ok after →
      ∀ key shadow, Touched store request key → after.shadow.lookup key = some shadow →
        ∀ earlier mutation later, pendingForEntity after.outbox key = earlier ++ mutation :: later →
          ∀ field ∈ mutableFields key.1, ∀ value, mutation.kind ≠ .delete →
            mutation.patch.lookup field = some value → (∀ other ∈ later, ¬ SetsField other field) →
            ∃ row, after.find key = some row ∧ row.data.lookup field = some value := by
  intro h
  have hrun : (blankRankStore.bind fun store => applyServerResult .utc "now" store recolored).toOption.any
      (fun after => (after.shadow.lookup (.list, "list")).isSome &&
        (pendingForEntity after.outbox (.list, "list")).map (fun mutation =>
          (mutation.kind, mutation.patch.lookup "rank")) == [(.patch, some (.str ""))] &&
        ((after.find (.list, "list")).bind fun row => row.data.lookup "rank") == some (.str "a0")) =
      true := by
    decide +kernel
  cases hstore : blankRankStore with
  | error error =>
      rw [hstore] at hrun
      cases hrun
  | ok store =>
      rw [hstore] at hrun
      change (applyServerResult .utc "now" store recolored).toOption.any _ = true at hrun
      cases hafter : applyServerResult .utc "now" store recolored with
      | error error =>
          rw [hafter] at hrun
          cases hrun
      | ok after =>
          rw [hafter] at hrun
          simp only [Except.toOption, Option.any_some, Bool.and_eq_true, beq_iff_eq] at hrun
          obtain ⟨⟨hshadow, hpending⟩, hrank⟩ := hrun
          obtain ⟨shadow, hshadow⟩ := Option.isSome_iff_exists.mp hshadow
          obtain ⟨mutation, hpending, hmutation⟩ := List.map_eq_singleton_iff.mp hpending
          obtain ⟨hkind, hvalue⟩ := Prod.mk.inj hmutation
          obtain ⟨row, hrow, hshown⟩ := h .utc "now" store recolored after hafter (.list, "list") shadow
            (Or.inr ⟨_, List.mem_cons_self, rfl⟩) hshadow [] mutation [] hpending "rank" (by decide) _
            (by rw [hkind]; decide) hvalue (fun _ hmem => nomatch hmem)
          rw [hrow] at hrank
          change row.data.lookup "rank" = some (.str "a0") at hrank
          rw [hshown] at hrank
          revert hrank
          decide

end ShishiTodo.Native
