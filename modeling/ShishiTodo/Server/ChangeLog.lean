import ShishiTodo.Codecs
import ShishiTodo.Server.Columns
import ShishiTodo.Server.EntityOutcome
import ShishiTodo.Server.ExactlyOnce
import ShishiTodo.Lib.ChangeFeed
import Mathlib.Data.List.Induction

/-!
# The change log as a record of the tables

A row of the change log is an edit of one record, and the entity tables of an account are records too: the columns of each row as a bootstrap prints them, and whether the row is deleted. Folding an account's log gives its tables exactly when every applied operation gives its fields in the text that the bootstrap prints for them.
-/

namespace ShishiTodo

open Lib

/-- What an operation kind does to the tombstone. -/
def MutationKind.tombstone : MutationKind → Option Bool
  | .create | .patch => none
  | .delete => some true
  | .restore => some false

/-- A patch as an edit. -/
def editOf (key : EntityKey) (kind : MutationKind) (patch : Json) : Edit EntityKey String Json where
  key := key
  fields field := patch.get field
  tombstone := kind.tombstone

@[simp] theorem editOf_key (key : EntityKey) (kind : MutationKind) (patch : Json) :
    (editOf key kind patch).key = key := rfl

/-- A row of the change log as an edit. -/
def ChangeRow.edit (row : ChangeRow) : Edit EntityKey String Json :=
  editOf (row.entity, row.entityId) row.kind row.patch

/-- The fold of log rows from the empty state. -/
def foldLog (rows : List ChangeRow) : Feed EntityKey String Json :=
  replay (rows.map ChangeRow.edit) fun _ => none

section View

variable {env : Env} {V : Type} {spec : EntitySpec V} (view : EntityView env spec)

/-- A row as the bootstrap shows it. -/
def EntityView.record (row : EntityRow V) : Record String Json where
  fields field := (view.print env.jsonb row.values).lookup field
  deleted := row.deletedAt.isSome

/-- An operation gives each of its fields as the bootstrap prints what the field denotes. A create logs what it parsed, so there the two printers have to agree on it; a patch or a restore logs the client's own text, the normalized fields apart. -/
def EntityView.Canonical (mutation : Mutation) : Prop :=
  match mutation.kind with
  | .create => ∀ field value, mutation.patch.get field = some value →
      view.reprint env.serde field value = view.reprint env.stored field value
  | .patch | .restore => ∀ field value, mutation.patch.get field = some value →
      view.normalized field = true ∨ view.reprint env.stored field value = value
  | .delete => True

end View

/-- The tables of an account as records. -/
def tableRecords (env : Env) (entities : Entities) (userId : Uuid) : Feed EntityKey String Json :=
  fun key => match key.1 with
    | .list => (listSpec.selectRow entities userId key.2).map (listView env).record
    | .task => ((taskSpec env).selectRow entities userId key.2).map (taskView env).record
    | .step => ((stepSpec env).selectRow entities userId key.2).map (stepView env).record
    | .dayPlan => ((dayPlanSpec env).selectRow entities userId key.2).map (dayPlanView env).record

/-- The operation's fields are spelled as the bootstrap prints them. -/
def CanonicalOp (env : Env) (mutation : Mutation) : Prop :=
  match mutation.entity with
  | .list => (listView env).Canonical mutation
  | .task => (taskView env).Canonical mutation
  | .step => (stepView env).Canonical mutation
  | .dayPlan => (dayPlanView env).Canonical mutation

/-! ### One row -/

section Row

variable {env : Env} {V : Type} {spec : EntitySpec V} (view : EntityView env spec)

theorem EntityView.lookup_print_eq_none (printer : Printer) (values : V) {field : String}
    (h : field ∉ view.fields) : (view.print printer values).lookup field = none := by
  rw [List.lookup_eq_none_iff]
  intro entry hentry
  refine bne_iff_ne.mpr fun heq => h ?_
  rw [← view.print_fields printer values, heq]
  exact List.mem_map_of_mem hentry

theorem EntityView.exists_lookup_print (printer : Printer) (values : V) {field : String}
    (h : field ∈ view.fields) : ∃ printed, (view.print printer values).lookup field = some printed := by
  rw [← Option.isSome_iff_exists, Option.isSome_iff_ne_none]
  intro hnone
  rw [← view.print_fields printer values] at h
  obtain ⟨entry, hentry, hname⟩ := List.mem_map.mp h
  exact absurd hname.symm (bne_iff_ne.mp (List.lookup_eq_none_iff.mp hnone entry hentry))

/-- A stored row prints as its values do before they are stored again. -/
theorem EntityView.print_jsonb {values : V} (hstored : spec.stored values = values) :
    view.print env.jsonb values = view.print env.stored values := by
  rw [← view.print_stored, hstored]

/-- What a patch or a restore logs edits the record exactly when each of its fields is normalized or spelled as the bootstrap prints it. -/
theorem EntityView.record_patched_iff {mutation : Mutation} {allowEmpty : Bool}
    {row row' : EntityRow V} {values : V} {kind : MutationKind} {key : EntityKey}
    (hpatched : spec.patched mutation.patch allowEmpty row.values = .ok values)
    (hstored : spec.stored row.values = row.values) (hvalues : row'.values = spec.stored values)
    (hdeleted : row'.deletedAt.isSome = kind.tombstone.getD row.deletedAt.isSome) :
    (editOf key kind (spec.logged mutation.patch values)).onto (view.record row) =
        view.record row' ↔
      ∀ field value, mutation.patch.get field = some value →
        view.normalized field = true ∨ view.reprint env.stored field value = value := by
  obtain ⟨members, hobject, hby⟩ := view.patched _ _ _ _ hpatched
  rw [hobject] at hpatched ⊢
  have hfields : ∀ field, ((editOf key kind (spec.logged (.obj members) values)).onto
      (view.record row)).fields field = (view.record row').fields field ↔
        ∀ value, members.lookup field = some value →
          view.normalized field = true ∨ view.reprint env.stored field value = value := by
    intro field
    have hlogged := view.logged _ _ _ _ hpatched field
    simp only [Edit.onto, editOf, EntityView.record, hlogged, hvalues, view.print_stored,
      view.print_jsonb hstored, hby.printed env.stored, lookup_overwrite, Json.get_obj]
    cases hlookup : members.lookup field with
    | none => simp
    | some value =>
        have hfield : field ∈ view.fields := by
          by_contra hunknown
          rw [hby.known field hunknown] at hlookup
          cases hlookup
        obtain ⟨printed, hprinted⟩ := view.exists_lookup_print env.stored row.values hfield
        simp only [hprinted, Option.map_some, Option.getD_some, Option.some_or,
          Option.some.injEq, forall_eq']
        cases view.normalized field
        · simp [eq_comm]
        · simp
  have hflag : ((editOf key kind (spec.logged (.obj members) values)).onto
      (view.record row)).deleted = (view.record row').deleted := hdeleted.symm
  rw [Record.ext_iff, funext_iff, and_iff_left hflag]
  simp only [hfields, Json.get_obj]

/-- What a create logs is the record it makes, exactly when the two printers agree on its fields. -/
theorem EntityView.record_created_iff {mutation : Mutation} {today : NaiveDate} {row : EntityRow V}
    {values : V} {key : EntityKey}
    (hrequired : requirePresentFields mutation.patch spec.required = .ok ())
    (hpatched : spec.patched mutation.patch true (spec.blank today) = .ok values)
    (hvalues : row.values = spec.stored values) (hdeleted : row.deletedAt = none) :
    (editOf key .create (spec.changePatch values)).onto Record.blank = view.record row ↔
      ∀ field value, mutation.patch.get field = some value →
        view.reprint env.serde field value = view.reprint env.stored field value := by
  obtain ⟨members, hobject, hby⟩ := view.patched _ _ _ _ hpatched
  rw [hobject] at hrequired
  have hfields : ∀ field, ((editOf key .create (spec.changePatch values)).onto
      Record.blank).fields field = (view.record row).fields field ↔
        ∀ value, members.lookup field = some value →
          view.reprint env.serde field value = view.reprint env.stored field value := by
    intro field
    simp only [Edit.onto, editOf, EntityView.record, Record.blank, view.changePatch, Json.get_obj,
      hvalues, view.print_stored, hby.printed, lookup_overwrite, Option.or_none]
    cases hlookup : members.lookup field with
    | none =>
        have hnotRequired : field ∉ spec.required := fun hmem =>
          requirePresentFields_eq_ok hrequired hmem hlookup
        simp [view.print_blank today field hnotRequired]
    | some value =>
        have hfield : field ∈ view.fields := by
          by_contra hunknown
          rw [hby.known field hunknown] at hlookup
          cases hlookup
        obtain ⟨logged, hlogged⟩ := view.exists_lookup_print env.serde (spec.blank today) hfield
        obtain ⟨printed, hprinted⟩ :=
          view.exists_lookup_print env.stored (spec.blank today) hfield
        simp [hlogged, hprinted]
  have hlive : ((editOf key .create (spec.changePatch values)).onto Record.blank).deleted =
      (view.record row).deleted := by
    simp [Edit.onto, editOf, MutationKind.tombstone, Record.blank, EntityView.record, hdeleted]
  rw [Record.ext_iff, funext_iff, and_iff_left hlive]
  simp only [hfields, hobject, Json.get_obj]

/-- What an applied operation logs edits the record under its id, exactly when it is canonical. -/
theorem EntityOutcome.onto_record_iff {entities : Entities} {userId : Uuid} {mutation : Mutation}
    {serverSeq : Int} {now : Instant} {logged : Json} {row : EntityRow V}
    (h : EntityOutcome spec entities userId mutation serverSeq now logged row) (key : EntityKey)
    (hstored : ∀ id row, (spec.table entities).lookup id = some row →
      spec.stored row.values = row.values) :
    (editOf key mutation.kind logged).onto
        (((spec.selectRow entities userId mutation.entityId).map view.record).getD Record.blank) =
        view.record row ↔ view.Canonical mutation := by
  have hselected : ∀ row, (spec.table entities).lookup mutation.entityId = some row →
      row.userId = userId →
      ((spec.selectRow entities userId mutation.entityId).map view.record).getD Record.blank =
        view.record row := fun row hrow howner => by
    rw [EntitySpec.selectRow_eq_some_iff.mpr ⟨hrow, howner⟩]
    rfl
  cases h with
  | created values hkind hrequired hfree hpatched =>
      have hnone : spec.selectRow entities userId mutation.entityId = none := by
        rw [EntitySpec.selectRow, hfree]
        rfl
      rw [hnone, hkind]
      simp only [EntityView.Canonical, hkind]
      exact view.record_created_iff hrequired hpatched rfl rfl
  | patched row values hkind hrow howner hlive hpatched =>
      rw [hselected row hrow howner]
      simp only [EntityView.Canonical, hkind]
      exact view.record_patched_iff hpatched (hstored _ row hrow) rfl rfl
  | deleted row hkind hrow howner =>
      rw [hselected row hrow howner]
      simp only [EntityView.Canonical, hkind, iff_true]
      ext1
      · funext field
        simp [Edit.onto, editOf, EntityView.record]
      · simp [Edit.onto, editOf, EntityView.record, MutationKind.tombstone]
  | restored row values hkind hrow howner hdead hpatched =>
      rw [hselected row hrow howner]
      simp only [EntityView.Canonical, hkind]
      exact view.record_patched_iff hpatched (hstored _ row hrow) rfl rfl

/-- The row an operation writes belongs to its account, the columns hold what they keep, and nobody else had a row under the id. -/
theorem EntityOutcome.written (view : EntityView env spec) {entities : Entities} {userId : Uuid}
    {mutation : Mutation} {serverSeq : Int} {now : Instant} {logged : Json} {row : EntityRow V}
    (h : EntityOutcome spec entities userId mutation serverSeq now logged row)
    (hstored : ∀ id row, (spec.table entities).lookup id = some row →
      spec.stored row.values = row.values) :
    row.userId = userId ∧ spec.stored row.values = row.values ∧
      ∀ old, (spec.table entities).lookup mutation.entityId = some old → old.userId = userId := by
  have hsame : ∀ row, (spec.table entities).lookup mutation.entityId = some row →
      row.userId = userId → ∀ old, (spec.table entities).lookup mutation.entityId = some old →
        old.userId = userId := fun row hrow howner old hold => by
    rw [hrow, Option.some.injEq] at hold
    rw [← hold]
    exact howner
  cases h with
  | created values _ _ hfree => exact ⟨rfl, view.stored_stored values, by simp [hfree]⟩
  | patched row values _ hrow howner =>
      exact ⟨howner, view.stored_stored values, hsame row hrow howner⟩
  | deleted row _ hrow howner => exact ⟨howner, hstored _ row hrow, hsame row hrow howner⟩
  | restored row values _ hrow howner =>
      exact ⟨howner, view.stored_stored values, hsame row hrow howner⟩

theorem EntityView.selectRow_write (view : EntityView env spec) {entities : Entities}
    {userId other id otherId : Uuid} {row : EntityRow V} (howner : row.userId = userId)
    (hold : ∀ old, (spec.table entities).lookup id = some old → old.userId = userId) :
    spec.selectRow (spec.write entities id row) other otherId =
      if other = userId ∧ otherId = id then some row else spec.selectRow entities other otherId := by
  rw [EntitySpec.selectRow, EntitySpec.write, view.table_withTable, Table.lookup_insert_eq_ite]
  by_cases hid : otherId = id
  · subst hid
    by_cases hother : other = userId
    · simp [hother, howner]
    · have hnone : spec.selectRow entities other otherId = none := by
        rw [Option.eq_none_iff_forall_ne_some]
        intro old hselect
        obtain ⟨hlookup, hmine⟩ := EntitySpec.selectRow_eq_some_iff.mp hselect
        exact hother (hmine.symm.trans (hold old hlookup))
      have hforeign : ¬ userId = other := fun h => hother h.symm
      simp [hother, hforeign, howner, hnone]
  · simp [hid, EntitySpec.selectRow]

end Row

/-! ### One operation -/

/-- The columns hold instants at their own precision. -/
def StoredRows (env : Env) (entities : Entities) : Prop :=
  ∀ id row, entities.tasks.lookup id = some row → (taskSpec env).stored row.values = row.values

/-- What one applied operation does to the tables of the accounts. -/
structure RecordsApplied (env : Env) (entities next : Entities) (userId : Uuid) (mutation : Mutation)
    (logged : Json) : Prop where
  stored : StoredRows env next
  others : ∀ other, other ≠ userId → tableRecords env next other = tableRecords env entities other
  mine : tableRecords env next userId = (editOf (mutation.entity, mutation.entityId) mutation.kind
    logged).apply (tableRecords env entities userId) ↔ CanonicalOp env mutation

section Operation

variable {env : Env} {V : Type} {spec : EntitySpec V} {view : EntityView env spec}
  {entities next : Entities} {userId : Uuid} {mutation : Mutation} {serverSeq : Int} {now : Instant}
  {logged : Json}

/-- An operation on the entity with tag `tag`, whose rows `tableRecords` reads under that tag and nowhere else. -/
theorem EntityView.recordsApplied (view : EntityView env spec)
    (h : spec.apply entities userId mutation serverSeq now = .ok (logged, next))
    (hstored : ∀ id row, (spec.table entities).lookup id = some row →
      spec.stored row.values = row.values)
    (hrecords : ∀ entities other id, tableRecords env entities other (mutation.entity, id) =
      (spec.selectRow entities other id).map view.record)
    (hframe : ∀ table other entity id, entity ≠ mutation.entity →
      tableRecords env (spec.withTable entities table) other (entity, id) =
        tableRecords env entities other (entity, id)) :
    (∀ other, other ≠ userId → tableRecords env next other = tableRecords env entities other) ∧
      (tableRecords env next userId = (editOf (mutation.entity, mutation.entityId) mutation.kind
        logged).apply (tableRecords env entities userId) ↔ view.Canonical mutation) ∧
      ∀ id row, (spec.table next).lookup id = some row → spec.stored row.values = row.values := by
  obtain ⟨row, houtcome, rfl⟩ := EntitySpec.apply_eq_ok h
  obtain ⟨howner, hkeeps, hold⟩ := EntityOutcome.written view houtcome hstored
  have hnext : spec.table (spec.write entities mutation.entityId row) =
      (spec.table entities).insert mutation.entityId row := view.table_withTable _ _
  have hread : ∀ other key, tableRecords env (spec.write entities mutation.entityId row) other key =
      if other = userId ∧ key = (mutation.entity, mutation.entityId) then some (view.record row)
      else tableRecords env entities other key := by
    rintro other ⟨entity, id⟩
    by_cases hentity : entity = mutation.entity
    · subst hentity
      rw [hrecords, hrecords, view.selectRow_write howner hold]
      by_cases hmine : other = userId ∧ id = mutation.entityId
      · simp [hmine]
      · have hkey : ¬ (other = userId ∧ (mutation.entity, id) =
            (mutation.entity, mutation.entityId)) := by simpa using hmine
        rw [if_neg hmine, if_neg hkey]
    · have hkey : ¬ (other = userId ∧ (entity, id) = (mutation.entity, mutation.entityId)) := by
        simp [hentity]
      rw [if_neg hkey]
      exact hframe _ other entity id hentity
  refine ⟨fun other hother => ?_, ?_, fun id other hlookup => ?_⟩
  · funext key
    rw [hread, if_neg fun h => hother h.1]
  · have hexact := houtcome.onto_record_iff view (mutation.entity, mutation.entityId) hstored
    have hothers : ∀ key, key ≠ (mutation.entity, mutation.entityId) →
        tableRecords env (spec.write entities mutation.entityId row) userId key =
          tableRecords env entities userId key := fun key hkey => by
      rw [hread, if_neg fun h => hkey h.2]
    rw [← hexact, ← hrecords, Edit.eq_apply_iff, editOf_key, and_iff_left hothers, hread,
      if_pos ⟨rfl, rfl⟩, Option.some.injEq]
    exact eq_comm
  · rw [hnext, Table.lookup_insert_eq_ite] at hlookup
    split at hlookup
    · cases hlookup
      exact hkeeps
    · exact hstored id other hlookup

end Operation

/-- What an applied operation does to the tables, read as records. -/
theorem applyMutation_recordsApplied {env : Env} {entities next : Entities} {userId : Uuid}
    {mutation : Mutation} {serverSeq : Int} {now : Instant} {logged : Json}
    (hstored : StoredRows env entities)
    (h : applyMutation env entities userId mutation serverSeq now = .ok (logged, next)) :
    RecordsApplied env entities next userId mutation logged := by
  unfold applyMutation at h
  cases hentity : mutation.entity with
  | list =>
      rw [hentity] at h
      obtain ⟨others, mine, -⟩ := (listView env).recordsApplied h (fun _ _ _ => rfl)
        (fun _ _ _ => by rw [hentity]; rfl) (fun _ _ entity _ hne => by
          rw [hentity] at hne
          cases entity <;> first | rfl | exact absurd rfl hne)
      obtain ⟨row, -, hnext⟩ := EntitySpec.apply_eq_ok h
      exact ⟨by rw [hnext]; exact hstored, others, by rw [mine, CanonicalOp, hentity]⟩
  | task =>
      rw [hentity] at h
      obtain ⟨others, mine, stored⟩ := (taskView env).recordsApplied h hstored
        (fun _ _ _ => by rw [hentity]; rfl) (fun _ _ entity _ hne => by
          rw [hentity] at hne
          cases entity <;> first | rfl | exact absurd rfl hne)
      exact ⟨stored, others, by rw [mine, CanonicalOp, hentity]⟩
  | step =>
      rw [hentity] at h
      obtain ⟨others, mine, -⟩ := (stepView env).recordsApplied h (fun _ _ _ => rfl)
        (fun _ _ _ => by rw [hentity]; rfl) (fun _ _ entity _ hne => by
          rw [hentity] at hne
          cases entity <;> first | rfl | exact absurd rfl hne)
      obtain ⟨row, -, hnext⟩ := EntitySpec.apply_eq_ok h
      exact ⟨by rw [hnext]; exact hstored, others, by rw [mine, CanonicalOp, hentity]⟩
  | dayPlan =>
      rw [hentity] at h
      obtain ⟨others, mine, -⟩ := (dayPlanView env).recordsApplied h (fun _ _ _ => rfl)
        (fun _ _ _ => by rw [hentity]; rfl) (fun _ _ entity _ hne => by
          rw [hentity] at hne
          cases entity <;> first | rfl | exact absurd rfl hne)
      obtain ⟨row, -, hnext⟩ := EntitySpec.apply_eq_ok h
      exact ⟨by rw [hnext]; exact hstored, others, by rw [mine, CanonicalOp, hentity]⟩

/-! ### A run -/

/-- The iteration's operation was accepted: it has a row of the change log. -/
def OpStep.Accepted (step : OpStep) : Prop := step.logged ≠ []

/-- The entity tables once the iterations are done. -/
def tablesAfter (done : List OpStep) : Entities :=
  (done.getLast?.map fun step => step.after.db.entities).getD .empty

theorem follows_concat {first last : Entities} {done : List OpStep} {step : OpStep} :
    Follows first (done ++ [step]) last ↔
      Follows first done step.before.db.entities ∧ step.after.db.entities = last := by
  induction done generalizing first with
  | nil => simp [Follows, eq_comm]
  | cons earlier rest ih => simp [Follows, ih, and_assoc]

theorem Follows.tablesAfter {done : List OpStep} {last : Entities}
    (h : Follows Entities.empty done last) : tablesAfter done = last := by
  induction done using List.reverseRecOn with
  | nil => exact h
  | append_singleton earlier step _ =>
      rw [← (follows_concat.mp h).2, ShishiTodo.tablesAfter, List.getLast?_concat]
      rfl

theorem foldLog_givenTo_concat (done : List OpStep) (step : OpStep) (userId : Uuid) :
    foldLog (givenTo (done ++ [step]) userId) =
      replay ((givenTo [step] userId).map ChangeRow.edit) (foldLog (givenTo done userId)) := by
  rw [foldLog, givenTo_append, List.map_append, replay_append]
  rfl

/-- An iteration that was not accepted leaves the tables; one that was has applied its operation and logged one row. -/
theorem OpStep.accepted_cases {env : Env} {step : OpStep}
    (h : OpOutcome env step.batch step.before step.mutation step.after) :
    (¬ step.Accepted ∧ step.after.db.entities = step.before.db.entities) ∨
      ∃ logged, step.Accepted ∧
        step.logged = [changeOf step.batch step.before step.mutation logged] ∧
        applyMutation env step.before.db.entities step.batch.auth.userId step.mutation
          step.before.nextServerSeq step.batch.now = .ok (logged, step.after.db.entities) := by
  obtain ⟨batch, mutation, before, after⟩ := step
  change OpOutcome env batch before mutation after at h
  cases h with
  | known receipt hreceipt hsame => exact .inl ⟨by simp [OpStep.Accepted, OpStep.logged], rfl⟩
  | old hreceipt hseq => exact .inl ⟨by simp [OpStep.Accepted, OpStep.logged], rfl⟩
  | applied patch entities hfresh happly =>
      refine .inr ⟨patch, ?_, ?_, happly⟩
      · simp [OpStep.Accepted, OpStep.logged, appliedState]
      · simp [OpStep.logged, appliedState]
  | rejected errorCode hfresh =>
      exact .inl ⟨by simp [OpStep.Accepted, OpStep.logged, rejectedState], rfl⟩

/-- What the iteration logged takes an account's tables from before it to after it, exactly when its operation was canonical or somebody else's. -/
theorem OpStep.replay_tables_iff {env : Env} {step : OpStep}
    (h : OpOutcome env step.batch step.before step.mutation step.after)
    (hstored : StoredRows env step.before.db.entities) :
    StoredRows env step.after.db.entities ∧ ∀ userId,
      (tableRecords env step.after.db.entities userId =
          replay ((givenTo [step] userId).map ChangeRow.edit)
            (tableRecords env step.before.db.entities userId) ↔
        (step.Accepted → step.batch.auth.userId = userId → CanonicalOp env step.mutation)) := by
  rcases OpStep.accepted_cases h with ⟨hidle, hsame⟩ | ⟨logged, haccepted, hlogged, happly⟩
  · refine ⟨hsame ▸ hstored, fun userId => iff_of_true ?_ fun haccepted => absurd haccepted hidle⟩
    rw [givenTo, List.flatMap_singleton, not_not.mp hidle, hsame]
    rfl
  · have happlied := applyMutation_recordsApplied hstored happly
    refine ⟨happlied.stored, fun userId => ?_⟩
    rw [forall_prop_of_true haccepted]
    by_cases hmine : step.batch.auth.userId = userId
    · have hgiven : givenTo [step] userId =
          [changeOf step.batch step.before step.mutation logged] := by
        simp [givenTo, hlogged, changeOf, hmine]
      rw [forall_prop_of_true hmine, ← happlied.mine, hgiven, hmine]
      rfl
    · have hgiven : givenTo [step] userId = [] := by
        simp [givenTo, hlogged, changeOf, hmine]
      rw [hgiven]
      exact iff_of_true (happlied.others userId fun h => hmine h.symm) fun h => absurd h hmine

/-- After every iteration each account's tables are what its log folds to, exactly when the accepted operations are canonical. -/
theorem log_faithful_iff {env : Env} {trace : List OpStep} {last : Entities}
    (houtcome : ∀ step ∈ trace, OpOutcome env step.batch step.before step.mutation step.after)
    (hfollows : Follows Entities.empty trace last) :
    StoredRows env last ∧
      ((∀ done, done <+: trace → ∀ userId,
          foldLog (givenTo done userId) = tableRecords env (tablesAfter done) userId) ↔
        ∀ step ∈ trace, step.Accepted → CanonicalOp env step.mutation) := by
  induction trace using List.reverseRecOn generalizing last with
  | nil =>
      cases hfollows
      refine ⟨by simp [StoredRows, Entities.empty], ?_⟩
      simp only [List.prefix_nil, forall_eq, List.not_mem_nil, false_implies, implies_true, iff_true]
      intro userId
      funext key
      obtain ⟨entity, id⟩ := key
      cases entity <;> rfl
  | append_singleton past step ih =>
      obtain ⟨hpast, rfl⟩ := follows_concat.mp hfollows
      obtain ⟨hstored, hfaithful⟩ := ih (fun step hstep =>
        houtcome step (List.mem_append_left _ hstep)) hpast
      obtain ⟨hstored', hstep⟩ := OpStep.replay_tables_iff (houtcome step (by simp)) hstored
      have hstepAll : (∀ userId, tableRecords env step.after.db.entities userId =
          replay ((givenTo [step] userId).map ChangeRow.edit)
            (tableRecords env step.before.db.entities userId)) ↔
          (step.Accepted → CanonicalOp env step.mutation) :=
        (forall_congr' hstep).trans ⟨fun h haccepted => h _ haccepted rfl, fun h _ haccepted _ =>
          h haccepted⟩
      have hafter : tablesAfter (past ++ [step]) = step.after.db.entities := by
        simp [tablesAfter]
      have hsplit : (∀ done, done <+: past ++ [step] → ∀ userId,
          foldLog (givenTo done userId) = tableRecords env (tablesAfter done) userId) ↔
          (∀ done, done <+: past → ∀ userId,
            foldLog (givenTo done userId) = tableRecords env (tablesAfter done) userId) ∧
          ∀ userId, foldLog (givenTo (past ++ [step]) userId) =
            tableRecords env step.after.db.entities userId := by
        simp only [List.prefix_concat_iff, or_imp, forall_and, forall_eq, hafter]
        exact and_comm
      have hcanonical : (∀ other ∈ past ++ [step], other.Accepted →
          CanonicalOp env other.mutation) ↔
          (∀ other ∈ past, other.Accepted → CanonicalOp env other.mutation) ∧
            (step.Accepted → CanonicalOp env step.mutation) := by
        simp [or_imp, forall_and]
      rw [hsplit, hcanonical, ← hfaithful, ← hstepAll]
      refine ⟨hstored', and_congr_right fun h => forall_congr' fun userId => ?_⟩
      -- Up to here the fold is the tables, so the last iteration decides.
      have hlast : foldLog (givenTo past userId) =
          tableRecords env step.before.db.entities userId := by
        rw [h past List.prefix_rfl userId, hpast.tablesAfter]
      rw [foldLog_givenTo_concat, hlast]
      exact eq_comm

/-- An account's canonical operations take its tables where their log takes them. -/
theorem tables_eq_replay {env : Env} {userId : Uuid} {steps : List OpStep} {first last : Entities}
    (houtcome : ∀ step ∈ steps, OpOutcome env step.batch step.before step.mutation step.after)
    (hfollows : Follows first steps last) (hstored : StoredRows env first)
    (hcanonical : ∀ step ∈ steps, step.Accepted → step.batch.auth.userId = userId →
      CanonicalOp env step.mutation) :
    tableRecords env last userId =
      replay ((givenTo steps userId).map ChangeRow.edit) (tableRecords env first userId) := by
  induction steps generalizing first with
  | nil =>
      cases hfollows
      rfl
  | cons step rest ih =>
      obtain ⟨rfl, hrest⟩ := hfollows
      obtain ⟨hstored', hstep⟩ := OpStep.replay_tables_iff (houtcome step (by simp)) hstored
      have hmoved := (hstep userId).mpr (hcanonical step (by simp))
      have happend : givenTo (step :: rest) userId = givenTo [step] userId ++ givenTo rest userId :=
        givenTo_append [step] rest userId
      rw [happend, List.map_append, replay_append, ← hmoved]
      exact ih (fun other hother => houtcome other (List.mem_cons_of_mem step hother)) hrest hstored'
        fun other hother => hcanonical other (List.mem_cons_of_mem step hother)

/-- The change log of a run is a faithful record of the tables exactly when every accepted operation was canonical: then, and only then, folding what each account was given so far yields the account's tables after every operation. -/
theorem changeLog_faithful_iff (env : Env) (events : List ServerEvent) :
    tablesAfter ((server env).trace Db.empty events) =
        ((server env).run Db.empty events).entities ∧
      ((∀ done, done <+: (server env).trace Db.empty events → ∀ userId,
          foldLog (givenTo done userId) = tableRecords env (tablesAfter done) userId) ↔
        ∀ step ∈ (server env).trace Db.empty events,
          step.Accepted → CanonicalOp env step.mutation) := by
  have hhistory := history_run env events
  exact ⟨hhistory.follows.tablesAfter,
    (log_faithful_iff (trace_outcome events Db.empty) hhistory.follows).2⟩

/-! ### A patch in capitals -/

/-- The device of one account. -/
def phone : AuthUser := ⟨⟨1⟩, ⟨2⟩⟩

/-- A request of the device with its operations. -/
def phoneRequest (ops : List Mutation) : ServerEvent :=
  .request ⟨⟨1000⟩, ⟨2000⟩⟩ phone
    { deviceId := phone.deviceId, cursor := "0", ops := ops, limit := none }

def createGroceries : Mutation where
  opId := ⟨3⟩
  clientSeq := 1
  entity := .list
  entityId := ⟨10⟩
  kind := .create
  patch := .obj [("name", .str "Groceries")]

def createMilk : Mutation where
  opId := ⟨4⟩
  clientSeq := 2
  entity := .task
  entityId := ⟨5⟩
  kind := .create
  patch := .obj [("title", .str "Milk")]

/-- Puts the task into the list, whose identifier it spells in capitals. -/
def moveMilk : Mutation where
  opId := ⟨6⟩
  clientSeq := 3
  entity := .task
  entityId := ⟨5⟩
  kind := .patch
  patch := .obj [("list_id", .str "00000000-0000-0000-0000-00000000000A")]

def capitalListId : List ServerEvent :=
  [.signUp phone.userId, .signIn phone, phoneRequest [createGroceries, createMilk, moveMilk]]

/-- The log keeps the capitals, the table does not. -/
theorem capital_list_id_diverges :
    ¬ ∀ (env : Env) (events : List ServerEvent) (userId : Uuid),
      foldLog (givenTo ((server env).trace Db.empty events) userId) =
        tableRecords env ((server env).run Db.empty events).entities userId := by
  intro hall
  have hsame := congrArg (fun feed => (feed (.task, ⟨5⟩)).bind fun record => record.fields "list_id")
    (hall Env.utc capitalListId ⟨1⟩)
  revert hsame
  decide +kernel

end ShishiTodo
