import ShishiTodo.Server.Bootstrap
import ShishiTodo.Server.ChangeLog

/-!
# A bootstrap read while others write

The pages of one bootstrap are read at different times, so no single state of the tables is in them. What they hold is enough all the same: every entity the cursor covers is on exactly one page, in a state it had at the cursor or later, and replaying the changes after the cursor brings all of them to the same point.
-/

namespace ShishiTodo

open Lib

/-! ### What every row has -/

/-- The columns of a row that no operation gives. -/
structure RowHead where
  userId : Uuid
  serverRev : Int
  createdAt : Instant

def EntityRow.head {V : Type} (row : EntityRow V) : RowHead where
  userId := row.userId
  serverRev := row.serverRev
  createdAt := row.createdAt

def Entities.head (entities : Entities) : EntityKey → Option RowHead
  | (.list, id) => (entities.lists.lookup id).map EntityRow.head
  | (.task, id) => (entities.tasks.lookup id).map EntityRow.head
  | (.step, id) => (entities.steps.lookup id).map EntityRow.head
  | (.dayPlan, id) => (entities.dayPlans.lookup id).map EntityRow.head

theorem selectRow_map_ne_none_iff {V ρ : Type} {spec : EntitySpec V} {entities : Entities}
    {userId id : Uuid} {read : EntityRow V → ρ} :
    (spec.selectRow entities userId id).map read ≠ none ↔
      ∃ head, ((spec.table entities).lookup id).map EntityRow.head = some head ∧
        head.userId = userId := by
  rw [Ne, Option.map_eq_none_iff, ← Ne, Option.ne_none_iff_exists']
  constructor
  · rintro ⟨row, hrow⟩
    obtain ⟨hlookup, howner⟩ := EntitySpec.selectRow_eq_some_iff.mp hrow
    exact ⟨row.head, by rw [hlookup]; rfl, howner⟩
  · rintro ⟨head, hhead, howner⟩
    obtain ⟨row, hlookup, rfl⟩ := Option.map_eq_some_iff.mp hhead
    exact ⟨row, EntitySpec.selectRow_eq_some_iff.mpr ⟨hlookup, howner⟩⟩

/-- An account has a record where it has a row. -/
theorem tableRecords_ne_none_iff {env : Env} {entities : Entities} {userId : Uuid} {key : EntityKey} :
    tableRecords env entities userId key ≠ none ↔
      ∃ head, entities.head key = some head ∧ head.userId = userId := by
  obtain ⟨entity, id⟩ := key
  cases entity <;> exact selectRow_map_ne_none_iff

/-- What an applied operation does to the rows: it writes its own with the next sequence, and leaves the others. -/
structure RowWritten (entities next : Entities) (userId : Uuid) (key : EntityKey) (serverSeq : Int)
    (now : Instant) : Prop where
  row : ∃ head, next.head key = some head ∧ head.userId = userId ∧ head.serverRev = serverSeq ∧
    match entities.head key with
    | some old => old.userId = userId ∧ head.createdAt = old.createdAt
    | none => head.createdAt = now
  others : ∀ other, other ≠ key → next.head other = entities.head other

theorem EntityView.rowWritten {env : Env} {V : Type} {spec : EntitySpec V} (view : EntityView env spec)
    {entities next : Entities} {userId : Uuid} {mutation : Mutation} {serverSeq : Int} {now : Instant}
    {logged : Json} (h : spec.apply entities userId mutation serverSeq now = .ok (logged, next))
    (hread : ∀ entities id, entities.head (mutation.entity, id) =
      ((spec.table entities).lookup id).map EntityRow.head)
    (hframe : ∀ table entity id, entity ≠ mutation.entity →
      (spec.withTable entities table).head (entity, id) = entities.head (entity, id)) :
    RowWritten entities next userId (mutation.entity, mutation.entityId) serverSeq now := by
  obtain ⟨row, houtcome, rfl⟩ := EntitySpec.apply_eq_ok h
  refine ⟨⟨row.head, ?_, ?_⟩, ?_⟩
  · rw [EntitySpec.write, hread, view.table_withTable, Table.lookup_insert_eq_ite, if_pos rfl]
    rfl
  · rw [hread]
    cases houtcome with
    | created values _ _ hfree => exact ⟨rfl, rfl, by rw [hfree]; rfl⟩
    | patched row values _ hrow howner => exact ⟨howner, rfl, by rw [hrow]; exact ⟨howner, rfl⟩⟩
    | deleted row _ hrow howner => exact ⟨howner, rfl, by rw [hrow]; exact ⟨howner, rfl⟩⟩
    | restored row values _ hrow howner =>
        exact ⟨howner, rfl, by rw [hrow]; exact ⟨howner, rfl⟩⟩
  · rintro ⟨entity, id⟩ hother
    by_cases hentity : entity = mutation.entity
    · subst hentity
      have hid : id ≠ mutation.entityId := fun h => hother (by rw [h])
      rw [EntitySpec.write, hread, hread, view.table_withTable, Table.lookup_insert_eq_ite,
        if_neg hid]
    · exact hframe _ entity id hentity

theorem applyMutation_rowWritten {env : Env} {entities next : Entities} {userId : Uuid}
    {mutation : Mutation} {serverSeq : Int} {now : Instant} {logged : Json}
    (h : applyMutation env entities userId mutation serverSeq now = .ok (logged, next)) :
    RowWritten entities next userId (mutation.entity, mutation.entityId) serverSeq now := by
  unfold applyMutation at h
  cases hentity : mutation.entity with
  | list =>
      rw [hentity] at h
      rw [← hentity]
      refine (listView env).rowWritten h (fun _ _ => by rw [hentity]; rfl) fun _ entity _ hne => ?_
      rw [hentity] at hne
      cases entity <;> first | rfl | exact absurd rfl hne
  | task =>
      rw [hentity] at h
      rw [← hentity]
      refine (taskView env).rowWritten h (fun _ _ => by rw [hentity]; rfl) fun _ entity _ hne => ?_
      rw [hentity] at hne
      cases entity <;> first | rfl | exact absurd rfl hne
  | step =>
      rw [hentity] at h
      rw [← hentity]
      refine (stepView env).rowWritten h (fun _ _ => by rw [hentity]; rfl) fun _ entity _ hne => ?_
      rw [hentity] at hne
      cases entity <;> first | rfl | exact absurd rfl hne
  | dayPlan =>
      rw [hentity] at h
      rw [← hentity]
      refine (dayPlanView env).rowWritten h (fun _ _ => by rw [hentity]; rfl)
        fun _ entity _ hne => ?_
      rw [hentity] at hne
      cases entity <;> first | rfl | exact absurd rfl hne

/-! ### The rows of a page -/

/-- The fields that operations on an entity set. -/
def patchFields : EntityType → List String
  | .list => ListPatch.fields
  | .task => TaskPatch.fields
  | .step => StepPatch.fields
  | .dayPlan => DayPlanPatch.fields

/-- A row of a page as a record. -/
def BootstrapEntity.record (row : BootstrapEntity) : Record String Json where
  fields field := if field ∈ patchFields row.entity then row.data.get field else none
  deleted := row.data.get "deleted_at" != some .null

theorem EntityKey.order_injective : Function.Injective EntityKey.order := by
  rintro ⟨entity, id⟩ ⟨other, otherId⟩ h
  have hpair : (entity.asStr, id.bits.toNat) = (other.asStr, otherId.bits.toNat) :=
    toLex.injective h
  rw [Prod.mk.injEq] at hpair
  have hentity : entity = other := by
    have := congrArg EntityType.parse hpair.1
    simpa using this
  have hid : id = otherId := congrArg Uuid.mk (BitVec.eq_of_toNat_eq hpair.2)
  rw [hentity, hid]

section Rows

variable {env : Env} {V : Type} {spec : EntitySpec V} (view : EntityView env spec)
  {entities : Entities} {userId : Uuid} {snapshotAt : Instant}

theorem EntityView.data_record (entity : EntityType) (id : Uuid) (row : EntityRow V)
    (hfields : patchFields entity = view.fields) :
    BootstrapEntity.record { entity := entity, entityId := id, data := view.data id row } =
      view.record row := by
  ext1
  · funext field
    simp only [BootstrapEntity.record, EntityView.record, hfields, EntityView.data, Json.get_obj]
    by_cases hfield : field ∈ view.fields
    · have hid : field ≠ "id" := fun h => view.reserved "id" (by simp) (h ▸ hfield)
      obtain ⟨printed, hprinted⟩ := view.exists_lookup_print env.jsonb row.values hfield
      rw [if_pos hfield, List.cons_append, Json.lookup_cons_eq_ite, if_neg hid, List.lookup_append,
        hprinted]
      rfl
    · rw [if_neg hfield, view.lookup_print_eq_none _ _ hfield]
  · have hdeleted := view.lookup_print_eq_none env.jsonb row.values
      (view.reserved "deleted_at" (by simp))
    simp only [BootstrapEntity.record, EntityView.record, EntityView.data, Json.get_obj,
      List.cons_append, Json.lookup_cons_eq_ite, List.lookup_append, hdeleted]
    cases row.deletedAt <;> rfl

theorem EntityView.mem_bootstrapRows {entity : EntityType} {row : BootstrapEntity} :
    row ∈ view.bootstrapRows entity entities userId snapshotAt ↔
      row.entity = entity ∧ ∃ stored, spec.selectRow entities userId row.entityId = some stored ∧
        stored.createdAt.nanos ≤ snapshotAt.nanos ∧ row.data = view.data row.entityId stored := by
  simp only [EntityView.bootstrapRows, List.mem_map, List.mem_filter, Bool.and_eq_true,
    beq_iff_eq, decide_eq_true_eq]
  constructor
  · rintro ⟨⟨id, stored⟩, ⟨hmem, howner, hcreated⟩, rfl⟩
    exact ⟨rfl, stored, EntitySpec.selectRow_eq_some_iff.mpr ⟨Table.mem_entries_iff.mp hmem, howner⟩,
      hcreated, rfl⟩
  · rintro ⟨hentity, stored, hselect, hcreated, hdata⟩
    obtain ⟨hlookup, howner⟩ := EntitySpec.selectRow_eq_some_iff.mp hselect
    refine ⟨⟨row.entityId, stored⟩, ⟨Table.mem_entries_iff.mpr hlookup, howner, hcreated⟩, ?_⟩
    cases row
    simp_all

theorem EntityView.nodup_bootstrapRows (entity : EntityType) :
    ((view.bootstrapRows entity entities userId snapshotAt).map BootstrapEntity.key).Nodup := by
  have hkeys : ((spec.table entities).entries.map Sigma.fst).Nodup :=
    (spec.table entities).keys_nodup
  have hids := hkeys.sublist ((List.filter_sublist (p := fun entry =>
    entry.2.userId == userId && decide (entry.2.createdAt.nanos ≤ snapshotAt.nanos))).map Sigma.fst)
  have hpairs := hids.map fun (left right : Uuid) (h : (entity, left) = (entity, right)) =>
    congrArg Prod.snd h
  simpa [EntityView.bootstrapRows, BootstrapEntity.key, List.map_map, Function.comp_def] using hpairs

end Rows

/-- A row of a page is the record of its key. -/
theorem tableRecords_of_mem_bootstrapRows {env : Env} {entities : Entities} {userId : Uuid}
    {snapshotAt : Instant} {row : BootstrapEntity}
    (h : row ∈ bootstrapRows env entities userId snapshotAt) :
    tableRecords env entities userId row.key = some row.record := by
  obtain ⟨entity, id, data⟩ := row
  simp only [bootstrapRows, List.mem_append, EntityView.mem_bootstrapRows] at h
  rcases h with ((h | h) | h) | h <;>
    obtain ⟨rfl, stored, hselect, -, rfl⟩ := h
  · rw [EntityView.data_record _ _ _ _ rfl]
    exact congrArg (Option.map _) hselect
  · rw [EntityView.data_record _ _ _ _ rfl]
    exact congrArg (Option.map _) hselect
  · rw [EntityView.data_record _ _ _ _ rfl]
    exact congrArg (Option.map _) hselect
  · rw [EntityView.data_record _ _ _ _ rfl]
    exact congrArg (Option.map _) hselect

/-- A row that the snapshot reaches is among the rows of every page statement. -/
theorem mem_bootstrapRows_of_head (env : Env) {entities : Entities} {userId : Uuid}
    {snapshotAt : Instant} {key : EntityKey} {head : RowHead} (hhead : entities.head key = some head)
    (howner : head.userId = userId) (hcreated : head.createdAt.nanos ≤ snapshotAt.nanos) :
    key ∈ (bootstrapRows env entities userId snapshotAt).map BootstrapEntity.key := by
  obtain ⟨entity, id⟩ := key
  have hrow : ∀ (data : Json), BootstrapEntity.mk entity id data ∈
      bootstrapRows env entities userId snapshotAt →
        (entity, id) ∈ (bootstrapRows env entities userId snapshotAt).map BootstrapEntity.key :=
    fun data hmem => List.mem_map.mpr ⟨_, hmem, rfl⟩
  have hselect : ∀ {V : Type} (spec : EntitySpec V) {row : EntityRow V},
      (spec.table entities).lookup id = some row → row.head = head →
        spec.selectRow entities userId id = some row ∧ row.createdAt.nanos ≤ snapshotAt.nanos := by
    intro V spec row hlookup hsame
    subst hsame
    exact ⟨EntitySpec.selectRow_eq_some_iff.mpr ⟨hlookup, howner⟩, hcreated⟩
  simp only [bootstrapRows, List.mem_append, EntityView.mem_bootstrapRows] at hrow
  cases entity with
  | list =>
      obtain ⟨row, hlookup, hsame⟩ := Option.map_eq_some_iff.mp hhead
      obtain ⟨hselected, hle⟩ := hselect listSpec hlookup hsame
      exact hrow _ (.inl (.inl (.inl ⟨rfl, row, hselected, hle, rfl⟩)))
  | task =>
      obtain ⟨row, hlookup, hsame⟩ := Option.map_eq_some_iff.mp hhead
      obtain ⟨hselected, hle⟩ := hselect (taskSpec env) hlookup hsame
      exact hrow _ (.inl (.inl (.inr ⟨rfl, row, hselected, hle, rfl⟩)))
  | step =>
      obtain ⟨row, hlookup, hsame⟩ := Option.map_eq_some_iff.mp hhead
      obtain ⟨hselected, hle⟩ := hselect (stepSpec env) hlookup hsame
      exact hrow _ (.inl (.inr ⟨rfl, row, hselected, hle, rfl⟩))
  | dayPlan =>
      obtain ⟨row, hlookup, hsame⟩ := Option.map_eq_some_iff.mp hhead
      obtain ⟨hselected, hle⟩ := hselect (dayPlanSpec env) hlookup hsame
      exact hrow _ (.inr ⟨rfl, row, hselected, hle, rfl⟩)

theorem nodup_key_append {left right : List BootstrapEntity}
    (hleft : (left.map BootstrapEntity.key).Nodup) (hright : (right.map BootstrapEntity.key).Nodup)
    (htags : ∀ row ∈ left, ∀ other ∈ right, row.entity ≠ other.entity) :
    ((left ++ right).map BootstrapEntity.key).Nodup := by
  rw [List.map_append, List.nodup_append]
  refine ⟨hleft, hright, fun a ha b hb heq => ?_⟩
  obtain ⟨row, hrow, rfl⟩ := List.mem_map.mp ha
  obtain ⟨other, hother, rfl⟩ := List.mem_map.mp hb
  exact htags row hrow other hother (congrArg Prod.fst heq)

theorem nodup_bootstrapRows (env : Env) (entities : Entities) (userId : Uuid) (snapshotAt : Instant) :
    ((bootstrapRows env entities userId snapshotAt).map fun row => row.key.order).Nodup := by
  have hkeys : ((bootstrapRows env entities userId snapshotAt).map BootstrapEntity.key).Nodup := by
    refine nodup_key_append (nodup_key_append (nodup_key_append ?_ ?_ ?_) ?_ ?_) ?_ ?_
    all_goals first
      | exact EntityView.nodup_bootstrapRows _ _
      | intro row hrow other hother
        simp only [List.mem_append, EntityView.mem_bootstrapRows] at hrow hother
        grind
  rw [← Function.comp_def EntityKey.order BootstrapEntity.key, ← List.map_map]
  exact hkeys.map EntityKey.order_injective

/-! ### One snapshot -/

/-- The order of the last key the pages reached. -/
def Reading.reached (reading : Reading) : Option (String ×ₗ Nat) :=
  reading.page.bind fun page => page.nextPage.bind fun token => token.last.map EntityKey.order

/-- The account had the entity when the snapshot was opened. -/
def HadKey (env : Env) (opened : List OpStep) (userId : Uuid) (key : EntityKey) : Prop :=
  tableRecords env (tablesAfter opened) userId key ≠ none

/-- What holds of a bootstrap at any time, `opened` being what had been done when it was opened. -/
structure ReadingSound (env : Env) (entities : Entities) (past opened : List OpStep)
    (reading : Reading) : Prop where
  isPrefix : opened <+: past
  cursor_nonneg : 0 ≤ reading.position.cursor
  cursor : (givenTo opened reading.userId).map ChangeRow.serverSeq =
    Int.range 1 (reading.position.cursor + 1)
  limit_pos : 0 < reading.limit
  first : reading.position.last = none
  fresh : reading.page = none → reading.entities = []
  /-- What the cursor covers was there when the snapshot was opened. -/
  covered : ∀ key head, entities.head key = some head → head.userId = reading.userId →
    head.serverRev ≤ reading.position.cursor → HadKey env opened reading.userId key
  /-- What was there then stays within reach of every page statement. -/
  kept : ∀ key, HadKey env opened reading.userId key → ∃ head, entities.head key = some head ∧
    head.userId = reading.userId ∧ head.createdAt.nanos ≤ reading.position.snapshotAt.nanos
  /-- A row of a page is the entity as it was at the snapshot or later. -/
  read : ∀ row ∈ reading.entities, ∃ done, opened <+: done ∧ done <+: past ∧
    tableRecords env (tablesAfter done) reading.userId row.key = some row.record
  scan : ScanSound (fun row : BootstrapEntity => row.key.order)
    (fun order => ∃ key, HadKey env opened reading.userId key ∧ key.order = order)
    reading.entities reading.reached reading.finished
  /-- Every page carries the snapshot of the first. -/
  page : ∀ page, reading.page = some page →
    page.snapshotCursor = ChangeCursor.render reading.position.cursor ∧
      ∀ token, page.nextPage = some token →
        token.snapshotCursor = reading.position.cursor ∧
          token.snapshotAt = reading.position.snapshotAt

theorem ReadingSound.commit {env : Env} {entities next : Entities} {past opened more : List OpStep}
    {reading : Reading} (h : ReadingSound env entities past opened reading)
    (houtcome : ∀ step ∈ more, OpOutcome env step.batch step.before step.mutation step.after)
    (hfollows : Follows entities more next)
    (hafter : ∀ row ∈ givenTo more reading.userId, reading.position.cursor < row.serverSeq) :
    ReadingSound env next (past ++ more) opened reading where
  isPrefix := h.isPrefix.trans (List.prefix_append past more)
  cursor_nonneg := h.cursor_nonneg
  cursor := h.cursor
  limit_pos := h.limit_pos
  first := h.first
  fresh := h.fresh
  covered := by
    refine hfollows.preserves (fun entities => ∀ key head, entities.head key = some head →
      head.userId = reading.userId → head.serverRev ≤ reading.position.cursor →
        HadKey env opened reading.userId key) (fun step hstep hbefore key head hhead howner hrev => ?_)
      h.covered
    rcases OpStep.accepted_cases (houtcome step hstep) with
      ⟨-, hsame⟩ | ⟨logged, -, hlogged, happly⟩
    · rw [hsame] at hhead
      exact hbefore key head hhead howner hrev
    · obtain ⟨hrow, hothers⟩ := applyMutation_rowWritten happly
      by_cases hkey : key = (step.mutation.entity, step.mutation.entityId)
      · subst hkey
        obtain ⟨written, hwritten, hauth, hseq, -⟩ := hrow
        rw [hwritten, Option.some.injEq] at hhead
        subst hhead
        have hgiven : changeOf step.batch step.before step.mutation logged ∈
            givenTo more reading.userId := by
          refine List.mem_filter.mpr ⟨List.mem_flatMap.mpr ⟨step, hstep, by simp [hlogged]⟩, ?_⟩
          exact beq_iff_eq.mpr (hauth.symm.trans howner)
        have hlater := hafter _ hgiven
        change _ < step.before.nextServerSeq at hlater
        omega
      · rw [hothers key hkey] at hhead
        exact hbefore key head hhead howner hrev
  kept := by
    refine hfollows.preserves (fun entities => ∀ key, HadKey env opened reading.userId key →
      ∃ head, entities.head key = some head ∧ head.userId = reading.userId ∧
        head.createdAt.nanos ≤ reading.position.snapshotAt.nanos)
      (fun step hstep hbefore key hhad => ?_) h.kept
    obtain ⟨head, hhead, howner, hcreated⟩ := hbefore key hhad
    rcases OpStep.accepted_cases (houtcome step hstep) with
      ⟨-, hsame⟩ | ⟨logged, -, hlogged, happly⟩
    · exact ⟨head, by rw [hsame]; exact hhead, howner, hcreated⟩
    · obtain ⟨hrow, hothers⟩ := applyMutation_rowWritten happly
      by_cases hkey : key = (step.mutation.entity, step.mutation.entityId)
      · subst hkey
        obtain ⟨written, hwritten, hauth, -, hold⟩ := hrow
        rw [hhead] at hold
        refine ⟨written, hwritten, ?_, ?_⟩
        · rw [hauth, ← hold.1, howner]
        · rw [hold.2]
          exact hcreated
      · exact ⟨head, by rw [hothers key hkey]; exact hhead, howner, hcreated⟩
  read row hrow := by
    obtain ⟨done, hopened, hdone, hrecord⟩ := h.read row hrow
    exact ⟨done, hopened, hdone.trans (List.prefix_append past more), hrecord⟩
  scan := h.scan
  page := h.page

/-! ### One page -/

theorem bootstrapLimit_pos {limit : Option Nat} {bound : Nat} (h : bootstrapLimit limit = .ok bound) :
    0 < bound := by
  cases limit with
  | none =>
      cases h
      omega
  | some given =>
      by_cases hgiven : 1 ≤ given ∧ given ≤ 500
      · simp only [bootstrapLimit, parsePageLimit, if_pos hgiven] at h
        cases h
        omega
      · simp [bootstrapLimit, parsePageLimit, if_neg hgiven] at h

/-- What a page that was read is. -/
theorem snapshotPage_eq_ok {env : Env} {db : Db} {userId : Uuid} {position : SnapshotPosition}
    {limit : Nat} {expiresAt : Int} {page : BootstrapPage}
    (h : snapshotPage env db userId position limit expiresAt = .ok page) :
    (page.entities, page.hasMore) = keysetPage (fun row : BootstrapEntity => row.key.order)
      (bootstrapRows env db.entities userId position.snapshotAt)
      (position.last.map EntityKey.order) limit ∧
    page.snapshotCursor = ChangeCursor.render position.cursor ∧
    (∀ token, page.nextPage = some token → token.snapshotCursor = position.cursor ∧
      token.snapshotAt = position.snapshotAt) ∧
    (page.hasMore = true → (page.nextPage.bind fun token => token.last.map EntityKey.order) =
      page.entities.getLast?.map fun row => row.key.order) := by
  simp only [snapshotPage] at h
  generalize keysetPage (fun row : BootstrapEntity => row.key.order)
    (bootstrapRows env db.entities userId position.snapshotAt)
    (position.last.map EntityKey.order) limit = rows at h ⊢
  obtain ⟨entities, hasMore⟩ := rows
  cases hasMore with
  | false =>
      cases h
      exact ⟨rfl, rfl, by simp, by simp⟩
  | true =>
      cases hlast : entities.getLast? with
      | none => simp [hlast] at h
      | some last =>
          simp only [hlast] at h
          cases h
          exact ⟨rfl, rfl, by simp, fun _ => by simp [hlast]⟩

theorem ReadingSound.turn {env : Env} {db : Db} {past opened : List OpStep} {reading : Reading}
    (h : ReadingSound env db.entities past opened reading)
    (hpast : tablesAfter past = db.entities) (guard : Nat) {position : SnapshotPosition} {limit : Nat}
    {expiresAt : Int} {page : BootstrapPage}
    (hpage : snapshotPage env db reading.userId position limit expiresAt = .ok page)
    (hcursor : position.cursor = reading.position.cursor)
    (hsnapshot : position.snapshotAt = reading.position.snapshotAt)
    (hreached : position.last.map EntityKey.order = reading.reached)
    (hgoing : reading.finished = false) (hlimit : 0 < limit) :
    ReadingSound env db.entities past opened
      { reading with entities := reading.entities ++ page.entities, page := some page, guard := guard } := by
  obtain ⟨hrows, htext, htoken, hlast⟩ := snapshotPage_eq_ok hpage
  rw [hsnapshot, hreached] at hrows
  have hentities : page.entities = (keysetPage (fun row : BootstrapEntity => row.key.order)
      (bootstrapRows env db.entities reading.userId reading.position.snapshotAt)
      reading.reached limit).1 := congrArg Prod.fst hrows
  have hmore : page.hasMore = (keysetPage (fun row : BootstrapEntity => row.key.order)
      (bootstrapRows env db.entities reading.userId reading.position.snapshotAt)
      reading.reached limit).2 := congrArg Prod.snd hrows
  refine {
    isPrefix := h.isPrefix
    cursor_nonneg := h.cursor_nonneg
    cursor := h.cursor
    limit_pos := h.limit_pos
    first := h.first
    fresh := by simp
    covered := h.covered
    kept := h.kept
    read := ?_
    scan := ?_
    page := ?_ }
  · intro row hrow
    rcases List.mem_append.mp hrow with hold | hnew
    · exact h.read row hold
    · rw [hentities, keysetPage_fst] at hnew
      refine ⟨past, h.isPrefix, List.prefix_rfl, ?_⟩
      rw [hpast]
      exact tableRecords_of_mem_bootstrapRows (mem_of_mem_keysetRows hnew).1
  · have hscan := h.scan
    rw [hgoing] at hscan
    have hstable : ∀ order, (∃ key, HadKey env opened reading.userId key ∧ key.order = order) →
        order ∈ (bootstrapRows env db.entities reading.userId
          reading.position.snapshotAt).map fun row => row.key.order := by
      rintro order ⟨key, hhad, rfl⟩
      obtain ⟨head, hhead, howner, hcreated⟩ := h.kept key hhad
      obtain ⟨row, hrow, rfl⟩ := List.mem_map.mp
        (mem_bootstrapRows_of_head env hhead howner hcreated)
      exact List.mem_map.mpr ⟨row, hrow, rfl⟩
    have hnext := hscan.page (nodup_bootstrapRows env db.entities reading.userId
      reading.position.snapshotAt) hstable hlimit
      (page.nextPage.bind fun token => token.last.map EntityKey.order) fun hmany => by
        rw [← hentities]
        exact hlast (hmore.trans hmany)
    rw [← hentities, ← hmore] at hnext
    exact hnext
  · intro page' hpage'
    cases hpage'
    rw [← hcursor, ← hsnapshot]
    exact ⟨htext, htoken⟩

theorem ReadingSound.readPage {env : Env} {db : Db} {past opened : List OpStep} {reading : Reading}
    (h : ReadingSound env db.entities past opened reading)
    (hpast : tablesAfter past = db.entities) (limit : Option Nat) (now expiresAt : Int) :
    ReadingSound env db.entities past opened (reading.readPage env db limit now expiresAt) := by
  unfold Reading.readPage
  split
  · rename_i hnone
    split
    · exact h
    · rename_i page hpage
      have hturn := h.turn hpast reading.guard hpage rfl rfl
        (by rw [h.first, Reading.reached, hnone]; rfl) (by rw [Reading.finished, hnone]; rfl)
        h.limit_pos
      rw [h.fresh hnone, List.nil_append] at hturn
      exact hturn
  · rename_i page hpage
    split
    · rename_i token hgo htoken
      split
      · exact h
      · rename_i next hnext
        simp only [bootstrapAfter, bind_eq_ok_iff] at hnext
        obtain ⟨bound, hbound, hverified⟩ := hnext
        split at hverified
        · cases hverified
        · rename_i continuation hverify
          have hsame : continuation = token := by
            unfold BootstrapContinuation.verify at hverify
            split at hverify
            · cases hverify
            · split at hverify
              · cases hverify
              · exact (Except.ok.inj hverify).symm
          subst hsame
          obtain ⟨hcursor, hsnapshot⟩ := (h.page page hpage).2 continuation htoken
          refine h.turn hpast (reading.guard + 1) hverified hcursor hsnapshot ?_ ?_ (bootstrapLimit_pos hbound)
          · rw [Reading.reached, hpage, Option.bind_some, htoken, Option.bind_some]
          · simp only [Bool.and_eq_true] at hgo
            rw [Reading.finished, hpage]
            simp [hgo.1]
    · exact h

/-! ### A run -/

theorem opSteps_batch {env : Env} {batch : Batch} {ops : List Mutation} {state : LoopState} :
    ∀ step ∈ opSteps env batch ops state, step.batch = batch := by
  induction ops generalizing state with
  | nil => simp [opSteps]
  | cons mutation rest ih =>
      intro step hstep
      unfold opSteps at hstep
      split at hstep
      · cases hstep
      · rcases List.mem_cons.mp hstep with rfl | hrest
        · rfl
        · exact ih step hrest

/-- A transaction that commits on time stamps its rows with an instant that has passed. -/
theorem serverEmit_now (env : Env) {state : SnapshotState} {clock : Instant} {event : ServerEvent}
    (h : onTime state clock event = true) :
    state.clock.nanos ≤ clock.nanos ∧
      ∀ step ∈ serverEmit env state.db event, step.batch.now.nanos ≤ clock.nanos := by
  cases event with
  | request start auth body =>
      simp only [onTime, Bool.and_eq_true, decide_eq_true_eq] at h
      refine ⟨h.1, fun step hstep => ?_⟩
      change step ∈ requestSteps env start auth body state.db at hstep
      unfold requestSteps at hstep
      split at hstep
      · cases hstep
      · simp only at hstep
        split at hstep
        · cases hstep
        · rw [opSteps_batch step hstep]
          exact h.2
  | _ => exact ⟨by simpa [onTime] using h, fun step hstep => by cases hstep⟩

/-- What an account was given after a part of the run lies above what it was given in that part. -/
theorem lt_of_mem_givenTo {left right : List OpStep} {userId : Uuid} {middle next : Int}
    (hmiddle : 0 ≤ middle)
    (hleft : (givenTo left userId).map ChangeRow.serverSeq = Int.range 1 (middle + 1))
    (hall : (givenTo (left ++ right) userId).map ChangeRow.serverSeq = Int.range 1 next) :
    ∀ row ∈ givenTo right userId, middle < row.serverSeq := by
  intro row hrow
  have hsorted := pairwise_lt_range 1 next
  rw [← hall, givenTo_append, List.map_append, hleft, List.pairwise_append] at hsorted
  have hseq := List.mem_map_of_mem (f := ChangeRow.serverSeq) hrow
  have hrange : row.serverSeq ∈ Int.range 1 next := by
    rw [← hall, givenTo_append, List.map_append]
    exact List.mem_append_right _ hseq
  have hpos := (Int.mem_range_iff.mp hrange).1
  rcases hmiddle.lt_or_eq with hlt | rfl
  · exact hsorted.2.2 middle (Int.mem_range_iff.mpr ⟨hlt, by omega⟩) _ hseq
  · omega

theorem History.ensureSyncState {db : Db} {past : List OpStep} (h : History db past) (userId : Uuid) :
    History (db.ensureSyncState userId) past :=
  h.frame (fun _ device hdevice => ⟨device, hdevice, rfl⟩)
    (fun _ device hdevice => .inl ⟨device, hdevice, rfl⟩)
    (fun other => by rw [syncState_ensureSyncState]) (fun _ _ hreceipt => hreceipt)
    (fun _ hrow => hrow) rfl

/-- What holds of the server and the client that bootstraps from it, in every state of a run. -/
structure Downloading (env : Env) (state : SnapshotState) (past : List OpStep) : Prop where
  history : History state.db past
  outcome : ∀ step ∈ past, OpOutcome env step.batch step.before step.mutation step.after
  created : ∀ key head, state.db.entities.head key = some head →
    head.createdAt.nanos ≤ state.clock.nanos
  reading : ∀ reading, state.reading = some reading →
    ∃ opened, ReadingSound env state.db.entities past opened reading

theorem Downloading.initial (env : Env) : Downloading env .initial [] where
  history := History.empty
  outcome := by simp
  created := by
    rintro ⟨entity, id⟩ head hhead
    cases entity <;> simp [SnapshotState.initial, Db.empty, Entities.empty, Entities.head] at hhead
  reading := by simp [SnapshotState.initial]

theorem Downloading.commit {env : Env} {state : SnapshotState} {past : List OpStep}
    (h : Downloading env state past) {clock : Instant} {event : ServerEvent}
    (htime : onTime state clock event = true) :
    Downloading env { state with db := serverStep env state.db event, clock := clock }
      (past ++ serverEmit env state.db event) := by
  have hhistory : History (serverStep env state.db event) (past ++ serverEmit env state.db event) :=
    History.step h.history event
  have hnew : ∀ step ∈ serverEmit env state.db event,
      OpOutcome env step.batch step.before step.mutation step.after := fun step hstep =>
    trace_outcome [event] state.db step (by simpa [server] using hstep)
  have hfollows := hhistory.follows.of_append h.history.follows
  obtain ⟨hclock, hnow⟩ := serverEmit_now env htime
  refine {
    history := hhistory
    outcome := ?_
    created := ?_
    reading := ?_ }
  · intro step hstep
    exact (List.mem_append.mp hstep).elim (h.outcome step) (hnew step)
  · refine hfollows.preserves (fun entities => ∀ key head, entities.head key = some head →
      head.createdAt.nanos ≤ clock.nanos) (fun step hstep hbefore key head hhead => ?_)
      fun key head hhead => (h.created key head hhead).trans hclock
    rcases OpStep.accepted_cases (hnew step hstep) with
      ⟨-, hsame⟩ | ⟨logged, -, hlogged, happly⟩
    · rw [hsame] at hhead
      exact hbefore key head hhead
    · obtain ⟨hrow, hothers⟩ := applyMutation_rowWritten happly
      by_cases hkey : key = (step.mutation.entity, step.mutation.entityId)
      · subst hkey
        obtain ⟨written, hwritten, -, -, hold⟩ := hrow
        rw [hwritten, Option.some.injEq] at hhead
        subst hhead
        split at hold
        · rename_i old hfound
          rw [hold.2]
          exact hbefore _ old hfound
        · rw [hold]
          exact hnow step hstep
      · rw [hothers key hkey] at hhead
        exact hbefore key head hhead
  · intro reading hreading
    obtain ⟨opened, hsound⟩ := h.reading reading hreading
    refine ⟨opened, hsound.commit hnew hfollows fun row hrow => ?_⟩
    obtain ⟨between, hbetween⟩ := hsound.isPrefix
    have hsequence := (hhistory.sequence reading.userId).2
    rw [← hbetween, List.append_assoc] at hsequence
    refine lt_of_mem_givenTo hsound.cursor_nonneg hsound.cursor hsequence row ?_
    rw [givenTo_append]
    exact List.mem_append_right _ hrow

theorem Downloading.openSnapshot {env : Env} {state : SnapshotState} {past : List OpStep}
    (h : Downloading env state past) {clock : Instant} (userId : Uuid) {limit : Nat}
    (htime : state.clock.nanos ≤ clock.nanos) (hlimit : 0 < limit) :
    Downloading env {
      db := state.db.ensureSyncState userId
      clock := clock
      reading := some {
        userId := userId
        position := (state.db.ensureSyncState userId).openSnapshot userId clock
        limit := limit
        entities := []
        page := none
        guard := 0 } } past where
  history := h.history.ensureSyncState userId
  outcome := h.outcome
  created key head hhead := (h.created key head hhead).trans htime
  reading := by
    intro reading hreading
    cases hreading
    obtain ⟨hpos, hsequence⟩ := h.history.sequence userId
    have htables := h.history.follows.tablesAfter
    refine ⟨past, {
      isPrefix := List.prefix_rfl
      cursor_nonneg := ?_
      cursor := ?_
      limit_pos := hlimit
      first := rfl
      fresh := fun _ => rfl
      covered := fun key head hhead howner _ => ?_
      kept := fun key hhad => ?_
      read := by simp
      scan := ScanSound.start _ _
      page := by simp }⟩
    · simp only [Db.openSnapshot, syncState_ensureSyncState]
      omega
    · simp only [Db.openSnapshot, syncState_ensureSyncState]
      rw [hsequence, Int.sub_add_cancel]
    · rw [HadKey, htables, tableRecords_ne_none_iff]
      exact ⟨head, hhead, howner⟩
    · rw [HadKey, htables, tableRecords_ne_none_iff] at hhad
      obtain ⟨head, hhead, howner⟩ := hhad
      exact ⟨head, hhead, howner, (h.created key head hhead).trans htime⟩

theorem Downloading.step {env : Env} {state : SnapshotState} {past : List OpStep}
    (h : Downloading env state past) (event : SnapshotEvent) :
    Downloading env ((snapshots env).step state event) (past ++ (snapshots env).emit state event) := by
  cases event with
  | server clock event =>
      simp only [snapshots, snapshotStep, snapshotEmit]
      split
      · rename_i htime
        exact h.commit htime
      · simpa using h
  | openSnapshot clock userId limit =>
      simp only [snapshots, snapshotStep, snapshotEmit, List.append_nil]
      split
      · rename_i bound htime hbound
        exact h.openSnapshot userId (by simpa using htime) (bootstrapLimit_pos hbound)
      · exact h
  | readPage limit now expiresAt =>
      simp only [snapshots, snapshotStep, snapshotEmit, List.append_nil]
      refine { history := h.history, outcome := h.outcome, created := h.created, reading := ?_ }
      intro reading hreading
      obtain ⟨before, hbefore, rfl⟩ := Option.map_eq_some_iff.mp hreading
      obtain ⟨opened, hsound⟩ := h.reading before hbefore
      refine ⟨opened, ?_⟩
      exact hsound.readPage h.history.follows.tablesAfter limit now expiresAt

theorem downloading_run (env : Env) (events : List SnapshotEvent) :
    Downloading env ((snapshots env).run .initial events) ((snapshots env).trace .initial events) :=
  (snapshots env).invariant (Downloading env) (fun _ _ event h => h.step event)
    (Downloading.initial env) events

/-! ### Catching up -/

namespace Reading

/-- The union of the pages, as records. -/
def records (reading : Reading) : Feed EntityKey String Json := fun key =>
  (reading.entities.find? fun row => row.key == key).map BootstrapEntity.record

/-- The account's changes after the snapshot's cursor, in order. -/
def changesAfter (reading : Reading) (past : List OpStep) : List ChangeRow :=
  (givenTo past reading.userId).filter fun row => decide (reading.position.cursor < row.serverSeq)

/-- The account's operations that were accepted after the snapshot's cursor are canonical. -/
def CanonicalAfter (env : Env) (reading : Reading) (past : List OpStep) : Prop :=
  ∀ step ∈ past, step.Accepted → step.batch.auth.userId = reading.userId →
    reading.position.cursor < step.before.nextServerSeq → CanonicalOp env step.mutation

end Reading

/-- What the pages of a finished bootstrap are to the tables. -/
structure SnapshotSound (reading : Reading) (entities : Entities) : Prop where
  /-- No entity is on two pages. -/
  once : (reading.entities.map BootstrapEntity.key).Nodup
  /-- No entity that the cursor covers is missing. -/
  complete : ∀ key head, entities.head key = some head → head.userId = reading.userId →
    head.serverRev ≤ reading.position.cursor →
      key ∈ reading.entities.map BootstrapEntity.key
  /-- The cursor the pages carry is the one the snapshot was opened at. -/
  cursor : ∀ page, reading.page = some page →
    page.snapshotCursor = ChangeCursor.render reading.position.cursor

section CatchUp

variable {env : Env} {state : SnapshotState} {past opened : List OpStep} {reading : Reading}

/-- A finished scan has every entity that was there when it began. -/
theorem ReadingSound.mem_of_hadKey
    (h : ReadingSound env state.db.entities past opened reading) (hfinished : reading.finished = true)
    {key : EntityKey} (hhad : HadKey env opened reading.userId key) :
    key ∈ reading.entities.map BootstrapEntity.key := by
  obtain ⟨row, hrow, horder⟩ :=
    List.mem_map.mp (h.scan.covered _ ⟨key, hhad, rfl⟩ (.inl hfinished))
  exact List.mem_map.mpr ⟨row, hrow, EntityKey.order_injective horder⟩

theorem ReadingSound.snapshotSound
    (h : ReadingSound env state.db.entities past opened reading)
    (hfinished : reading.finished = true) : SnapshotSound reading state.db.entities where
  once := by
    have hdistinct : (reading.entities.map fun row => row.key.order).Nodup :=
      h.scan.ascending.imp fun hlt => ne_of_lt hlt
    rw [← Function.comp_def EntityKey.order BootstrapEntity.key, ← List.map_map] at hdistinct
    exact hdistinct.of_map _
  complete key head hhead howner hrev :=
    h.mem_of_hadKey hfinished (h.covered key head hhead howner hrev)
  cursor page hpage := (h.page page hpage).1

theorem ReadingSound.caughtUp (hstate : Downloading env state past)
    (h : ReadingSound env state.db.entities past opened reading)
    (hfinished : reading.finished = true) (hcanonical : reading.CanonicalAfter env past) :
    replay ((reading.changesAfter past).map ChangeRow.edit) reading.records =
      tableRecords env state.db.entities reading.userId := by
  obtain ⟨rest, rfl⟩ := h.isPrefix
  have hsequence := (hstate.history.sequence reading.userId).2
  have hlater := lt_of_mem_givenTo h.cursor_nonneg h.cursor hsequence
  -- The changes after the cursor are the ones given since the snapshot was opened.
  have hchanges : reading.changesAfter (opened ++ rest) = givenTo rest reading.userId := by
    have hold : (givenTo opened reading.userId).filter
        (fun row => decide (reading.position.cursor < row.serverSeq)) = [] := by
      refine List.filter_eq_nil_iff.mpr fun row hrow => ?_
      have hrange := h.cursor ▸ List.mem_map_of_mem (f := ChangeRow.serverSeq) hrow
      have := (Int.mem_range_iff.mp hrange).2
      simp only [decide_eq_true_eq]
      omega
    rw [Reading.changesAfter, givenTo_append, List.filter_append, hold, List.nil_append]
    exact List.filter_eq_self.mpr fun row hrow => decide_eq_true (hlater row hrow)
  obtain ⟨middle, hopened⟩ := hstate.history.follows.exists_middle
  have hrest := hstate.history.follows.of_append hopened
  have houtcomes : ∀ step ∈ rest, OpOutcome env step.batch step.before step.mutation step.after :=
    fun step hstep => hstate.outcome step (List.mem_append_right _ hstep)
  have hstored : StoredRows env middle := (log_faithful_iff (fun step hstep =>
    hstate.outcome step (List.mem_append_left _ hstep)) hopened).1
  have hsince : ∀ step ∈ rest, step.Accepted → step.batch.auth.userId = reading.userId →
      CanonicalOp env step.mutation := by
    intro step hstep haccepted howner
    refine hcanonical step (List.mem_append_right _ hstep) haccepted howner ?_
    rcases OpStep.accepted_cases (houtcomes step hstep) with ⟨hidle, -⟩ | ⟨logged, -, hlogged, -⟩
    · exact absurd haccepted hidle
    · have hgiven : changeOf step.batch step.before step.mutation logged ∈
          givenTo rest reading.userId :=
        List.mem_filter.mpr ⟨List.mem_flatMap.mpr ⟨step, hstep, by simp [hlogged]⟩,
          beq_iff_eq.mpr howner⟩
      exact hlater _ hgiven
  have htables := tables_eq_replay houtcomes hrest hstored hsince
  rw [hchanges, htables]
  funext key
  cases hfind : reading.entities.find? fun row => row.key == key with
  | none =>
      have hmissing : tableRecords env middle reading.userId key = none := by
        by_contra hhad
        have hmem := h.mem_of_hadKey hfinished (show HadKey env opened reading.userId key by
          rw [HadKey, hopened.tablesAfter]
          exact hhad)
        obtain ⟨row, hrow, hkey⟩ := List.mem_map.mp hmem
        exact absurd (beq_iff_eq.mpr hkey) (List.find?_eq_none.mp hfind row hrow)
      refine replay_congr _ ?_
      rw [hmissing, Reading.records, hfind]
      rfl
  | some row =>
      have hkey : row.key = key := by simpa using List.find?_some hfind
      obtain ⟨done, hbefore, hdone, hrecord⟩ := h.read row (List.mem_of_find?_eq_some hfind)
      obtain ⟨seen, rfl⟩ := hbefore
      obtain ⟨remaining, hremaining⟩ := hdone
      have hsplit : rest = seen ++ remaining := by
        rw [List.append_assoc] at hremaining
        exact (List.append_cancel_left hremaining).symm
      subst hsplit
      obtain ⟨reached, hreached⟩ := hrest.exists_middle
      have hcopy := tables_eq_replay (fun step hstep =>
        houtcomes step (List.mem_append_left _ hstep)) hreached hstored
        fun step hstep => hsince step (List.mem_append_left _ hstep)
      have hwhole : tablesAfter (opened ++ seen) = reached :=
        (follows_append hopened hreached).tablesAfter
      rw [givenTo_append, List.map_append]
      refine replay_catch_up _ _ ?_
      rw [← hcopy, ← hwhole, ← hkey, hrecord, Reading.records, hkey, hfind]
      rfl

end CatchUp

/-- A finished bootstrap has every entity its cursor covers, each once; and where the account's operations since the cursor are canonical, replaying their changes over the pages gives exactly the tables. -/
theorem bootstrap_catches_up (env : Env) (events : List SnapshotEvent) (reading : Reading)
    (hreading : ((snapshots env).run .initial events).reading = some reading)
    (hfinished : reading.finished = true) :
    SnapshotSound reading ((snapshots env).run .initial events).db.entities ∧
      (reading.CanonicalAfter env ((snapshots env).trace .initial events) →
        replay ((reading.changesAfter ((snapshots env).trace .initial events)).map ChangeRow.edit)
            reading.records =
          tableRecords env ((snapshots env).run .initial events).db.entities reading.userId) := by
  have hstate := downloading_run env events
  obtain ⟨opened, hsound⟩ := hstate.reading reading hreading
  exact ⟨hsound.snapshotSound hfinished, hsound.caughtUp hstate hfinished⟩

/-! ### Pages and writes in turn -/

/-- A list and a task on two pages of one row, and in between an operation. -/
def pagesAround (op : Mutation) : List SnapshotEvent :=
  [ .server ⟨1000⟩ (.signUp phone.userId),
    .server ⟨1000⟩ (.signIn phone),
    .server ⟨1000⟩ (phoneRequest [createGroceries, createMilk]),
    .openSnapshot ⟨1000⟩ phone.userId (some 1),
    .readPage none 0 900,
    .server ⟨1500⟩ (phoneRequest [op]),
    .readPage (some 1) 0 900 ]

def deleteGroceries : Mutation where
  opId := ⟨6⟩
  clientSeq := 3
  entity := .list
  entityId := ⟨10⟩
  kind := .delete
  patch := .obj []

/-- The list is deleted after its page was read; the pages with that change are the tables. -/
theorem bootstrap_catches_up_deleted : ∃ reading,
    ((snapshots Env.utc).run .initial (pagesAround deleteGroceries)).reading = some reading ∧
      SnapshotSound reading
        ((snapshots Env.utc).run .initial (pagesAround deleteGroceries)).db.entities ∧
      replay ((reading.changesAfter
          ((snapshots Env.utc).trace .initial (pagesAround deleteGroceries))).map ChangeRow.edit)
          reading.records =
        tableRecords Env.utc
          ((snapshots Env.utc).run .initial (pagesAround deleteGroceries)).db.entities
          reading.userId := by
  have hfinished : ((snapshots Env.utc).run .initial (pagesAround deleteGroceries)).reading.any
      (fun reading => reading.finished && reading.position.cursor == 2) = true := by
    decide +kernel
  have hops : ((snapshots Env.utc).trace .initial (pagesAround deleteGroceries)).all (fun step =>
      decide (step.before.nextServerSeq ≤ 2) || step.mutation.kind == .delete) = true := by
    decide +kernel
  cases hreading : ((snapshots Env.utc).run .initial (pagesAround deleteGroceries)).reading with
  | none => simp [hreading] at hfinished
  | some reading =>
      simp only [hreading, Option.any_some, Bool.and_eq_true, beq_iff_eq] at hfinished
      obtain ⟨hsound, hcaughtUp⟩ := bootstrap_catches_up Env.utc (pagesAround deleteGroceries)
        reading hreading hfinished.1
      refine ⟨reading, rfl, hsound, hcaughtUp fun step hstep _ _ hafter => ?_⟩
      have hop := List.all_eq_true.mp hops step hstep
      rw [hfinished.2] at hafter
      simp only [Bool.or_eq_true, decide_eq_true_eq, beq_iff_eq] at hop
      have hdelete : step.mutation.kind = .delete := hop.resolve_left (by omega)
      unfold CanonicalOp
      split <;> simp [EntityView.Canonical, hdelete]

/-- The task is moved in capitals after the snapshot was opened; the change that is replayed keeps them. -/
theorem bootstrap_capitals_diverge :
    ¬ ∀ (env : Env) (events : List SnapshotEvent) (reading : Reading),
      ((snapshots env).run .initial events).reading = some reading → reading.finished = true →
        SnapshotSound reading ((snapshots env).run .initial events).db.entities ∧
          replay ((reading.changesAfter ((snapshots env).trace .initial events)).map ChangeRow.edit)
              reading.records =
            tableRecords env ((snapshots env).run .initial events).db.entities reading.userId := by
  intro hall
  have hdiverges : ((snapshots Env.utc).run .initial (pagesAround moveMilk)).reading.any
      (fun reading => reading.finished &&
        decide (((replay ((reading.changesAfter
            ((snapshots Env.utc).trace .initial (pagesAround moveMilk))).map ChangeRow.edit)
              reading.records (.task, ⟨5⟩)).bind fun record => record.fields "list_id") ≠
          (tableRecords Env.utc
            ((snapshots Env.utc).run .initial (pagesAround moveMilk)).db.entities reading.userId
              (.task, ⟨5⟩)).bind fun record => record.fields "list_id")) = true := by
    decide +kernel
  cases hreading : ((snapshots Env.utc).run .initial (pagesAround moveMilk)).reading with
  | none => simp [hreading] at hdiverges
  | some reading =>
      simp only [hreading, Option.any_some, Bool.and_eq_true, decide_eq_true_eq] at hdiverges
      obtain ⟨hfinished, hne⟩ := hdiverges
      have hsame := (hall Env.utc (pagesAround moveMilk) reading hreading hfinished).2
      rw [hsame] at hne
      exact hne rfl

end ShishiTodo
