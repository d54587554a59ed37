import ShishiTodo.Native.Explained
import ShishiTodo.Native.Snapshots

/-!
# Bundles

`import_data` as one loop over the rows of a bundle, lists first. A bundle with a defect is refused as a whole; a bundle that is taken leaves each of its rows in its place, once, and the rows it does not name as they are.
-/

namespace ShishiTodo.Native

open Lib

/-! ### Checks before the transaction -/

theorem mapM_ok {α β : Type} {check : α → StoreResult β} :
    ∀ {items : List α} {results : List β}, items.mapM check = .ok results →
      List.Forall₂ (fun item result => check item = .ok result) items results
  | [], results, h => by
      cases h
      exact .nil
  | item :: rest, results, h => by
      rw [List.mapM_cons] at h
      obtain ⟨first, hfirst, h⟩ := bind_eq_ok_iff.mp h
      obtain ⟨others, hothers, h⟩ := bind_eq_ok_iff.mp h
      cases h
      exact .cons hfirst (mapM_ok hothers)

theorem mapM_succeeds {α β : Type} {check : α → StoreResult β} {items : List α}
    (h : ∀ item ∈ items, ∃ result, check item = .ok result) : ∃ results, items.mapM check = .ok results := by
  induction items with
  | nil => exact ⟨[], rfl⟩
  | cons item rest ih =>
      obtain ⟨first, hfirst⟩ := h item List.mem_cons_self
      obtain ⟨others, hothers⟩ := ih fun other hother => h other (List.mem_cons_of_mem item hother)
      exact ⟨first :: others, by rw [List.mapM_cons, hfirst, ok_bind, hothers]; rfl⟩

theorem exists_of_forall₂ {α β : Type} {R : α → β → Prop} {items : List α} {results : List β}
    (h : List.Forall₂ R items results) : ∀ item ∈ items, ∃ result ∈ results, R item result := by
  induction h with
  | nil => exact fun item hitem => nomatch hitem
  | cons hfirst hrest ih =>
      intro item hitem
      rcases List.mem_cons.mp hitem with rfl | hmem
      · exact ⟨_, List.mem_cons_self, hfirst⟩
      · obtain ⟨result, hresult, hrelated⟩ := ih item hmem
        exact ⟨result, List.mem_cons_of_mem _ hresult, hrelated⟩

theorem checkUnique_ok_iff {kind : String} {done : Unit} :
    ∀ {ids seen : List String}, checkUnique kind seen ids = .ok done ↔ ids.Nodup ∧ ∀ id ∈ ids, id ∉ seen
  | [], seen => by simp [checkUnique]
  | id :: rest, seen => by
      rw [checkUnique, bind_eq_ok_iff]
      simp only [refuseIf_eq_ok_iff, checkUnique_ok_iff, List.nodup_cons, List.mem_cons, not_or]
      constructor
      · rintro ⟨-, hnew, hnodup, hrest⟩
        refine ⟨⟨fun hmem => (hrest id hmem).1 rfl, hnodup⟩, ?_⟩
        rintro other (rfl | hother)
        · exact hnew
        · exact (hrest other hother).2
      · rintro ⟨⟨hnotin, hnodup⟩, hseen⟩
        refine ⟨(), hseen id (.inl rfl), hnodup, fun other hother => ⟨?_, hseen other (.inr hother)⟩⟩
        rintro rfl
        exact hnotin hother

/-- What `import_data` checks before it writes anything. -/
structure ExportBundle.Sound (bundle : ExportBundle) : Prop where
  format : bundle.format = "todo-export" ∧ bundle.version = 1
  names : ∀ list ∈ bundle.lists, ∃ name, cleanListName list.name = .ok name
  titles : ∀ task ∈ bundle.tasks, ∃ title, cleanTitle task.title = .ok title
  listIds : (bundle.lists.map TaskList.id).Nodup
  taskIds : (bundle.tasks.map Task.id).Nodup
  stepIds : (bundle.steps.map Step.id).Nodup
  planIds : (bundle.dayPlans.map DayPlan.id).Nodup

theorem validateUniqueImportIds_ok_iff {bundle : ExportBundle} {done : Unit} :
    validateUniqueImportIds bundle = .ok done ↔
      (bundle.lists.map TaskList.id).Nodup ∧ (bundle.tasks.map Task.id).Nodup ∧
        (bundle.steps.map Step.id).Nodup ∧ (bundle.dayPlans.map DayPlan.id).Nodup := by
  simp [validateUniqueImportIds, bind_eq_ok_iff, checkUnique_ok_iff]

/-- No two rows of the bundle have one key. -/
theorem ExportBundle.Sound.nodup_keys {bundle : ExportBundle} (h : bundle.Sound) :
    (bundle.rows.map Row.key).Nodup := by
  have hone : ∀ {α : Type} (items : List α) (rowOf : α → Row) (entity : EntityType) (idOf : α → String),
      (∀ item, (rowOf item).key = (entity, idOf item)) → (items.map idOf).Nodup →
      ((items.map rowOf).map Row.key).Nodup ∧ ∀ key ∈ (items.map rowOf).map Row.key, key.1 = entity := by
    intro α items rowOf entity idOf hkey hids
    have hkeys : (items.map rowOf).map Row.key = (items.map idOf).map fun id => (entity, id) := by
      rw [List.map_map, List.map_map]
      exact List.map_congr_left fun item _ => hkey item
    rw [hkeys]
    refine ⟨hids.map fun _ _ heq => (Prod.mk.inj heq).2, fun key hmem => ?_⟩
    obtain ⟨id, -, rfl⟩ := List.mem_map.mp hmem
    rfl
  obtain ⟨hlists, hlistKeys⟩ := hone bundle.lists .list .list TaskList.id (fun _ => rfl) h.listIds
  obtain ⟨htasks, htaskKeys⟩ := hone bundle.tasks .task .task Task.id (fun _ => rfl) h.taskIds
  obtain ⟨hsteps, hstepKeys⟩ := hone bundle.steps .step .step Step.id (fun _ => rfl) h.stepIds
  obtain ⟨hplans, hplanKeys⟩ := hone bundle.dayPlans .dayPlan .dayPlan DayPlan.id (fun _ => rfl) h.planIds
  have hapart : ∀ {left right : EntityType} {first second : List RowKey}, left ≠ right →
      (∀ key ∈ first, key.1 = left) → (∀ key ∈ second, key.1 = right) →
      ∀ key ∈ first, ∀ other ∈ second, key ≠ other := by
    rintro left right first second hne hfirst hsecond key hkey other hother rfl
    exact hne ((hfirst key hkey).symm.trans (hsecond key hother))
  rw [ExportBundle.rows, List.map_append, List.map_append, List.map_append]
  refine List.nodup_append.mpr ⟨List.nodup_append.mpr ⟨List.nodup_append.mpr ⟨hlists, htasks, ?_⟩, hsteps, ?_⟩,
    hplans, ?_⟩
  · exact hapart (by decide) hlistKeys htaskKeys
  · intro key hkey
    rcases List.mem_append.mp hkey with hkey | hkey
    · exact hapart (by decide) hlistKeys hstepKeys key hkey
    · exact hapart (by decide) htaskKeys hstepKeys key hkey
  · intro key hkey
    rcases List.mem_append.mp hkey with hkey | hkey
    · rcases List.mem_append.mp hkey with hkey | hkey
      · exact hapart (by decide) hlistKeys hplanKeys key hkey
      · exact hapart (by decide) htaskKeys hplanKeys key hkey
    · exact hapart (by decide) hstepKeys hplanKeys key hkey

/-! ### The loop -/

section

variable (texts : Texts) (supply : Supply)

/-- The row as the import writes it. -/
def storedRow : Row → StoreResult Row
  | .task task => do
      let tags ← normalizeTags texts task.tags
      return .task { task with tags := tags }
  | row => .ok row

def importItem (tx : Tx) (row : Row) : StoreResult Tx := do
  let row ← storedRow texts row
  importRow supply tx row

variable {texts supply} {store : Store} {bundle : ExportBundle} {mode : ImportMode} {tx : Tx}

theorem storedRow_key {row stored : Row} (h : storedRow texts row = .ok stored) : stored.key = row.key := by
  cases row with
  | task task =>
      obtain ⟨tags, -, h⟩ := bind_eq_ok_iff.mp h
      cases h
      rfl
  | list list =>
      cases h
      rfl
  | step step =>
      cases h
      rfl
  | dayPlan plan =>
      cases h
      rfl

theorem foldlM_rows {items : List Row} (hitems : ∀ row ∈ items, storedRow texts row = .ok row) (tx : Tx) :
    items.foldlM (importRow supply) tx = items.foldlM (importItem texts supply) tx := by
  induction items generalizing tx with
  | nil => rfl
  | cons row rest ih =>
      have hrow : importItem texts supply tx row = importRow supply tx row := by
        rw [importItem, hitems row List.mem_cons_self]
        rfl
      rw [List.foldlM_cons, List.foldlM_cons, hrow]
      congr 1
      funext next
      exact ih (fun other hother => hitems other (List.mem_cons_of_mem row hother)) next

/-- A bundle is imported when it passes the checks and its rows are taken one after another. -/
theorem importData_ok_iff : importData texts supply store bundle mode = .ok tx ↔
    bundle.Sound ∧ bundle.rows.foldlM (importItem texts supply) (importStart store mode).begin = .ok tx := by
  have htasks : ∀ tx : Tx, bundle.tasks.foldlM (importTask texts supply) tx =
      (bundle.tasks.map Row.task).foldlM (importItem texts supply) tx := fun tx => by
    rw [List.foldlM_map]
    congr 1
    funext tx task
    rw [importItem, storedRow, bind_assoc]
    rfl
  have hlists : ∀ tx : Tx, (bundle.lists.map Row.list).foldlM (importRow supply) tx =
      (bundle.lists.map Row.list).foldlM (importItem texts supply) tx := foldlM_rows fun row hrow => by
    obtain ⟨list, -, rfl⟩ := List.mem_map.mp hrow
    rfl
  have hsteps : ∀ tx : Tx, (bundle.steps.map Row.step).foldlM (importRow supply) tx =
      (bundle.steps.map Row.step).foldlM (importItem texts supply) tx := foldlM_rows fun row hrow => by
    obtain ⟨step, -, rfl⟩ := List.mem_map.mp hrow
    rfl
  have hplans : ∀ tx : Tx, (bundle.dayPlans.map Row.dayPlan).foldlM (importRow supply) tx =
      (bundle.dayPlans.map Row.dayPlan).foldlM (importItem texts supply) tx := foldlM_rows fun row hrow => by
    obtain ⟨plan, -, rfl⟩ := List.mem_map.mp hrow
    rfl
  have hrows : bundle.rows.foldlM (importItem texts supply) (importStart store mode).begin = (do
      let tx ← (bundle.lists.map Row.list).foldlM (importRow supply) (importStart store mode).begin
      let tx ← bundle.tasks.foldlM (importTask texts supply) tx
      let tx ← (bundle.steps.map Row.step).foldlM (importRow supply) tx
      (bundle.dayPlans.map Row.dayPlan).foldlM (importRow supply) tx) := by
    rw [ExportBundle.rows, List.foldlM_append, List.foldlM_append, List.foldlM_append]
    simp only [hlists, htasks, hsteps, hplans, bind_assoc]
  rw [hrows]
  constructor
  · intro h
    obtain ⟨_, hformat, h⟩ := bind_eq_ok_iff.mp h
    obtain ⟨names, hnames, h⟩ := bind_eq_ok_iff.mp h
    obtain ⟨titles, htitles, h⟩ := bind_eq_ok_iff.mp h
    obtain ⟨_, hunique, h⟩ := bind_eq_ok_iff.mp h
    rw [refuseIf_eq_ok_iff, not_or, not_not, not_not] at hformat
    obtain ⟨hlistIds, htaskIds, hstepIds, hplanIds⟩ := validateUniqueImportIds_ok_iff.mp hunique
    refine ⟨⟨hformat, fun list hlist => ?_, fun task htask => ?_, hlistIds, htaskIds, hstepIds, hplanIds⟩, h⟩
    · obtain ⟨name, -, hname⟩ := exists_of_forall₂ (mapM_ok hnames) list hlist
      exact ⟨name, hname⟩
    · obtain ⟨title, -, htitle⟩ := exists_of_forall₂ (mapM_ok htitles) task htask
      exact ⟨title, htitle⟩
  · rintro ⟨hsound, h⟩
    obtain ⟨names, hnames⟩ := mapM_succeeds hsound.names
    obtain ⟨titles, htitles⟩ := mapM_succeeds hsound.titles
    refine bind_eq_ok_iff.mpr ⟨(), ?_, bind_eq_ok_iff.mpr ⟨names, hnames, bind_eq_ok_iff.mpr ⟨titles, htitles,
      bind_eq_ok_iff.mpr ⟨(), ?_, h⟩⟩⟩⟩
    · rw [refuseIf_eq_ok_iff, not_or, not_not, not_not]
      exact hsound.format
    · exact validateUniqueImportIds_ok_iff.mpr ⟨hsound.listIds, hsound.taskIds, hsound.stepIds, hsound.planIds⟩

/-- What the loop leaves: each row as it is stored, over the rows that stood before. -/
theorem importItems_ok {rows : List Row} {after : Tx} (h : rows.foldlM (importItem texts supply) tx = .ok after) :
    ∃ stored, List.Forall₂ (fun row kept => storedRow texts row = .ok kept) rows stored ∧
      after.tables = stored.foldl Tables.put tx.tables := by
  induction rows generalizing tx with
  | nil =>
      cases h
      exact ⟨[], .nil, rfl⟩
  | cons row rest ih =>
      rw [List.foldlM_cons] at h
      obtain ⟨next, hnext, h⟩ := bind_eq_ok_iff.mp h
      obtain ⟨kept, hkept, hsave⟩ := bind_eq_ok_iff.mp hnext
      obtain ⟨-, hconsistent, rfl⟩ := Tx.save_ok hsave
      obtain ⟨stored, hstored, hafter⟩ := ih h
      exact ⟨kept :: stored, .cons hkept hstored, hafter⟩

/-- The keys of the rows as they are stored. -/
theorem keys_stored {rows stored : List Row}
    (h : List.Forall₂ (fun row kept => storedRow texts row = .ok kept) rows stored) :
    stored.map Row.key = rows.map Row.key := by
  induction h with
  | nil => rfl
  | cons hrow hrest ih => rw [List.map_cons, List.map_cons, storedRow_key hrow, ih]

/-- Where no two rows have one key, each of them stands under its own. -/
theorem find_foldl_put_of_mem {stored : List Row} (hnodup : (stored.map Row.key).Nodup) (tables : Tables)
    {row : Row} (hrow : row ∈ stored) : (stored.foldl Tables.put tables).find row.key = some row := by
  rw [Tables.find_foldl_put]
  cases hfound : stored.reverse.find? fun other => other.key = row.key with
  | none =>
      have hnone := List.find?_eq_none.mp hfound row (List.mem_reverse.mpr hrow)
      exact absurd (decide_eq_true rfl) hnone
  | some found =>
      have hkey : found.key = row.key := by simpa using List.find?_some hfound
      have hmem := List.mem_reverse.mp (List.mem_of_find?_eq_some hfound)
      rw [List.inj_on_of_nodup_map hnodup hmem hrow hkey]
      rfl

theorem find_foldl_put_of_notMem {stored : List Row} (tables : Tables) {key : RowKey}
    (hkey : key ∉ stored.map Row.key) : (stored.foldl Tables.put tables).find key = tables.find key := by
  rw [Tables.find_foldl_put]
  cases hfound : stored.reverse.find? fun other => other.key = key with
  | none => rfl
  | some found =>
      have hfoundKey : found.key = key := by simpa using List.find?_some hfound
      have hmem := List.mem_reverse.mp (List.mem_of_find?_eq_some hfound)
      exact absurd (List.mem_map.mpr ⟨found, hmem, hfoundKey⟩) hkey

/-- After an import each row of the bundle stands as it is stored, and the others stand as before. -/
theorem importData_find (h : importData texts supply store bundle mode = .ok tx) :
    (∀ row ∈ bundle.rows, ∃ stored, storedRow texts row = .ok stored ∧
      tx.store.find row.key = some stored) ∧
    ∀ key, key ∉ bundle.rows.map Row.key → tx.store.find key = (importStart store mode).find key := by
  obtain ⟨hsound, hloop⟩ := importData_ok_iff.mp h
  obtain ⟨stored, hstored, htables⟩ := importItems_ok hloop
  have hkeys := keys_stored hstored
  have hnodup : (stored.map Row.key).Nodup := by
    rw [hkeys]
    exact hsound.nodup_keys
  have hfind : ∀ key, tx.store.find key = (stored.foldl Tables.put (importStart store mode).rows.val).find key :=
    fun key => congrArg (fun tables : Tables => tables.find key) htables
  refine ⟨fun row hrow => ?_, fun key hkey => ?_⟩
  · obtain ⟨kept, hkept, hrelated⟩ := exists_of_forall₂ hstored row hrow
    refine ⟨kept, hrelated, ?_⟩
    rw [hfind, ← storedRow_key hrelated]
    exact find_foldl_put_of_mem hnodup _ hkept
  · rw [hfind, find_foldl_put_of_notMem]
    · rfl
    · rwa [hkeys]

end

/-! ### All or nothing -/

/-- What a bundle is refused for, against the rows that it is imported over. -/
inductive Defect (texts : Texts) (start : Store) (bundle : ExportBundle) : Prop where
  | format (h : bundle.format ≠ "todo-export" ∨ bundle.version ≠ 1)
  | name (list : TaskList) (hlist : list ∈ bundle.lists) (h : (cleanSingleLine list.name 120).isEmpty)
  | title (task : Task) (htask : task ∈ bundle.tasks) (h : (cleanSingleLine task.title 1000).isEmpty)
  | tags (task : Task) (error : StoreError) (htask : task ∈ bundle.tasks)
      (h : normalizeTags texts task.tags = .error error)
  | repeatedList (h : ¬ (bundle.lists.map TaskList.id).Nodup)
  | repeatedTask (h : ¬ (bundle.tasks.map Task.id).Nodup)
  | repeatedStep (h : ¬ (bundle.steps.map Step.id).Nodup)
  | repeatedPlan (h : ¬ (bundle.dayPlans.map DayPlan.id).Nodup)
  | listMissing (task : Task) (listId : String) (htask : task ∈ bundle.tasks) (hlist : task.listId = some listId)
      (hbundle : listId ∉ bundle.lists.map TaskList.id) (hstart : start.find (.list, listId) = none)
  | taskOfStepMissing (step : Step) (hstep : step ∈ bundle.steps)
      (hbundle : step.taskId ∉ bundle.tasks.map Task.id) (hstart : start.find (.task, step.taskId) = none)
  | taskOfPlanMissing (plan : DayPlan) (hplan : plan ∈ bundle.dayPlans)
      (hbundle : plan.taskId ∉ bundle.tasks.map Task.id) (hstart : start.find (.task, plan.taskId) = none)
  | slotTwice (plan other : DayPlan) (hplan : plan ∈ bundle.dayPlans) (hother : other ∈ bundle.dayPlans)
      (hids : other.id ≠ plan.id) (htask : other.taskId = plan.taskId) (hdate : other.localDate = plan.localDate)
  | slotTaken (plan taken : DayPlan) (hplan : plan ∈ bundle.dayPlans)
      (hstart : start.find (.dayPlan, taken.id) = some (.dayPlan taken))
      (hbundle : taken.id ∉ bundle.dayPlans.map DayPlan.id) (htask : taken.taskId = plan.taskId)
      (hdate : taken.localDate = plan.localDate)

section

variable {texts : Texts} {supply : Supply} {store : Store} {bundle : ExportBundle} {mode : ImportMode} {tx : Tx}

theorem mem_bundle_keys {entity : EntityType} {id : String} : (entity, id) ∈ bundle.rows.map Row.key ↔
    match entity with
    | .list => id ∈ bundle.lists.map TaskList.id
    | .task => id ∈ bundle.tasks.map Task.id
    | .step => id ∈ bundle.steps.map Step.id
    | .dayPlan => id ∈ bundle.dayPlans.map DayPlan.id := by
  cases entity <;> simp [ExportBundle.rows, Row.key, Row.entity, Row.id]

/-- A bundle that was taken has none of the defects. -/
theorem not_defect_of_imported (h : importData texts supply store bundle mode = .ok tx) :
    ¬ Defect texts (importStart store mode) bundle := by
  obtain ⟨hsound, -⟩ := importData_ok_iff.mp h
  obtain ⟨hstored, hkept⟩ := importData_find h
  have hrow : ∀ row ∈ bundle.rows, (∀ task, row ≠ .task task) → tx.store.find row.key = some row := by
    intro row hmem hother
    obtain ⟨stored, hrelated, hfind⟩ := hstored row hmem
    cases row with
    | task task => exact absurd rfl (hother task)
    | list list =>
        cases hrelated
        exact hfind
    | step step =>
        cases hrelated
        exact hfind
    | dayPlan plan =>
        cases hrelated
        exact hfind
  have hplan : ∀ plan ∈ bundle.dayPlans, tx.store.rows.val.dayPlans.lookup plan.id = some plan := by
    intro plan hmem
    have hfind := hrow (.dayPlan plan) (by simp [ExportBundle.rows, hmem]) (fun _ h => by cases h)
    exact Option.map_injective (fun _ _ => Row.dayPlan.inj) hfind
  have hunnamed : ∀ {entity : EntityType} {id : String}, (entity, id) ∉ bundle.rows.map Row.key →
      (importStart store mode).find (entity, id) = none → tx.store.find (entity, id) = none :=
    fun hnamed hnone => (hkept _ hnamed).trans hnone
  intro hdefect
  cases hdefect with
  | format hformat => exact hformat.elim (fun hne => hne hsound.format.1) (fun hne => hne hsound.format.2)
  | name list hlist hblank =>
      obtain ⟨name, hname⟩ := hsound.names list hlist
      obtain ⟨_, hfilled, -⟩ := bind_eq_ok_iff.mp hname
      exact refuseIf_eq_ok_iff.mp hfilled hblank
  | title task htask hblank =>
      obtain ⟨title, htitle⟩ := hsound.titles task htask
      obtain ⟨_, hfilled, -⟩ := bind_eq_ok_iff.mp htitle
      exact refuseIf_eq_ok_iff.mp hfilled hblank
  | tags task error htask htags =>
      obtain ⟨stored, hrelated, -⟩ := hstored (.task task) (by simp [ExportBundle.rows, htask])
      obtain ⟨tags, hnormal, -⟩ := bind_eq_ok_iff.mp hrelated
      rw [htags] at hnormal
      cases hnormal
  | repeatedList hrepeated => exact hrepeated hsound.listIds
  | repeatedTask hrepeated => exact hrepeated hsound.taskIds
  | repeatedStep hrepeated => exact hrepeated hsound.stepIds
  | repeatedPlan hrepeated => exact hrepeated hsound.planIds
  | listMissing task listId htask hlist hbundle hstart =>
      obtain ⟨stored, hrelated, hfind⟩ := hstored (.task task) (by simp [ExportBundle.rows, htask])
      obtain ⟨tags, -, hdone⟩ := bind_eq_ok_iff.mp hrelated
      cases hdone
      obtain ⟨found, hlookup, hfound⟩ := Option.map_eq_some_iff.mp hfind
      cases hfound
      have hparent := tx.store.rows.property.listOf _ _ hlookup listId hlist
      have hnamed : (EntityType.list, listId) ∉ bundle.rows.map Row.key := fun hmem => hbundle (mem_bundle_keys.mp hmem)
      rw [Option.map_eq_none_iff.mp (hunnamed hnamed hstart)] at hparent
      cases hparent
  | taskOfStepMissing step hstep hbundle hstart =>
      have hfind := hrow (.step step) (by simp [ExportBundle.rows, hstep]) (fun _ h => by cases h)
      obtain ⟨found, hlookup, hfound⟩ := Option.map_eq_some_iff.mp hfind
      cases hfound
      have hparent := tx.store.rows.property.taskOfStep _ _ hlookup
      have hnamed : (EntityType.task, step.taskId) ∉ bundle.rows.map Row.key :=
        fun hmem => hbundle (mem_bundle_keys.mp hmem)
      rw [Option.map_eq_none_iff.mp (hunnamed hnamed hstart)] at hparent
      cases hparent
  | taskOfPlanMissing plan hmem hbundle hstart =>
      have hparent := tx.store.rows.property.taskOfPlan _ _ (hplan plan hmem)
      have hnamed : (EntityType.task, plan.taskId) ∉ bundle.rows.map Row.key :=
        fun hmem => hbundle (mem_bundle_keys.mp hmem)
      rw [Option.map_eq_none_iff.mp (hunnamed hnamed hstart)] at hparent
      cases hparent
  | slotTwice plan other hmem hother hids htask hdate =>
      exact hids (tx.store.rows.property.slot _ _ (hplan plan hmem) _ _ (hplan other hother) htask hdate)
  | slotTaken plan taken hmem hstart hbundle htask hdate =>
      have hfind := (hkept (.dayPlan, taken.id) (mt mem_bundle_keys.mp hbundle)).trans hstart
      have hlookup : tx.store.rows.val.dayPlans.lookup taken.id = some taken :=
        Option.map_injective (fun _ _ => Row.dayPlan.inj) hfind
      have hid := tx.store.rows.property.slot _ _ (hplan plan hmem) _ _ hlookup htask hdate
      exact hbundle (hid ▸ List.mem_map_of_mem hmem)

/-- A row that is found stands in the tables once. -/
theorem rows_filter_key {tables : Tables} (h : tables.Keyed) {row : Row} (hfind : tables.find row.key = some row) :
    (tables.rows.filter fun other => other.key = row.key) = [row] := by
  apply List.perm_singleton.mp
  refine (List.perm_ext_iff_of_nodup ((Tables.nodup_rows h).filter _) (List.nodup_singleton row)).mpr fun other => ?_
  rw [List.mem_filter, Tables.mem_rows h, List.mem_singleton, decide_eq_true_eq]
  constructor
  · rintro ⟨hother, hkey⟩
    rw [hkey, hfind] at hother
    exact (Option.some.inj hother).symm
  · rintro rfl
    exact ⟨hfind, rfl⟩

end

/-- An import that fails leaves the store as it was, and a bundle with a defect makes it fail; a bundle that is merged stands row by row in the tables, each row once, and the other rows as before. -/
theorem import_all_or_nothing (texts : Texts) (supply : Supply) (store : Store) (bundle : ExportBundle)
    (mode : ImportMode) :
    (Defect texts (importStart store mode) bundle →
      ∃ error, importData texts supply store bundle mode = .error error) ∧
    (∀ error, importData texts supply store bundle mode = .error error →
      (localRuns texts).step store ⟨.importData bundle mode, supply⟩ = store ∧
        (localRuns texts).emit store ⟨.importData bundle mode, supply⟩ = []) ∧
    ∀ tx, mode = .merge → importData texts supply store bundle mode = .ok tx →
      (localRuns texts).step store ⟨.importData bundle mode, supply⟩ = tx.store ∧
        (∀ key, key ∉ bundle.rows.map Row.key → tx.store.find key = store.find key) ∧
        ∀ row ∈ bundle.rows, ∃ stored, storedRow texts row = .ok stored ∧
          (tx.store.rows.val.rows.filter fun other => other.key = row.key) = [stored] := by
  refine ⟨fun hdefect => ?_, fun error herror => ?_, ?_⟩
  · cases h : importData texts supply store bundle mode with
    | error error => exact ⟨error, rfl⟩
    | ok tx => exact absurd hdefect (not_defect_of_imported h)
  · simp only [localRuns, Request.perform, LocalOp.perform, herror, and_self]
  · rintro tx rfl h
    obtain ⟨hstored, hkept⟩ := importData_find h
    refine ⟨?_, hkept, fun row hrow => ?_⟩
    · simp only [localRuns, Request.perform, LocalOp.perform, h]
    · obtain ⟨stored, hrelated, hfind⟩ := hstored row hrow
      refine ⟨stored, hrelated, ?_⟩
      rw [← storedRow_key hrelated] at hfind ⊢
      exact rows_filter_key tx.store.rows.property.keyed hfind

end ShishiTodo.Native
