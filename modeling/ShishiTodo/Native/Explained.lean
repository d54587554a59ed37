import ShishiTodo.Native.Runs
import ShishiTodo.Native.Agreement
import ShishiTodo.Native.Upsert

/-!
# What the outbox says about the rows

Every operation of the store writes rows and appends mutations side by side. This module asks whether the mutations, replayed as the projection replays them, give the rows that were written: operation by operation, then along runs.
-/

namespace ShishiTodo.Native

open Lib

/-! ### The two readings of one write -/

def Tables.dataAt (tables : Tables) (key : RowKey) : Option Data := (tables.find key).map Row.data

def Store.dataAt (store : Store) : RowKey → Option Data := store.rows.val.dataAt

/-- A mutation of a new row, a patch of the row before, its deletion or its restoration; the row written is what it says. -/
def Describes (mutation : OutboxRow) (before : Option Row) (row : Row) : Prop :=
  match mutation.kind, before with
  | .create, _ =>
      (∀ field ∈ mutableFields row.entity, mutation.patch.lookup field = row.data.lookup field) ∧
        row.deletedAt.isSome = false
  | .patch, some old =>
      (∀ field ∈ mutableFields row.entity,
        (mutation.patch.lookup field).or (old.data.lookup field) = row.data.lookup field) ∧
        row.deletedAt.isSome = old.deletedAt.isSome
  | .delete, some old =>
      (∀ field ∈ mutableFields row.entity, old.data.lookup field = row.data.lookup field) ∧
        row.deletedAt.isSome = true
  | .restore, some old =>
      (∀ field ∈ mutableFields row.entity,
        (mutation.patch.lookup field).or (old.data.lookup field) = row.data.lookup field) ∧
        row.deletedAt.isSome = false
  | _, none => False

theorem Describes.agree {mutation : OutboxRow} {before : Option Row} {row : Row}
    (h : Describes mutation before row) (now : String) {base : Data}
    (hbase : ∀ old, before = some old → Agree row.entity base old.data) :
    Agree row.entity (applyMutationToData row.entity base mutation now) row.data := by
  have hold : ∀ old, before = some old → ∀ field ∈ mutableFields row.entity,
      base.lookup field = old.data.lookup field := fun old h => (hbase old h).fields
  constructor
  · intro field hfield
    rw [lookup_applyMutationToData_field hfield]
    unfold Describes at h
    split at h <;> simp_all
  · rw [tombstone_applyMutationToData, Row.tombstone_data]
    unfold Describes at h
    split at h
    · simp_all
    · rename_i old hkind
      rw [hkind]
      exact (hbase old rfl).tombstone.trans (old.tombstone_data.trans h.2.symm)
    · simp_all
    · simp_all
    · exact h.elim

theorem Tables.explains_put {tables : Tables} {row : Row} {mutation : OutboxRow} (now : String)
    (hkey : mutation.key = row.key) (h : Describes mutation (tables.find row.key) row) :
    (projection now).Explains [mutation] tables.dataAt (tables.put row).dataAt := by
  have hself : (tables.put row).dataAt row.key = some row.data := by
    rw [dataAt, find_put_self]
    rfl
  apply Journal.explains_write _ hkey hself
  · intro other hother
    rw [dataAt, dataAt, find_put_of_ne tables hother]
  · intro base hbase
    have hentity : mutation.entity = row.entity := congrArg Prod.fst hkey
    show Agree row.entity (applyMutationToData mutation.entity base mutation now) row.data
    rw [hentity]
    apply h.agree now
    intro old hold
    apply hbase
    rw [dataAt, hold]
    rfl

/-- The transaction so far is explained by what it has appended. -/
def Tx.Explained (now : String) (store : Store) (tx : Tx) : Prop :=
  (projection now).Explains tx.appended store.dataAt tx.store.dataAt

theorem Tx.explained_begin (now : String) (store : Store) : store.begin.Explained now store :=
  Journal.explains_nil _ _

section writes

variable {now : String} {store : Store} {tx after : Tx} {supply : Supply} {row : Row}
  {kind : MutationKind} {changes : Data}

theorem Tx.Explained.save (htx : tx.Explained now store)
    (hsave : tx.save supply row kind changes = .ok after)
    (h : Describes (tx.mutation supply row.key kind changes) (tx.tables.find row.key) row) :
    after.Explained now store := by
  obtain ⟨-, hconsistent, rfl⟩ := Tx.save_ok hsave
  exact Journal.explains_append _ htx (Tables.explains_put now rfl h)

theorem Tx.Explained.create (htx : tx.Explained now store) (hcreate : tx.create supply row = .ok after)
    (hlive : row.deletedAt = none) : after.Explained now store := by
  apply htx.save (Tx.create_ok hcreate).2
  refine ⟨fun _ _ => rfl, ?_⟩
  rw [hlive]
  rfl

theorem Tx.Explained.patch {old : Row} (htx : tx.Explained now store)
    (hsave : tx.save supply row .patch changes = .ok after) (hold : tx.tables.find row.key = some old)
    (hfields : ∀ field ∈ mutableFields row.entity,
      (changes.lookup field).or (old.data.lookup field) = row.data.lookup field)
    (hdeleted : row.deletedAt = old.deletedAt) : after.Explained now store := by
  apply htx.save hsave
  rw [hold]
  exact ⟨hfields, congrArg Option.isSome hdeleted⟩

theorem Tx.Explained.delete {old : Row} (htx : tx.Explained now store)
    (hsave : tx.save supply row .delete [] = .ok after) (hold : tx.tables.find row.key = some old)
    (hfields : ∀ field ∈ mutableFields row.entity, old.data.lookup field = row.data.lookup field)
    (hdeleted : row.deletedAt.isSome) : after.Explained now store := by
  apply htx.save hsave
  rw [hold]
  exact ⟨hfields, hdeleted⟩

theorem Tx.Explained.restore {old : Row} (htx : tx.Explained now store)
    (hsave : tx.save supply row .restore [] = .ok after) (hold : tx.tables.find row.key = some old)
    (hfields : ∀ field ∈ mutableFields row.entity, old.data.lookup field = row.data.lookup field)
    (hlive : row.deletedAt = none) : after.Explained now store := by
  apply htx.save hsave
  rw [hold]
  refine ⟨hfields, ?_⟩
  rw [hlive]
  rfl

end writes

/-! ### Rows in reach -/

theorem orNotFound_ok {α : Type} {row : Option α} {message : String} {found : α}
    (h : orNotFound row message = .ok found) : row = some found := by
  cases row with
  | none => cases h
  | some value => exact congrArg some (Except.ok.inj h)

/-- A list of the store that passes a test stands under its own id. -/
theorem Store.find_list {store : Store} {id : String} {test : TaskList → Bool} {list : TaskList}
    (h : (store.rows.val.lists.lookup id).filter test = some list) :
    list.id = id ∧ store.rows.val.find (Row.list list).key = some (.list list) ∧ test list = true := by
  rw [Option.filter_eq_some_iff] at h
  have hfind : store.find (.list, id) = some (.list list) := by
    rw [Store.find, Tables.find, h.1]
    rfl
  have hkey := Store.key_of_find hfind
  refine ⟨congrArg Prod.snd hkey, ?_, h.2⟩
  rw [hkey]
  exact hfind

theorem Store.find_task {store : Store} {id : String} {test : Task → Bool} {task : Task}
    (h : (store.rows.val.tasks.lookup id).filter test = some task) :
    task.id = id ∧ store.rows.val.find (Row.task task).key = some (.task task) ∧ test task = true := by
  rw [Option.filter_eq_some_iff] at h
  have hfind : store.find (.task, id) = some (.task task) := by
    rw [Store.find, Tables.find, h.1]
    rfl
  have hkey := Store.key_of_find hfind
  refine ⟨congrArg Prod.snd hkey, ?_, h.2⟩
  rw [hkey]
  exact hfind

theorem Store.find_of_mem_tasks {store : Store} {task : Task} (h : task ∈ store.rows.val.tasks.values) :
    store.rows.val.find (Row.task task).key = some (.task task) := by
  obtain ⟨id, hlookup⟩ := Table.mem_values_iff.mp h
  have hfilter : (store.rows.val.tasks.lookup id).filter (fun _ => true) = some task :=
    Option.filter_eq_some_iff.mpr ⟨hlookup, rfl⟩
  exact (Store.find_task hfilter).2.1

theorem Store.find_step {store : Store} {id : String} {test : Step → Bool} {step : Step}
    (h : (store.rows.val.steps.lookup id).filter test = some step) :
    step.id = id ∧ store.rows.val.find (Row.step step).key = some (.step step) ∧ test step = true := by
  rw [Option.filter_eq_some_iff] at h
  have hfind : store.find (.step, id) = some (.step step) := by
    rw [Store.find, Tables.find, h.1]
    rfl
  have hkey := Store.key_of_find hfind
  refine ⟨congrArg Prod.snd hkey, ?_, h.2⟩
  rw [hkey]
  exact hfind

theorem Store.find_dayPlan {store : Store} {plan : DayPlan} (h : plan ∈ store.rows.val.dayPlans.values) :
    store.rows.val.find (Row.dayPlan plan).key = some (.dayPlan plan) := by
  obtain ⟨id, hlookup⟩ := Table.mem_values_iff.mp h
  have hfind : store.find (.dayPlan, id) = some (.dayPlan plan) := by
    rw [Store.find, Tables.find, hlookup]
    rfl
  rw [Store.key_of_find hfind]
  exact hfind

/-! ### Fields of a patch -/

/-- Where no key comes twice, `present` keeps each field that is there. -/
theorem lookup_present {fields : List (String × Option Json)} (hnodup : (fields.map Prod.fst).Nodup)
    (key : String) : (present fields).lookup key = (fields.lookup key).join := by
  induction fields with
  | nil => rfl
  | cons field rest ih =>
      obtain ⟨name, value⟩ := field
      rw [List.map_cons, List.nodup_cons] at hnodup
      have habsent : rest.lookup name = none := by
        rw [List.lookup_eq_none_iff]
        intro other hother
        have hne : name ≠ other.1 := fun heq => hnodup.1 (List.mem_map.mpr ⟨other, hother, heq.symm⟩)
        simpa using hne
      cases value with
      | none =>
          rw [present, ih hnodup.2, List.lookup_cons]
          by_cases hkey : key = name
          · subst hkey
            simp [habsent]
          · simp [beq_false_of_ne hkey]
      | some value =>
          rw [present, Json.lookup_cons_eq_ite, List.lookup_cons, ih hnodup.2]
          by_cases hkey : key = name
          · subst hkey
            simp
          · simp [beq_false_of_ne hkey, hkey]

/-- The column after a patch is what the patch says, or what it was. -/
theorem patched_ok {α β : Type} {value : Option α} {current new : β} {check : α → StoreResult β}
    (h : patched value current check = .ok new) (render : β → Json) (spell : α → Json)
    (hspell : ∀ given, value = some given → check given = .ok new → spell given = render new) :
    (value.map spell).or (some (render current)) = some (render new) := by
  cases value with
  | none =>
      cases h
      rfl
  | some given => exact congrArg some (hspell given rfl h)

/-- The same, of a field that is logged as it was stored. -/
theorem patched_logged {α β γ : Type} {value : Option α} {current new : β} {check : α → StoreResult β}
    (h : patched value current check = .ok new) (render : β → Json) (spell : γ → Json) (logged : γ)
    (hspell : spell logged = render new) :
    ((value.map fun _ => logged).map spell).or (some (render current)) = some (render new) := by
  rw [Option.map_map]
  exact patched_ok h render _ fun _ _ _ => hspell

/-! ### Fields that an operation leaves alone -/

/-- Deleting and restoring change no mutable field. -/
theorem lookup_stamped_list (list : TaskList) (updatedAt : String) (deletedAt : Option String) :
    ∀ field ∈ mutableFields .list, list.data.lookup field =
      { list with updatedAt := updatedAt, deletedAt := deletedAt : TaskList }.data.lookup field :=
  forall_list_fields.mpr ⟨rfl, rfl, rfl, rfl⟩

theorem lookup_stamped_task (task : Task) (updatedAt : String) (deletedAt : Option String) :
    ∀ field ∈ mutableFields .task, task.data.lookup field =
      { task with updatedAt := updatedAt, deletedAt := deletedAt : Task }.data.lookup field :=
  forall_task_fields.mpr
    ⟨rfl, rfl, rfl, rfl, rfl, rfl, rfl, rfl, rfl, rfl, rfl, rfl, rfl, rfl⟩

theorem lookup_stamped_step (step : Step) (updatedAt : String) (deletedAt : Option String) :
    ∀ field ∈ mutableFields .step, step.data.lookup field =
      { step with updatedAt := updatedAt, deletedAt := deletedAt : Step }.data.lookup field :=
  forall_step_fields.mpr ⟨rfl, rfl, rfl, rfl⟩

theorem lookup_stamped_dayPlan (plan : DayPlan) (updatedAt : String) (deletedAt : Option String) :
    ∀ field ∈ mutableFields .dayPlan, plan.data.lookup field =
      { plan with updatedAt := updatedAt, deletedAt := deletedAt : DayPlan }.data.lookup field :=
  forall_dayPlan_fields.mpr ⟨rfl, rfl, rfl⟩

/-! ### The operations -/

theorem required_ok {α : Type} {value : Option α} {field : String} {given : α}
    (h : required value field = .ok given) : value = some given := by
  cases value with
  | none => cases h
  | some value => exact congrArg some (Except.ok.inj h)

theorem cleanListName_ok {value name : String} (h : cleanListName value = .ok name) :
    name = cleanSingleLine value 120 := by
  obtain ⟨_, -, hname⟩ := bind_eq_ok_iff.mp h
  exact (Except.ok.inj hname).symm

theorem cleanTitle_ok {value title : String} (h : cleanTitle value = .ok title) :
    title = cleanSingleLine value 1000 := by
  obtain ⟨_, -, htitle⟩ := bind_eq_ok_iff.mp h
  exact (Except.ok.inj htitle).symm

theorem validateRank_ok {value rank : String} (h : validateRank value = .ok rank) :
    rank = trim value := by
  obtain ⟨_, -, hrank⟩ := bind_eq_ok_iff.mp h
  exact (Except.ok.inj hrank).symm

/-- A required text that is clean already is stored as it came in. -/
theorem textJson_of_required {check : String → StoreResult String} {clean : String → String}
    (hcheck : ∀ {value stored}, check value = .ok stored → stored = clean value)
    {given : Option String} {field stored : String}
    (h : (required given field >>= check) = .ok stored)
    (hclean : ∀ text ∈ given, clean text = text) : textJson given = .str stored := by
  obtain ⟨text, htext, hstored⟩ := bind_eq_ok_iff.mp h
  have hgiven := required_ok htext
  rw [hgiven, hcheck hstored, hclean text hgiven]
  rfl

theorem validateOptionalText_of_clean {field : String} {value stored : Option String} {limit : Nat}
    (h : validateOptionalText field value limit = .ok stored)
    (hclean : ∀ text ∈ value, trim text = text ∧ text ≠ "") : stored = value := by
  cases value with
  | none => exact (Except.ok.inj h).symm
  | some text =>
      obtain ⟨htrim, hne⟩ := hclean text rfl
      obtain ⟨_, -, hstored⟩ := bind_eq_ok_iff.mp h
      rw [htrim, if_neg (by simpa using hne)] at hstored
      exact (Except.ok.inj hstored).symm


/-- The texts of the patch are stored as they came in. -/
def ListPatch.IsClean (patch : ListPatch) : Prop :=
  (∀ given ∈ patch.name, ∀ name ∈ given, cleanSingleLine name 120 = name) ∧
    (∀ given ∈ patch.color, ∀ color ∈ given, trim color = color ∧ color ≠ "") ∧
    (∀ given ∈ patch.icon, ∀ icon ∈ given, trim icon = icon ∧ icon ≠ "") ∧
    (∀ given ∈ patch.rank, ∀ rank ∈ given, trim rank = rank)

def StepPatch.IsClean (patch : StepPatch) : Prop :=
  (∀ given ∈ patch.title, ∀ title ∈ given, cleanSingleLine title 1000 = title) ∧
    (∀ given ∈ patch.rank, ∀ rank ∈ given, trim rank = rank)

section operations

variable {now : String} {texts : Texts} {supply : Supply} {store : Store} {tx : Tx}

theorem createList_explained {input : NewList} {list : TaskList}
    (h : createList supply store input = .ok (list, tx)) : tx.Explained now store := by
  obtain ⟨name, -, h⟩ := bind_eq_ok_iff.mp h
  obtain ⟨color, -, h⟩ := bind_eq_ok_iff.mp h
  obtain ⟨icon, -, h⟩ := bind_eq_ok_iff.mp h
  obtain ⟨created, hcreate, h⟩ := bind_eq_ok_iff.mp h
  cases h
  exact (Tx.explained_begin now store).create hcreate rfl

theorem patchList_explained {id : String} {patch : ListPatch} {list : TaskList}
    (h : patchList supply store id patch = .ok (list, tx)) (hclean : patch.IsClean) :
    tx.Explained now store := by
  obtain ⟨_, -, h⟩ := bind_eq_ok_iff.mp h
  obtain ⟨_, -, h⟩ := bind_eq_ok_iff.mp h
  obtain ⟨current, hcurrent, h⟩ := bind_eq_ok_iff.mp h
  obtain ⟨name, hname, h⟩ := bind_eq_ok_iff.mp h
  obtain ⟨color, hcolor, h⟩ := bind_eq_ok_iff.mp h
  obtain ⟨icon, hicon, h⟩ := bind_eq_ok_iff.mp h
  obtain ⟨rank, hrank, h⟩ := bind_eq_ok_iff.mp h
  obtain ⟨saved, hsave, h⟩ := bind_eq_ok_iff.mp h
  cases h
  obtain ⟨hcleanName, hcleanColor, hcleanIcon, hcleanRank⟩ := hclean
  obtain ⟨-, hfind, -⟩ := Store.find_list (orNotFound_ok hcurrent)
  apply (Tx.explained_begin now store).patch hsave hfind ?_ rfl
  rw [ListPatch.data]
  refine forall_list_fields.mpr ⟨?_, ?_, ?_, ?_⟩ <;> rw [lookup_present (by simp)]
  · exact patched_ok hname Json.str textJson fun given hgiven hcheck =>
      textJson_of_required cleanListName_ok hcheck (hcleanName given hgiven)
  · exact patched_ok hcolor textJson textJson fun given hgiven hcheck =>
      congrArg textJson (validateOptionalText_of_clean hcheck (hcleanColor given hgiven)).symm
  · exact patched_ok hicon textJson textJson fun given hgiven hcheck =>
      congrArg textJson (validateOptionalText_of_clean hcheck (hcleanIcon given hgiven)).symm
  · exact patched_ok hrank Json.str textJson fun given hgiven hcheck =>
      textJson_of_required validateRank_ok hcheck (hcleanRank given hgiven)

theorem restoreList_explained {id : String} (h : restoreList supply store id = .ok tx) :
    tx.Explained now store := by
  obtain ⟨_, -, h⟩ := bind_eq_ok_iff.mp h
  split at h
  · cases h
    exact Tx.explained_begin now store
  · rename_i list hlist
    obtain ⟨-, hfind, -⟩ := Store.find_list hlist
    exact (Tx.explained_begin now store).restore h hfind
      (lookup_stamped_list list supply.now none) rfl

/-- A loop over rows of different keys, each round of which explains its own row. -/
theorem Tx.explained_foldlM {α : Type} {step : Tx → α → StoreResult Tx} {keyOf : α → RowKey}
    {start : Tables}
    {items : List α}
    (hstep : ∀ item ∈ items, ∀ tx after, tx.tables.find (keyOf item) = start.find (keyOf item) →
      tx.Explained now store → step tx item = .ok after →
      after.Explained now store ∧
        ∀ key, key ≠ keyOf item → after.tables.find key = tx.tables.find key)
    (hnodup : (items.map keyOf).Nodup) {after : Tx}
    (htx : tx.Explained now store)
    (hfind : ∀ item ∈ items, tx.tables.find (keyOf item) = start.find (keyOf item))
    (h : items.foldlM step tx = .ok after) :
    after.Explained now store ∧
      ∀ key, key ∉ items.map keyOf → after.tables.find key = tx.tables.find key := by
  induction items generalizing tx with
  | nil =>
      cases h
      exact ⟨htx, fun _ _ => rfl⟩
  | cons item rest ih =>
      rw [List.foldlM_cons] at h
      obtain ⟨next, hnext, hrest⟩ := bind_eq_ok_iff.mp h
      rw [List.map_cons, List.nodup_cons] at hnodup
      obtain ⟨hexplained, hother⟩ := hstep item List.mem_cons_self tx next
        (hfind item List.mem_cons_self) htx hnext
      have hfindRest : ∀ later ∈ rest, next.tables.find (keyOf later) = start.find (keyOf later) := by
        intro later hlater
        have hne : keyOf later ≠ keyOf item := fun heq =>
          hnodup.1 (heq ▸ List.mem_map_of_mem hlater)
        rw [hother _ hne]
        exact hfind later (List.mem_cons_of_mem item hlater)
      obtain ⟨hfinal, hkeep⟩ := ih (fun later hlater => hstep later (List.mem_cons_of_mem item hlater))
        hnodup.2 hexplained hfindRest hrest
      refine ⟨hfinal, fun key hkey => ?_⟩
      rw [List.map_cons, List.mem_cons, not_or] at hkey
      rw [hkeep key hkey.2, hother key hkey.1]

/-- A save leaves the rows under other keys alone. -/
theorem Tx.find_of_save {after : Tx} {row : Row} {kind : MutationKind} {patch : Data}
    (h : tx.save supply row kind patch = .ok after) {key : RowKey} (hne : key ≠ row.key) :
    after.tables.find key = tx.tables.find key := by
  obtain ⟨-, hconsistent, rfl⟩ := Tx.save_ok h
  exact Tables.find_put_of_ne tx.tables hne

theorem detachTask_explained {tx after : Tx} {task : Task} (htx : tx.Explained now store)
    (hfind : tx.tables.find (Row.task task).key = some (.task task))
    (h : detachTask supply tx task = .ok after) : after.Explained now store := by
  apply htx.patch h hfind ?_ rfl
  exact forall_task_fields.mpr
    ⟨rfl, rfl, rfl, rfl, rfl, rfl, rfl, rfl, rfl, rfl, rfl, rfl, rfl, rfl⟩

/-- Different tasks of the store stand under different keys. -/
theorem Tables.Consistent.nodup_taskKeys {tables : Tables} (h : tables.Consistent) :
    (tables.tasks.values.map fun task => (Row.task task).key).Nodup := by
  have hkeys : (tables.tasks.values.map fun task => (Row.task task).key) =
      tables.tasks.keys.map fun id => (EntityType.task, id) := by
    rw [Table.values, AList.keys, List.keys, List.map_map, List.map_map]
    apply List.map_congr_left
    rintro ⟨id, task⟩ hmem
    apply h.keyed (.task, id) (.task task)
    rw [Tables.find, Table.mem_entries_iff.mp hmem]
    rfl
  rw [hkeys]
  exact tables.tasks.keys_nodup.map fun _ _ heq => congrArg Prod.snd heq

theorem deleteList_explained {id : String} (h : deleteList supply store id = .ok tx) :
    tx.Explained now store := by
  obtain ⟨_, -, h⟩ := bind_eq_ok_iff.mp h
  split at h
  · cases h
    exact Tx.explained_begin now store
  · rename_i list hlist
    obtain ⟨deleted, hdelete, h⟩ := bind_eq_ok_iff.mp h
    obtain ⟨-, hfind, -⟩ := Store.find_list hlist
    have hdeleted := (Tx.explained_begin now store).delete hdelete hfind
      (lookup_stamped_list list supply.now (some supply.now)) rfl
    have hnodup : ((deleted.tables.tasks.values.filter fun task =>
        task.listId == some id && task.deletedAt.isNone).map fun task =>
          (Row.task task).key).Nodup :=
      deleted.store.rows.property.nodup_taskKeys.sublist (List.filter_sublist.map _)
    have hsame : ∀ task ∈ deleted.tables.tasks.values.filter fun task =>
        task.listId == some id && task.deletedAt.isNone,
        deleted.tables.find (Row.task task).key = deleted.tables.find (Row.task task).key :=
      fun _ _ => rfl
    apply (Tx.explained_foldlM ?_ hnodup hdeleted hsame h).1
    intro task htask tx after hsame htx hdetach
    refine ⟨?_, fun key hne => Tx.find_of_save hdetach hne⟩
    apply detachTask_explained htx ?_ hdetach
    exact hsame.trans (Store.find_of_mem_tasks (List.mem_filter.mp htask).1)

theorem createTaskRow_explained {tx after : Tx} {task : Task} (htx : tx.Explained now store)
    (h : createTaskRow supply tx task = .ok after) (hlive : task.deletedAt = none) :
    after.Explained now store := by
  obtain ⟨_, -, h⟩ := bind_eq_ok_iff.mp h
  obtain ⟨_, -, hcreate⟩ := bind_eq_ok_iff.mp h
  exact htx.create hcreate hlive

theorem createTask_explained {input : NewTask} {task : Task}
    (h : createTask texts supply store input = .ok (task, tx)) : tx.Explained now store := by
  obtain ⟨prepared, -, h⟩ := bind_eq_ok_iff.mp h
  obtain ⟨_, -, h⟩ := bind_eq_ok_iff.mp h
  obtain ⟨created, hcreate, h⟩ := bind_eq_ok_iff.mp h
  obtain ⟨planned, hplan, h⟩ := bind_eq_ok_iff.mp h
  cases h
  have hcreated := createTaskRow_explained (Tx.explained_begin now store) hcreate rfl
  cases hdate : prepared.planDate with
  | none =>
      rw [hdate] at hplan
      cases hplan
      exact hcreated
  | some planDate =>
      rw [hdate] at hplan
      exact hcreated.create hplan rfl

/-- What a patch sets the status and the time of completion to, it logs. -/
theorem patchedStatus_logged {given : Option (Option TaskStatus)} {status : Option TaskStatus}
    (h : (optionally given fun value => required value "status") = .ok status)
    (current : TaskStatus) :
    (given.map (Json.ofOption statusJson)).or (some (statusJson current)) =
      some (statusJson (status.getD current)) := by
  cases given with
  | none =>
      cases h
      rfl
  | some value =>
      obtain ⟨found, hfound, h⟩ := bind_eq_ok_iff.mp h
      cases h
      rw [required_ok hfound]
      rfl

theorem optionally_ok_of_keeps {α : Type} {value stored : Option α} {check : α → StoreResult α}
    (h : optionally value check = .ok stored)
    (hcheck : ∀ given kept, check given = .ok kept → kept = given) : stored = value := by
  cases value with
  | none => exact (Except.ok.inj h).symm
  | some given =>
      obtain ⟨kept, hkept, h⟩ := bind_eq_ok_iff.mp h
      cases h
      exact congrArg some (hcheck given kept hkept)

theorem patchTask_explained {id : String} {patch : TaskPatch} {task : Task}
    (h : patchTask texts supply store id patch = .ok (task, tx))
    (hrankClean : ∀ given ∈ patch.rank, ∀ rank ∈ given, trim rank = rank) :
    tx.Explained now store := by
  obtain ⟨_, -, h⟩ := bind_eq_ok_iff.mp h
  obtain ⟨_, -, h⟩ := bind_eq_ok_iff.mp h
  obtain ⟨current, hcurrent, h⟩ := bind_eq_ok_iff.mp h
  obtain ⟨title, htitle, h⟩ := bind_eq_ok_iff.mp h
  obtain ⟨listId, hlistId, h⟩ := bind_eq_ok_iff.mp h
  obtain ⟨note, hnote, h⟩ := bind_eq_ok_iff.mp h
  obtain ⟨tags, htags, h⟩ := bind_eq_ok_iff.mp h
  obtain ⟨important, himportant, h⟩ := bind_eq_ok_iff.mp h
  obtain ⟨dueOn, hdueOn, h⟩ := bind_eq_ok_iff.mp h
  obtain ⟨remindAt, hremindAt, h⟩ := bind_eq_ok_iff.mp h
  obtain ⟨remindTimezone, hremindTimezone, h⟩ := bind_eq_ok_iff.mp h
  obtain ⟨recurrence, hrecurrence, h⟩ := bind_eq_ok_iff.mp h
  obtain ⟨rank, hrank, h⟩ := bind_eq_ok_iff.mp h
  obtain ⟨status, hstatus, h⟩ := bind_eq_ok_iff.mp h
  obtain ⟨completedAt, -, h⟩ := bind_eq_ok_iff.mp h
  obtain ⟨saved, hsave, h⟩ := bind_eq_ok_iff.mp h
  cases h
  obtain ⟨-, hfind, -⟩ := Store.find_task (orNotFound_ok hcurrent)
  apply (Tx.explained_begin now store).patch hsave hfind ?_ rfl
  rw [TaskPatch.data]
  refine forall_task_fields.mpr
    ⟨?_, ?_, ?_, ?_, ?_, ?_, ?_, ?_, ?_, ?_, ?_, ?_, ?_, ?_⟩ <;> rw [lookup_present (by simp)]
  · exact patched_ok hlistId textJson textJson fun _ _ hcheck =>
      congrArg textJson (optionally_ok_of_keeps hcheck fun _ _ hkept => by
        obtain ⟨_, -, hkept⟩ := bind_eq_ok_iff.mp hkept
        obtain ⟨_, -, hkept⟩ := bind_eq_ok_iff.mp hkept
        exact (Except.ok.inj hkept).symm).symm
  · exact patched_logged htitle Json.str textJson (some title) rfl
  · exact patched_logged hnote Json.str textJson (some note) rfl
  · exact patched_logged htags tagsJson tagsJson tags rfl
  · exact patchedStatus_logged hstatus current.status
  · exact patched_ok himportant Json.bool (Json.ofOption Json.bool) fun _ _ hcheck => by
      rw [required_ok hcheck]
      rfl
  · exact patched_ok hdueOn textJson textJson fun _ _ hcheck =>
      congrArg textJson (optionally_ok_of_keeps hcheck fun _ _ hkept => by
        obtain ⟨_, -, hkept⟩ := bind_eq_ok_iff.mp hkept
        exact (Except.ok.inj hkept).symm).symm
  · exact patched_logged hremindAt textJson textJson remindAt rfl
  · exact patched_logged hremindTimezone textJson textJson remindTimezone rfl
  · exact patched_ok hrank Json.str textJson fun given hgiven hcheck =>
      textJson_of_required validateRank_ok hcheck (hrankClean given hgiven)
  · rfl
  · rfl
  · exact patched_ok hrecurrence (fun value => value.getD .null) (fun value => value.getD .null)
      fun _ _ hcheck => by
        rw [optionally_ok_of_keeps hcheck fun _ _ hkept => by
          obtain ⟨_, -, hkept⟩ := bind_eq_ok_iff.mp hkept
          exact (Except.ok.inj hkept).symm]
  · cases completedAt <;> rfl

theorem commitCompletion_explained {taskId completedAt : String} {nextTask : Option Task}
    {done : Task × Option Task}
    (h : commitCompletion texts supply store taskId completedAt nextTask = .ok (done, tx))
    (hlive : ∀ next ∈ nextTask, next.deletedAt = none) : tx.Explained now store := by
  obtain ⟨_, -, h⟩ := bind_eq_ok_iff.mp h
  obtain ⟨instant, -, h⟩ := bind_eq_ok_iff.mp h
  obtain ⟨_, -, h⟩ := bind_eq_ok_iff.mp h
  obtain ⟨current, hcurrent, h⟩ := bind_eq_ok_iff.mp h
  obtain ⟨_, -, h⟩ := bind_eq_ok_iff.mp h
  obtain ⟨saved, hsave, h⟩ := bind_eq_ok_iff.mp h
  obtain ⟨created, hnext, h⟩ := bind_eq_ok_iff.mp h
  cases h
  obtain ⟨-, hfind, -⟩ := Store.find_task (orNotFound_ok hcurrent)
  have hsaved : saved.Explained now store := by
    apply (Tx.explained_begin now store).patch hsave hfind ?_ rfl
    exact forall_task_fields.mpr
      ⟨rfl, rfl, rfl, rfl, rfl, rfl, rfl, rfl, rfl, rfl, rfl, rfl, rfl, rfl⟩
  cases nextTask with
  | none =>
      cases hnext
      exact hsaved
  | some next => exact createTaskRow_explained hsaved hnext (hlive next rfl)

theorem deleteTask_explained {id : String} (h : deleteTask supply store id = .ok tx) :
    tx.Explained now store := by
  obtain ⟨_, -, h⟩ := bind_eq_ok_iff.mp h
  split at h
  · cases h
    exact Tx.explained_begin now store
  · rename_i task htask
    obtain ⟨-, hfind, -⟩ := Store.find_task htask
    exact (Tx.explained_begin now store).delete h hfind
      (lookup_stamped_task task supply.now (some supply.now)) rfl

theorem restoreTask_explained {id : String} (h : restoreTask supply store id = .ok tx) :
    tx.Explained now store := by
  obtain ⟨_, -, h⟩ := bind_eq_ok_iff.mp h
  split at h
  · cases h
    exact Tx.explained_begin now store
  · rename_i task htask
    obtain ⟨-, hfind, -⟩ := Store.find_task htask
    exact (Tx.explained_begin now store).restore h hfind
      (lookup_stamped_task task supply.now none) rfl

theorem find_of_mem_siblings {current other : Task} (h : other ∈ siblings store current) :
    store.rows.val.find (Row.task other).key = some (.task other) :=
  Store.find_of_mem_tasks (List.mem_filter.mp ((List.mem_insertionSort _).mp h)).1

theorem nodup_siblings (store : Store) (current : Task) :
    ((siblings store current).map fun task => (Row.task task).key).Nodup :=
  ((List.perm_insertionSort _ _).map _).nodup_iff.mpr
    (store.rows.property.nodup_taskKeys.sublist (List.filter_sublist.map _))

/-- The task changes places with another one. -/
theorem reorderTarget_ok {current other : Task} {direction : String}
    (h : reorderTarget store current direction = some other) :
    other ∈ siblings store current ∧ other.id ≠ current.id := by
  obtain ⟨index, hindex, hplace⟩ := Option.bind_eq_some_iff.mp h
  obtain ⟨hlt, hself, -⟩ := List.findIdx?_eq_some_iff_getElem.mp hindex
  have hsome : ∀ target, target ≠ index → (siblings store current)[target]? = some other →
      other ∈ siblings store current ∧ other.id ≠ current.id := by
    intro target htarget hget
    obtain ⟨hbound, rfl⟩ := List.getElem?_eq_some_iff.mp hget
    refine ⟨List.getElem_mem hbound, fun heq => htarget ?_⟩
    have hkey : ∀ task : Task, task.id = current.id → (Row.task task).key = (.task, current.id) :=
      fun _ hid => Prod.ext rfl hid
    apply (List.getElem?_inj (by simpa using hbound) (nodup_siblings store current)).mp
    rw [List.getElem?_map, List.getElem?_map, List.getElem?_eq_getElem hbound,
      List.getElem?_eq_getElem hlt, Option.map_some, Option.map_some, hkey _ heq,
      hkey _ (beq_iff_eq.mp hself)]
  split at hplace
  · split at hplace
    · cases hplace
    · exact hsome (index - 1) (by omega) hplace
  · exact hsome (index + 1) (by omega) hplace

theorem swapRanks_explained {current other : Task}
    (hcurrent : store.rows.val.find (Row.task current).key = some (.task current))
    (hother : store.rows.val.find (Row.task other).key = some (.task other))
    (hne : other.id ≠ current.id) (h : swapRanks supply store current other = .ok tx) :
    tx.Explained now store := by
  obtain ⟨first, hfirst, h⟩ := bind_eq_ok_iff.mp h
  obtain ⟨second, hsecond, h⟩ := bind_eq_ok_iff.mp h
  obtain ⟨logged, hlogged, h⟩ := bind_eq_ok_iff.mp h
  obtain ⟨_, rfl⟩ := Tx.statement_ok hfirst
  obtain ⟨_, rfl⟩ := Tx.statement_ok hsecond
  obtain ⟨-, rfl⟩ := Tx.appendMutation_ok hlogged
  obtain ⟨-, rfl⟩ := Tx.appendMutation_ok h
  have hmoved : (projection now).Explains
      [store.begin.mutation supply (.task, current.id) .patch [("rank", .str other.rank)]]
      store.dataAt (store.rows.val.put (.task { current with
        rank := other.rank, updatedAt := supply.now })).dataAt := by
    apply Tables.explains_put now rfl
    rw [show (Row.task { current with rank := other.rank, updatedAt := supply.now }).key =
      (Row.task current).key from rfl, hcurrent]
    refine ⟨?_, rfl⟩
    exact forall_task_fields.mpr
      ⟨rfl, rfl, rfl, rfl, rfl, rfl, rfl, rfl, rfl, rfl, rfl, rfl, rfl, rfl⟩
  apply Journal.explains_append _ hmoved
  apply Tables.explains_put now rfl
  have hkey : (Row.task { other with rank := current.rank, updatedAt := supply.now }).key ≠
      (Row.task { current with rank := other.rank, updatedAt := supply.now }).key :=
    fun heq => hne (congrArg Prod.snd heq)
  rw [Tables.find_put_of_ne _ hkey, show (Row.task { other with
    rank := current.rank, updatedAt := supply.now }).key = (Row.task other).key from rfl, hother]
  refine ⟨?_, rfl⟩
  exact forall_task_fields.mpr
    ⟨rfl, rfl, rfl, rfl, rfl, rfl, rfl, rfl, rfl, rfl, rfl, rfl, rfl, rfl⟩

theorem reorderTask_explained {id direction : String}
    (h : reorderTask supply store id direction = .ok tx) : tx.Explained now store := by
  obtain ⟨_, -, h⟩ := bind_eq_ok_iff.mp h
  obtain ⟨_, -, h⟩ := bind_eq_ok_iff.mp h
  obtain ⟨current, hcurrent, h⟩ := bind_eq_ok_iff.mp h
  split at h
  · cases h
    exact Tx.explained_begin now store
  · rename_i other htarget
    obtain ⟨hmem, hne⟩ := reorderTarget_ok htarget
    obtain ⟨-, hfind, -⟩ := Store.find_task (orNotFound_ok hcurrent)
    exact swapRanks_explained hfind (find_of_mem_siblings hmem) hne h

theorem planAt_ok {taskId localDate : String} {plan : DayPlan}
    (h : store.planAt taskId localDate = some plan) :
    store.rows.val.find (Row.dayPlan plan).key = some (.dayPlan plan) :=
  Store.find_dayPlan (List.mem_of_find?_eq_some h)

theorem addToDay_explained {taskId date : String}
    (h : addToDay texts supply store taskId date = .ok tx) : tx.Explained now store := by
  obtain ⟨_, -, h⟩ := bind_eq_ok_iff.mp h
  obtain ⟨_, -, h⟩ := bind_eq_ok_iff.mp h
  obtain ⟨_, -, h⟩ := bind_eq_ok_iff.mp h
  split at h
  · exact (Tx.explained_begin now store).create h rfl
  · rename_i plan hplan
    have hfind := planAt_ok hplan
    split at h
    · exact (Tx.explained_begin now store).restore h hfind
        (lookup_stamped_dayPlan plan supply.now none) rfl
    · cases h
      exact Tx.explained_begin now store

theorem removeFromDay_explained {taskId date : String}
    (h : removeFromDay texts supply store taskId date = .ok tx) : tx.Explained now store := by
  obtain ⟨_, -, h⟩ := bind_eq_ok_iff.mp h
  obtain ⟨_, -, h⟩ := bind_eq_ok_iff.mp h
  split at h
  · cases h
    exact Tx.explained_begin now store
  · rename_i plan hplan
    have hfind := planAt_ok (Option.filter_eq_some_iff.mp hplan).1
    exact (Tx.explained_begin now store).delete h hfind
      (lookup_stamped_dayPlan plan supply.now (some supply.now)) rfl

theorem createStep_explained {taskId title : String} {step : Step}
    (h : createStep supply store taskId title = .ok (step, tx)) : tx.Explained now store := by
  obtain ⟨_, -, h⟩ := bind_eq_ok_iff.mp h
  obtain ⟨_, -, h⟩ := bind_eq_ok_iff.mp h
  obtain ⟨_, -, h⟩ := bind_eq_ok_iff.mp h
  obtain ⟨created, hcreate, h⟩ := bind_eq_ok_iff.mp h
  cases h
  exact (Tx.explained_begin now store).create hcreate rfl

theorem patchStep_explained {id : String} {patch : StepPatch} {step : Step}
    (h : patchStep supply store id patch = .ok (step, tx)) (hclean : patch.IsClean) :
    tx.Explained now store := by
  obtain ⟨_, -, h⟩ := bind_eq_ok_iff.mp h
  obtain ⟨_, -, h⟩ := bind_eq_ok_iff.mp h
  obtain ⟨current, hcurrent, h⟩ := bind_eq_ok_iff.mp h
  obtain ⟨title, htitle, h⟩ := bind_eq_ok_iff.mp h
  obtain ⟨isCompleted, hisCompleted, h⟩ := bind_eq_ok_iff.mp h
  obtain ⟨rank, hrank, h⟩ := bind_eq_ok_iff.mp h
  obtain ⟨saved, hsave, h⟩ := bind_eq_ok_iff.mp h
  cases h
  obtain ⟨hcleanTitle, hcleanRank⟩ := hclean
  obtain ⟨-, hfind, -⟩ := Store.find_step (orNotFound_ok hcurrent)
  apply (Tx.explained_begin now store).patch hsave hfind ?_ rfl
  rw [StepPatch.data]
  refine forall_step_fields.mpr ⟨?_, ?_, ?_, ?_⟩ <;> rw [lookup_present (by simp)]
  · rfl
  · exact patched_ok htitle Json.str textJson fun given hgiven hcheck =>
      textJson_of_required cleanTitle_ok hcheck (hcleanTitle given hgiven)
  · exact patched_ok hisCompleted Json.bool (Json.ofOption Json.bool) fun _ _ hcheck => by
      rw [required_ok hcheck]
      rfl
  · exact patched_ok hrank Json.str textJson fun given hgiven hcheck =>
      textJson_of_required validateRank_ok hcheck (hcleanRank given hgiven)

theorem deleteStep_explained {id : String} (h : deleteStep supply store id = .ok tx) :
    tx.Explained now store := by
  obtain ⟨_, -, h⟩ := bind_eq_ok_iff.mp h
  split at h
  · cases h
    exact Tx.explained_begin now store
  · rename_i step hstep
    obtain ⟨-, hfind, -⟩ := Store.find_step hstep
    exact (Tx.explained_begin now store).delete h hfind
      (lookup_stamped_step step supply.now (some supply.now)) rfl

/-- A row has every mutable field. -/
theorem Row.lookup_data_isSome (row : Row) :
    ∀ field ∈ mutableFields row.entity, (row.data.lookup field).isSome := by
  cases row with
  | list list => exact forall_list_fields.mpr ⟨rfl, rfl, rfl, rfl⟩
  | task task =>
      exact forall_task_fields.mpr
        ⟨rfl, rfl, rfl, rfl, rfl, rfl, rfl, rfl, rfl, rfl, rfl, rfl, rfl, rfl⟩
  | step step => exact forall_step_fields.mpr ⟨rfl, rfl, rfl, rfl⟩
  | dayPlan plan => exact forall_dayPlan_fields.mpr ⟨rfl, rfl, rfl⟩

/-- Whether the row that another one replaces is deleted. -/
def wasDeleted (before : Option Row) : Bool := before.any fun old => old.deletedAt.isSome

theorem importRow_explained {tx after : Tx} {row : Row} (htx : tx.Explained now store)
    (h : importRow supply tx row = .ok after)
    (hkeeps : row.deletedAt.isSome = wasDeleted (tx.tables.find row.key)) :
    after.Explained now store := by
  apply htx.save h
  cases hfind : tx.tables.find row.key with
  | none =>
      rw [hfind] at hkeeps
      exact ⟨fun _ _ => rfl, hkeeps⟩
  | some old =>
      rw [hfind] at hkeeps
      refine ⟨fun field hfield => ?_, hkeeps⟩
      exact Option.or_of_isSome (row.lookup_data_isSome field hfield)

/-- A loop over the rows of one table explains them and leaves the other tables alone. -/
theorem importItems_explained {α : Type} (rowOf : α → Row) {entity : EntityType}
    {step : Tx → α → StoreResult Tx} {start : Tables} {items : List α} {after : Tx}
    (hentity : ∀ item, (rowOf item).entity = entity)
    (hstep : ∀ tx item after, step tx item = .ok after →
      ∃ row : Row, row.key = (rowOf item).key ∧ row.deletedAt = (rowOf item).deletedAt ∧
        importRow supply tx row = .ok after)
    (hnodup : (items.map fun item => (rowOf item).id).Nodup) (htx : tx.Explained now store)
    (hfind : ∀ key : RowKey, key.1 = entity → tx.tables.find key = start.find key)
    (hkeeps : ∀ item ∈ items,
      (rowOf item).deletedAt.isSome = wasDeleted (start.find (rowOf item).key))
    (h : items.foldlM step tx = .ok after) :
    after.Explained now store ∧
      ∀ key : RowKey, key.1 ≠ entity → after.tables.find key = tx.tables.find key := by
  have hkeys : (items.map fun item => (rowOf item).key).Nodup := by
    apply List.Nodup.of_map Prod.snd
    rw [List.map_map]
    exact hnodup
  have hround : ∀ item ∈ items, ∀ tx after,
      tx.tables.find (rowOf item).key = start.find (rowOf item).key → tx.Explained now store →
      step tx item = .ok after → after.Explained now store ∧
        ∀ key, key ≠ (rowOf item).key → after.tables.find key = tx.tables.find key := by
    intro item hitem tx after hsame htx hafter
    obtain ⟨row, hkey, hdeleted, himport⟩ := hstep tx item after hafter
    refine ⟨importRow_explained htx himport ?_, fun key hne => ?_⟩
    · rw [hdeleted, hkey, hsame]
      exact hkeeps item hitem
    · exact Tx.find_of_save himport (hkey ▸ hne)
  obtain ⟨hafter, hother⟩ := Tx.explained_foldlM hround hkeys htx
    (fun item _ => hfind _ (hentity item)) h
  refine ⟨hafter, fun key hne => hother key fun hmem => ?_⟩
  obtain ⟨item, -, rfl⟩ := List.mem_map.mp hmem
  exact hne (hentity item)

theorem importTask_ok {tx after : Tx} {task : Task} (h : importTask texts supply tx task = .ok after) :
    ∃ row : Row, row.key = (Row.task task).key ∧ row.deletedAt = (Row.task task).deletedAt ∧
      importRow supply tx row = .ok after := by
  obtain ⟨tags, -, h⟩ := bind_eq_ok_iff.mp h
  exact ⟨.task { task with tags := tags }, rfl, rfl, h⟩

theorem nodup_of_checkUnique {kind : String} :
    ∀ {ids seen : List String}, checkUnique kind seen ids = .ok () →
      ids.Nodup ∧ ∀ id ∈ ids, id ∉ seen
  | [], seen, _ => ⟨List.nodup_nil, fun _ h => nomatch h⟩
  | id :: rest, seen, h => by
      obtain ⟨_, hnew, hrest⟩ := bind_eq_ok_iff.mp h
      rw [refuseIf_eq_ok_iff] at hnew
      obtain ⟨hnodup, hseen⟩ := nodup_of_checkUnique hrest
      refine ⟨List.nodup_cons.mpr ⟨fun hmem => hseen id hmem List.mem_cons_self, hnodup⟩, ?_⟩
      intro other hother
      rcases List.mem_cons.mp hother with rfl | hmem
      · exact hnew
      · exact fun hold => hseen other hmem (List.mem_cons_of_mem id hold)

/-- An imported row is deleted where the row it replaces is, and only there. -/
def ImportKeepsTombstones (store : Store) (bundle : ExportBundle) (mode : ImportMode) : Prop :=
  ∀ row ∈ bundle.rows, row.deletedAt.isSome = wasDeleted ((importStart store mode).find row.key)

theorem importStart_explained (mode : ImportMode) :
    (importStart store mode).begin.Explained now store := by
  cases mode with
  | merge => exact Tx.explained_begin now store
  | replace =>
      intro key row hrow
      rw [show (importStart store .replace).begin.store.dataAt key = none by
        simp [Store.begin, importStart, Store.clear, Store.dataAt, Tables.dataAt, Rows.empty]] at hrow
      cases hrow

theorem importData_explained {bundle : ExportBundle} {mode : ImportMode}
    (h : importData texts supply store bundle mode = .ok tx)
    (hkeeps : ImportKeepsTombstones store bundle mode) : tx.Explained now store := by
  obtain ⟨_, -, h⟩ := bind_eq_ok_iff.mp h
  obtain ⟨_, -, h⟩ := bind_eq_ok_iff.mp h
  obtain ⟨_, -, h⟩ := bind_eq_ok_iff.mp h
  obtain ⟨_, hunique, h⟩ := bind_eq_ok_iff.mp h
  obtain ⟨_, hlistIds, hunique⟩ := bind_eq_ok_iff.mp hunique
  obtain ⟨_, htaskIds, hunique⟩ := bind_eq_ok_iff.mp hunique
  obtain ⟨_, hstepIds, hplanIds⟩ := bind_eq_ok_iff.mp hunique
  obtain ⟨lists, hlists, h⟩ := bind_eq_ok_iff.mp h
  obtain ⟨tasks, htasks, h⟩ := bind_eq_ok_iff.mp h
  obtain ⟨steps, hsteps, hplans⟩ := bind_eq_ok_iff.mp h
  rw [List.foldlM_map] at hlists hsteps hplans
  -- Each loop finds its own table as the import found it: the loops before it wrote to others.
  obtain ⟨hlists, hafterLists⟩ := importItems_explained Row.list (fun _ => rfl)
    (fun tx list after h => ⟨.list list, rfl, rfl, h⟩) (nodup_of_checkUnique hlistIds).1
    (importStart_explained mode) (fun _ _ => rfl)
    (fun list hlist => hkeeps (.list list) (by simp [ExportBundle.rows, hlist])) hlists
  obtain ⟨htasks, hafterTasks⟩ := importItems_explained Row.task (fun _ => rfl)
    (fun tx task after h => importTask_ok h) (nodup_of_checkUnique htaskIds).1 hlists
    (fun key hkey => hafterLists key (by simp [hkey]))
    (fun task htask => hkeeps (.task task) (by simp [ExportBundle.rows, htask])) htasks
  obtain ⟨hsteps, hafterSteps⟩ := importItems_explained Row.step (fun _ => rfl)
    (fun tx step after h => ⟨.step step, rfl, rfl, h⟩) (nodup_of_checkUnique hstepIds).1 htasks
    (fun key hkey => (hafterTasks key (by simp [hkey])).trans (hafterLists key (by simp [hkey])))
    (fun step hstep => hkeeps (.step step) (by simp [ExportBundle.rows, hstep])) hsteps
  exact (importItems_explained Row.dayPlan (fun _ => rfl)
    (fun tx plan after h => ⟨.dayPlan plan, rfl, rfl, h⟩) (nodup_of_checkUnique hplanIds).1 hsteps
    (fun key hkey => (hafterSteps key (by simp [hkey])).trans
      ((hafterTasks key (by simp [hkey])).trans (hafterLists key (by simp [hkey]))))
    (fun plan hplan => hkeeps (.dayPlan plan) (by simp [ExportBundle.rows, hplan])) hplans).1

end operations

/-! ### Runs -/

/-- The request writes what it logs: patches of lists and steps come in clean, a rank comes in trimmed, and no row comes in with another tombstone than the row it replaces. -/
def Explainable (store : Store) (request : Request) : Prop :=
  match request.op with
  | .patchList _ patch => patch.IsClean
  | .patchTask _ patch => ∀ given ∈ patch.rank, ∀ rank ∈ given, trim rank = rank
  | .patchStep _ patch => patch.IsClean
  | .commitCompletion _ _ nextTask => ∀ next ∈ nextTask, next.deletedAt = none
  | .importData bundle mode => ImportKeepsTombstones store bundle mode
  | _ => True

instance (patch : ListPatch) : Decidable patch.IsClean :=
  inferInstanceAs (Decidable (_ ∧ _ ∧ _ ∧ _))

instance (patch : StepPatch) : Decidable patch.IsClean := inferInstanceAs (Decidable (_ ∧ _))

instance (store : Store) (bundle : ExportBundle) (mode : ImportMode) :
    Decidable (ImportKeepsTombstones store bundle mode) :=
  inferInstanceAs (Decidable (∀ row ∈ bundle.rows, _))

instance (store : Store) : (request : Request) → Decidable (Explainable store request)
  | ⟨.patchList _ patch, _⟩ => inferInstanceAs (Decidable patch.IsClean)
  | ⟨.patchTask _ patch, _⟩ =>
      inferInstanceAs (Decidable (∀ given ∈ patch.rank, ∀ rank ∈ given, trim rank = rank))
  | ⟨.patchStep _ patch, _⟩ => inferInstanceAs (Decidable patch.IsClean)
  | ⟨.commitCompletion _ _ nextTask, _⟩ =>
      inferInstanceAs (Decidable (∀ next ∈ nextTask, next.deletedAt = none))
  | ⟨.importData bundle mode, _⟩ => inferInstanceAs (Decidable (ImportKeepsTombstones store bundle mode))
  | ⟨.createList _, _⟩ | ⟨.deleteList _, _⟩ | ⟨.restoreList _, _⟩ | ⟨.createTask _, _⟩
  | ⟨.deleteTask _, _⟩ | ⟨.restoreTask _, _⟩ | ⟨.reorderTask _ _, _⟩ | ⟨.addToDay _ _, _⟩
  | ⟨.removeFromDay _ _, _⟩ | ⟨.createStep _ _, _⟩ | ⟨.deleteStep _, _⟩ => instDecidableTrue

theorem Request.explained {now : String} {texts : Texts} {request : Request} {store : Store} {tx : Tx}
    (h : request.perform texts store = .ok tx) (hexplainable : Explainable store request) :
    tx.Explained now store := by
  obtain ⟨op, supply⟩ := request
  cases op with
  | createList input =>
      change (Native.createList supply store input).map Prod.snd = .ok tx at h
      obtain ⟨done, hdone, rfl⟩ := map_eq_ok_iff.mp h
      exact createList_explained hdone
  | patchList id patch =>
      change (Native.patchList supply store id patch).map Prod.snd = .ok tx at h
      obtain ⟨done, hdone, rfl⟩ := map_eq_ok_iff.mp h
      exact patchList_explained hdone hexplainable
  | deleteList id => exact deleteList_explained h
  | restoreList id => exact restoreList_explained h
  | createTask input =>
      change (Native.createTask texts supply store input).map Prod.snd = .ok tx at h
      obtain ⟨done, hdone, rfl⟩ := map_eq_ok_iff.mp h
      exact createTask_explained hdone
  | patchTask id patch =>
      change (Native.patchTask texts supply store id patch).map Prod.snd = .ok tx at h
      obtain ⟨done, hdone, rfl⟩ := map_eq_ok_iff.mp h
      exact patchTask_explained hdone hexplainable
  | commitCompletion taskId completedAt nextTask =>
      change (Native.commitCompletion texts supply store taskId completedAt nextTask).map Prod.snd = .ok tx at h
      obtain ⟨done, hdone, rfl⟩ := map_eq_ok_iff.mp h
      exact commitCompletion_explained hdone hexplainable
  | deleteTask id => exact deleteTask_explained h
  | restoreTask id => exact restoreTask_explained h
  | reorderTask id direction => exact reorderTask_explained h
  | addToDay taskId date => exact addToDay_explained h
  | removeFromDay taskId date => exact removeFromDay_explained h
  | createStep taskId title =>
      change (Native.createStep supply store taskId title).map Prod.snd = .ok tx at h
      obtain ⟨done, hdone, rfl⟩ := map_eq_ok_iff.mp h
      exact createStep_explained hdone
  | patchStep id patch =>
      change (Native.patchStep supply store id patch).map Prod.snd = .ok tx at h
      obtain ⟨done, hdone, rfl⟩ := map_eq_ok_iff.mp h
      exact patchStep_explained hdone hexplainable
  | deleteStep id => exact deleteStep_explained h
  | importData bundle mode => exact importData_explained h hexplainable

/-- The appended mutations explain the rows after any run of explainable requests. -/
theorem localRuns_explains (texts : Texts) (now : String) (store : Store) (requests : List Request)
    (halong : (localRuns texts).Along Explainable store requests) :
    (projection now).Explains ((localRuns texts).trace store requests) store.dataAt
      ((localRuns texts).run store requests).dataAt := by
  have hrun := (localRuns texts).invariant_along Explainable
    (fun state past => (projection now).Explains past store.dataAt state.dataAt)
    (fun state past request hpast hexplainable => by
      cases h : request.perform texts state with
      | error error => simpa [localRuns, h] using hpast
      | ok tx =>
          have htx := Journal.explains_append _ hpast (Request.explained h hexplainable)
          simpa [localRuns, h] using htx)
    requests store [] (Journal.explains_nil _ _) halong
  simpa using hrun

end ShishiTodo.Native
