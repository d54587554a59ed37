import ShishiTodo.Native.Backup
import ShishiTodo.Native.Members
import ShishiTodo.Native.Runs

/-!
# Edits keep a store tidy

What the user writes is cleaned before it is stored, and logged as it was cleaned. Only the task that follows a completed one is stored with the tags that it comes with.
-/

namespace ShishiTodo.Native

open Lib

/-! ### What is tidy -/

/-- The tags that a member is read as. -/
def tagsOf : Json → List String
  | .arr items => items.filterMap asStr
  | _ => []

section

variable (texts : Texts)

def TidyTags (name : String) (value : Json) : Prop :=
  name = "tags" → normalizeTags texts (tagsOf value) = .ok (tagsOf value)

/-- The rows that are projected will be tidy. -/
structure TidySources (store : Store) : Prop where
  outbox : ∀ row ∈ store.outbox.values, row.entity = .task → Each (TidyTags texts) row.patch
  shadow : ∀ id copy, store.shadow.lookup (.task, id) = some copy → Each (TidyTags texts) copy.payload

/-- The rows are tidy, and stay so when they are projected again. -/
structure Tidied (store : Store) : Prop extends TidySources texts store where
  rows : store.rows.val.Tidy texts

end

section

variable {texts : Texts} {store : Store} {supply : Supply} {tx after : Tx} {row : Row}

theorem tidied_open (deviceId : String) : Tidied texts (.open deviceId) where
  rows key row hfind := by cases (Tables.find_empty key).symm.trans hfind
  outbox _ hrow := by cases hrow
  shadow _ _ hlookup := by cases hlookup

theorem tidyTags_of_ne {name : String} (h : name ≠ "tags") (value : Json) : TidyTags texts name value :=
  fun hname => absurd hname h

theorem tagsOf_tagsJson (tags : List String) : tagsOf (tagsJson tags) = tags := by
  show (tags.map Json.str).filterMap asStr = tags
  rw [List.filterMap_map]
  exact List.filterMap_some

theorem tidyTags_tagsJson {tags : List String} (h : normalizeTags texts tags = .ok tags) (name : String) :
    TidyTags texts name (tagsJson tags) := by
  intro _
  rwa [tagsOf_tagsJson]

theorem tagsFromData_eq (data : Data) : tagsFromData data = ((data.lookup "tags").map tagsOf).getD [] := by
  rw [tagsFromData]
  cases data.lookup "tags" with
  | none => rfl
  | some value => cases value <;> rfl

/-- Tidy data are read as tidy tags. -/
theorem normal_tagsFromData {data : Data} (h : Each (TidyTags texts) data) :
    normalizeTags texts (tagsFromData data) = .ok (tagsFromData data) := by
  rw [tagsFromData_eq]
  cases hlookup : data.lookup "tags" with
  | none => rfl
  | some value => exact h.lookup hlookup rfl

/-- Members under other names are tidy whatever they say. -/
theorem tidy_of_names {data : Data} (h : ∀ member ∈ data, member.1 ≠ "tags") : Each (TidyTags texts) data :=
  fun member hmember => tidyTags_of_ne (h member hmember) member.2

theorem tidy_task_data {task : Task} (h : normalizeTags texts task.tags = .ok task.tags) :
    Each (TidyTags texts) task.data := by
  have htags : normalizeTags texts (tagsOf (tagsJson task.tags)) = .ok (tagsOf (tagsJson task.tags)) :=
    tidyTags_tagsJson h "tags" rfl
  simpa [Each, Task.data, TidyTags] using htags

theorem tidyTags_own : ∀ name ∈ ownMembers, ∀ value, TidyTags texts name value := by
  have hother : ∀ name ∈ ownMembers, name ≠ "tags" := by decide
  exact fun name hname => tidyTags_of_ne (hother name hname)

/-! ### Writing rows -/

theorem Tables.Tidy.put {tables : Tables} (h : tables.Tidy texts) (hrow : TidyRow texts row) :
    (tables.put row).Tidy texts := by
  intro key found hfind
  rw [Tables.find_put] at hfind
  split at hfind
  · cases hfind
    exact hrow
  · exact h key found hfind

theorem Tidied.withRows (h : Tidied texts tx.store) {rows : Rows} (hrows : rows.val.Tidy texts) :
    Tidied texts (tx.withRows rows).store :=
  ⟨⟨h.outbox, h.shadow⟩, hrows⟩

theorem Tidied.withMutation (h : Tidied texts tx.store) {mutation : OutboxRow}
    (hpatch : mutation.entity = .task → Each (TidyTags texts) mutation.patch) :
    Tidied texts (tx.withMutation mutation).store where
  rows := h.rows
  outbox other hother := by
    rcases Table.mem_values_insert hother with rfl | hold
    · exact hpatch
    · exact h.outbox other hold
  shadow := h.shadow

theorem Tidied.write (h : Tidied texts tx.store) (hwrite : tx.write row = .ok after) (hrow : TidyRow texts row) :
    Tidied texts after.store := by
  obtain ⟨_, rfl⟩ := Tx.statement_ok hwrite
  exact h.withRows (h.rows.put hrow)

theorem Tidied.appendMutation (h : Tidied texts tx.store) {key : RowKey} {kind : MutationKind} {patch : Data}
    (happend : tx.appendMutation supply key kind patch = .ok after)
    (hpatch : key.1 = .task → Each (TidyTags texts) patch) : Tidied texts after.store := by
  obtain ⟨-, rfl⟩ := Tx.appendMutation_ok happend
  exact h.withMutation hpatch

theorem Tidied.save (h : Tidied texts tx.store) {kind : MutationKind} {patch : Data}
    (hsave : tx.save supply row kind patch = .ok after) (hrow : TidyRow texts row)
    (hpatch : row.entity = .task → Each (TidyTags texts) patch) : Tidied texts after.store := by
  obtain ⟨written, hwrite, happend⟩ := bind_eq_ok_iff.mp hsave
  exact (h.write hwrite hrow).appendMutation happend hpatch

theorem TidyRow.data (h : TidyRow texts row) (hentity : row.entity = .task) : Each (TidyTags texts) row.data := by
  cases row with
  | task task => exact tidy_task_data h.2
  | list list => cases hentity
  | step step => cases hentity
  | dayPlan plan => cases hentity

theorem Tidied.create (h : Tidied texts tx.store) (hcreate : tx.create supply row = .ok after)
    (hrow : TidyRow texts row) : Tidied texts after.store :=
  h.save (Tx.create_ok hcreate).2 hrow hrow.data

/-! ### Edits -/

theorem Tidied.begin (h : Tidied texts store) : Tidied texts store.begin.store := h

theorem Tidied.list (h : Tidied texts store) {id : String} {list : TaskList}
    (hlookup : store.rows.val.lists.lookup id = some list) : ¬ Blank list.name :=
  h.rows (.list, id) (.list list) (by rw [Tables.find, hlookup]; rfl)

theorem Tidied.task (h : Tidied texts store) {id : String} {task : Task}
    (hlookup : store.rows.val.tasks.lookup id = some task) : TidyRow texts (.task task) :=
  h.rows (.task, id) (.task task) (by rw [Tables.find, hlookup]; rfl)

/-- What holds of the column before, and of what the check gives, holds after a patch. -/
theorem patched_holds {α β : Type} (P : β → Prop) {value : Option α} {current new : β} {check : α → StoreResult β}
    (h : patched value current check = .ok new) (hcurrent : P current)
    (hcheck : ∀ given, check given = .ok new → P new) : P new := by
  cases value with
  | none =>
      cases h
      exact hcurrent
  | some given => exact hcheck given h

theorem createList_tidied (h : Tidied texts store) {input : NewList} {list : TaskList}
    (hcreate : createList supply store input = .ok (list, tx)) : Tidied texts tx.store := by
  obtain ⟨name, hname, hcreate⟩ := bind_eq_ok_iff.mp hcreate
  obtain ⟨color, -, hcreate⟩ := bind_eq_ok_iff.mp hcreate
  obtain ⟨icon, -, hcreate⟩ := bind_eq_ok_iff.mp hcreate
  obtain ⟨created, hcreated, hcreate⟩ := bind_eq_ok_iff.mp hcreate
  cases hcreate
  exact h.begin.create hcreated (not_blank_of_cleanListName hname)

theorem patchList_tidied (h : Tidied texts store) {id : String} {patch : ListPatch} {list : TaskList}
    (hpatch : patchList supply store id patch = .ok (list, tx)) : Tidied texts tx.store := by
  obtain ⟨_, -, hpatch⟩ := bind_eq_ok_iff.mp hpatch
  obtain ⟨_, -, hpatch⟩ := bind_eq_ok_iff.mp hpatch
  obtain ⟨current, hcurrent, hpatch⟩ := bind_eq_ok_iff.mp hpatch
  obtain ⟨name, hname, hpatch⟩ := bind_eq_ok_iff.mp hpatch
  obtain ⟨color, -, hpatch⟩ := bind_eq_ok_iff.mp hpatch
  obtain ⟨icon, -, hpatch⟩ := bind_eq_ok_iff.mp hpatch
  obtain ⟨rank, -, hpatch⟩ := bind_eq_ok_iff.mp hpatch
  obtain ⟨saved, hsave, hpatch⟩ := bind_eq_ok_iff.mp hpatch
  cases hpatch
  have hold := h.list (Option.filter_eq_some_iff.mp (orNotFound_ok hcurrent)).1
  have hnew : ¬ Blank name := by
    refine patched_holds (fun name => ¬ Blank name) hname hold fun given hgiven => ?_
    obtain ⟨value, -, hclean⟩ := bind_eq_ok_iff.mp hgiven
    exact not_blank_of_cleanListName hclean
  exact h.begin.save hsave hnew nofun

theorem tidied_foldlM {α : Type} {step : Tx → α → StoreResult Tx} {items : List α}
    (hstep : ∀ item ∈ items, ∀ tx after, Tidied texts tx.store → step tx item = .ok after →
      Tidied texts after.store)
    (htx : Tidied texts tx.store) (h : items.foldlM step tx = .ok after) : Tidied texts after.store := by
  refine (foldlM_induction (fun rest tx => (∀ item ∈ rest, item ∈ items) ∧ Tidied texts tx.store) ?_
    ⟨fun _ hitem => hitem, htx⟩ h).2
  intro item rest state next hstate hnext
  refine ⟨fun later hlater => hstate.1 later (List.mem_cons_of_mem item hlater), ?_⟩
  exact hstep item (hstate.1 item List.mem_cons_self) state next hstate.2 hnext

theorem tidyTags_listId (listId : Json) : Each (TidyTags texts) [("listId", listId)] :=
  tidy_of_names (by simp)

theorem deleteList_tidied (h : Tidied texts store) {id : String}
    (hdelete : deleteList supply store id = .ok tx) : Tidied texts tx.store := by
  obtain ⟨_, -, hdelete⟩ := bind_eq_ok_iff.mp hdelete
  split at hdelete
  · cases hdelete
    exact h
  · rename_i list hlive
    obtain ⟨deleted, hsave, hdelete⟩ := bind_eq_ok_iff.mp hdelete
    have hlist : ¬ Blank list.name := h.list (Option.filter_eq_some_iff.mp hlive).1
    have hdeleted := h.begin.save hsave hlist nofun
    apply tidied_foldlM ?_ hdeleted hdelete
    intro task htask tx after htx hdetach
    obtain ⟨taskId, hlookup⟩ := Table.mem_values_iff.mp (List.mem_filter.mp htask).1
    have hrow := hdeleted.task hlookup
    exact htx.save hdetach hrow fun _ => tidyTags_listId .null

theorem restoreList_tidied (h : Tidied texts store) {id : String}
    (hrestore : restoreList supply store id = .ok tx) : Tidied texts tx.store := by
  obtain ⟨_, -, hrestore⟩ := bind_eq_ok_iff.mp hrestore
  split at hrestore
  · cases hrestore
    exact h
  · rename_i list hdeleted
    have hlist : ¬ Blank list.name := h.list (Option.filter_eq_some_iff.mp hdeleted).1
    exact h.begin.save hrestore hlist nofun

theorem createTaskRow_tidied {task : Task} (h : Tidied texts tx.store)
    (hcreate : createTaskRow supply tx task = .ok after)
    (htags : normalizeTags texts task.tags = .ok task.tags) : Tidied texts after.store := by
  obtain ⟨_, -, hcreate⟩ := bind_eq_ok_iff.mp hcreate
  obtain ⟨title, htitle, hcreate⟩ := bind_eq_ok_iff.mp hcreate
  exact h.create hcreate ⟨cleanTitle_succeeds_iff.mp ⟨title, htitle⟩, htags⟩

theorem createTask_tidied (h : Tidied texts store) {input : NewTask} {task : Task}
    (hcreate : createTask texts supply store input = .ok (task, tx)) : Tidied texts tx.store := by
  obtain ⟨prepared, hprepared, hcreate⟩ := bind_eq_ok_iff.mp hcreate
  obtain ⟨_, -, hcreate⟩ := bind_eq_ok_iff.mp hcreate
  obtain ⟨created, hcreated, hcreate⟩ := bind_eq_ok_iff.mp hcreate
  obtain ⟨planned, hplan, hcreate⟩ := bind_eq_ok_iff.mp hcreate
  cases hcreate
  have htags : normalizeTags texts prepared.tags = .ok prepared.tags := by
    simp only [prepareNewTask, bind_eq_ok_iff] at hprepared
    obtain ⟨_, -, _, -, _, -, _, -, _, -, _, -, _, -, tags, htags, hprepared⟩ := hprepared
    cases hprepared
    exact normalizeTags_again htags
  have hwritten := createTaskRow_tidied h.begin hcreated htags
  cases hdate : prepared.planDate with
  | none =>
      rw [hdate] at hplan
      cases hplan
      exact hwritten
  | some planDate =>
      rw [hdate] at hplan
      exact hwritten.create hplan trivial

/-- The patch of a task as it is logged, with tags that were normalized. -/
theorem tidy_taskPatch {patch : TaskPatch}
    (h : ∀ tags, patch.tags = some tags → normalizeTags texts tags = .ok tags) :
    Each (TidyTags texts) patch.data := by
  apply each_present
  have htags : ∀ value, patch.tags.map tagsJson = some value → TidyTags texts "tags" value := by
    intro value hvalue
    obtain ⟨tags, hsome, rfl⟩ := Option.map_eq_some_iff.mp hvalue
    exact tidyTags_tagsJson (h tags hsome) "tags"
  simpa [TidyTags] using htags

theorem patchTask_tidied (h : Tidied texts store) {id : String} {patch : TaskPatch} {task : Task}
    (hpatch : patchTask texts supply store id patch = .ok (task, tx)) : Tidied texts tx.store := by
  simp only [patchTask, bind_eq_ok_iff] at hpatch
  obtain ⟨_, -, _, -, current, hcurrent, title, htitle, _, -, _, -, tags, htags, _, -, _, -, _, -, _, -, _, -, _,
    -, _, -, _, -, saved, hsave, hpatch⟩ := hpatch
  cases hpatch
  have hold := h.task (Option.filter_eq_some_iff.mp (orNotFound_ok hcurrent)).1
  have hnewTitle : ¬ Blank title := by
    refine patched_holds (fun title => ¬ Blank title) htitle hold.1 fun given hgiven => ?_
    obtain ⟨value, -, hclean⟩ := bind_eq_ok_iff.mp hgiven
    exact not_blank_of_cleanTitle hclean
  have hnewTags : normalizeTags texts tags = .ok tags :=
    patched_holds (fun tags => normalizeTags texts tags = .ok tags) htags hold.2
      fun _ hgiven => normalizeTags_again hgiven
  refine h.begin.save hsave ⟨hnewTitle, hnewTags⟩ fun _ => tidy_taskPatch fun logged hlogged => ?_
  obtain ⟨_, -, rfl⟩ := Option.map_eq_some_iff.mp hlogged
  exact hnewTags

theorem commitCompletion_tidied (h : Tidied texts store) {taskId completedAt : String} {nextTask : Option Task}
    {done : Task × Option Task}
    (hcommit : commitCompletion texts supply store taskId completedAt nextTask = .ok (done, tx))
    (hnext : ∀ next, nextTask = some next → normalizeTags texts next.tags = .ok next.tags) :
    Tidied texts tx.store := by
  simp only [commitCompletion, bind_eq_ok_iff] at hcommit
  obtain ⟨_, -, _, -, _, -, current, hcurrent, _, -, saved, hsave, written, hwrite, hcommit⟩ := hcommit
  cases hcommit
  have hold := h.task (Option.filter_eq_some_iff.mp (orNotFound_ok hcurrent)).1
  have hsaved : Tidied texts saved.store :=
    h.begin.save hsave hold fun _ => tidy_of_names (by simp)
  cases nextTask with
  | none =>
      cases hwrite
      exact hsaved
  | some next => exact createTaskRow_tidied hsaved hwrite (hnext next rfl)

theorem deleteTask_tidied (h : Tidied texts store) {id : String}
    (hdelete : deleteTask supply store id = .ok tx) : Tidied texts tx.store := by
  obtain ⟨_, -, hdelete⟩ := bind_eq_ok_iff.mp hdelete
  split at hdelete
  · cases hdelete
    exact h
  · rename_i task hlive
    have hrow := h.task (Option.filter_eq_some_iff.mp hlive).1
    exact h.begin.save hdelete hrow fun _ => each_nil

theorem restoreTask_tidied (h : Tidied texts store) {id : String}
    (hrestore : restoreTask supply store id = .ok tx) : Tidied texts tx.store := by
  obtain ⟨_, -, hrestore⟩ := bind_eq_ok_iff.mp hrestore
  split at hrestore
  · cases hrestore
    exact h
  · rename_i task hdeleted
    have hrow := h.task (Option.filter_eq_some_iff.mp hdeleted).1
    exact h.begin.save hrestore hrow fun _ => each_nil

theorem reorderTask_tidied (h : Tidied texts store) {id direction : String}
    (hreorder : reorderTask supply store id direction = .ok tx) : Tidied texts tx.store := by
  obtain ⟨_, -, hreorder⟩ := bind_eq_ok_iff.mp hreorder
  obtain ⟨_, -, hreorder⟩ := bind_eq_ok_iff.mp hreorder
  obtain ⟨current, hcurrent, hreorder⟩ := bind_eq_ok_iff.mp hreorder
  split at hreorder
  · cases hreorder
    exact h
  · rename_i other htarget
    have hrow := h.task (Option.filter_eq_some_iff.mp (orNotFound_ok hcurrent)).1
    have hother : TidyRow texts (.task other) := h.rows _ _ (find_of_mem_siblings (reorderTarget_ok htarget).1)
    obtain ⟨first, hfirst, hreorder⟩ := bind_eq_ok_iff.mp hreorder
    obtain ⟨second, hsecond, hreorder⟩ := bind_eq_ok_iff.mp hreorder
    obtain ⟨logged, hlogged, hreorder⟩ := bind_eq_ok_iff.mp hreorder
    have hrank : ∀ rank, Each (TidyTags texts) [("rank", rank)] := fun _ => tidy_of_names (by simp)
    have hwritten := (h.begin.write hfirst hrow).write hsecond hother
    exact (hwritten.appendMutation hlogged fun _ => hrank _).appendMutation hreorder fun _ => hrank _

theorem addToDay_tidied (h : Tidied texts store) {taskId date : String}
    (hadd : addToDay texts supply store taskId date = .ok tx) : Tidied texts tx.store := by
  obtain ⟨_, -, hadd⟩ := bind_eq_ok_iff.mp hadd
  obtain ⟨_, -, hadd⟩ := bind_eq_ok_iff.mp hadd
  obtain ⟨_, -, hadd⟩ := bind_eq_ok_iff.mp hadd
  split at hadd
  · exact h.begin.create hadd trivial
  · split at hadd
    · exact h.begin.save hadd trivial nofun
    · cases hadd
      exact h

theorem removeFromDay_tidied (h : Tidied texts store) {taskId date : String}
    (hremove : removeFromDay texts supply store taskId date = .ok tx) : Tidied texts tx.store := by
  obtain ⟨_, -, hremove⟩ := bind_eq_ok_iff.mp hremove
  obtain ⟨_, -, hremove⟩ := bind_eq_ok_iff.mp hremove
  split at hremove
  · cases hremove
    exact h
  · exact h.begin.save hremove trivial nofun

theorem createStep_tidied (h : Tidied texts store) {taskId title : String} {step : Step}
    (hcreate : createStep supply store taskId title = .ok (step, tx)) : Tidied texts tx.store := by
  obtain ⟨_, -, hcreate⟩ := bind_eq_ok_iff.mp hcreate
  obtain ⟨_, -, hcreate⟩ := bind_eq_ok_iff.mp hcreate
  obtain ⟨_, -, hcreate⟩ := bind_eq_ok_iff.mp hcreate
  obtain ⟨created, hcreated, hcreate⟩ := bind_eq_ok_iff.mp hcreate
  cases hcreate
  exact h.begin.create hcreated trivial

theorem patchStep_tidied (h : Tidied texts store) {id : String} {patch : StepPatch} {step : Step}
    (hpatch : patchStep supply store id patch = .ok (step, tx)) : Tidied texts tx.store := by
  simp only [patchStep, bind_eq_ok_iff] at hpatch
  obtain ⟨_, -, _, -, _, -, _, -, _, -, _, -, saved, hsave, hpatch⟩ := hpatch
  cases hpatch
  exact h.begin.save hsave trivial fun htask => by cases htask

theorem deleteStep_tidied (h : Tidied texts store) {id : String}
    (hdelete : deleteStep supply store id = .ok tx) : Tidied texts tx.store := by
  obtain ⟨_, -, hdelete⟩ := bind_eq_ok_iff.mp hdelete
  split at hdelete
  · cases hdelete
    exact h
  · exact h.begin.save hdelete trivial nofun

/-- A row of a sound bundle is stored tidy. -/
theorem tidy_storedRow {bundle : ExportBundle} (hsound : bundle.Sound) {stored : Row} (hrow : row ∈ bundle.rows)
    (hstored : storedRow texts row = .ok stored) : TidyRow texts stored := by
  cases row with
  | list list =>
      cases hstored
      have hlist : list ∈ bundle.lists := by simpa [ExportBundle.rows] using hrow
      exact cleanListName_succeeds_iff.mp (hsound.names list hlist)
  | task task =>
      obtain ⟨tags, htags, hstored⟩ := bind_eq_ok_iff.mp hstored
      cases hstored
      have htask : task ∈ bundle.tasks := by simpa [ExportBundle.rows] using hrow
      exact ⟨cleanTitle_succeeds_iff.mp (hsound.titles task htask), normalizeTags_again htags⟩
  | step step =>
      cases hstored
      trivial
  | dayPlan plan =>
      cases hstored
      trivial

theorem tidied_clear : Tidied texts store.clear where
  rows key row hfind := by cases (Tables.find_empty key).symm.trans hfind
  outbox _ hrow := by cases hrow
  shadow _ _ hlookup := by cases hlookup

/-- An import checks the tags of every task, and stores them normalized. -/
theorem importData_tidied (h : Tidied texts store) {bundle : ExportBundle} {mode : ImportMode}
    (himport : importData texts supply store bundle mode = .ok tx) : Tidied texts tx.store := by
  obtain ⟨hsound, hloop⟩ := importData_ok_iff.mp himport
  have hstart : Tidied texts (importStart store mode).begin.store := by
    cases mode with
    | merge => exact h
    | replace => exact tidied_clear
  refine tidied_foldlM (fun row hrow tx after htx hone => ?_) hstart hloop
  obtain ⟨stored, hstored, hsave⟩ := bind_eq_ok_iff.mp hone
  have htidy := tidy_storedRow hsound hrow hstored
  exact htx.save hsave htidy htidy.data

/-- What the task that follows a completed one has to come with. -/
def LocalOp.TidyNext (texts : Texts) : LocalOp → Prop
  | .commitCompletion _ _ (some next) => normalizeTags texts next.tags = .ok next.tags
  | _ => True

theorem perform_tidied (h : Tidied texts store) {op : LocalOp} (hnext : op.TidyNext texts)
    (hperform : op.perform texts supply store = .ok tx) : Tidied texts tx.store := by
  cases op with
  | createList input =>
      rw [LocalOp.perform] at hperform
      obtain ⟨⟨list, tx⟩, hcreate, rfl⟩ := map_eq_ok_iff.mp hperform
      exact createList_tidied h hcreate
  | patchList id patch =>
      rw [LocalOp.perform] at hperform
      obtain ⟨⟨list, tx⟩, hpatch, rfl⟩ := map_eq_ok_iff.mp hperform
      exact patchList_tidied h hpatch
  | deleteList id => exact deleteList_tidied h hperform
  | restoreList id => exact restoreList_tidied h hperform
  | createTask input =>
      rw [LocalOp.perform] at hperform
      obtain ⟨⟨task, tx⟩, hcreate, rfl⟩ := map_eq_ok_iff.mp hperform
      exact createTask_tidied h hcreate
  | patchTask id patch =>
      rw [LocalOp.perform] at hperform
      obtain ⟨⟨task, tx⟩, hpatch, rfl⟩ := map_eq_ok_iff.mp hperform
      exact patchTask_tidied h hpatch
  | commitCompletion taskId completedAt nextTask =>
      rw [LocalOp.perform] at hperform
      obtain ⟨⟨done, tx⟩, hcommit, rfl⟩ := map_eq_ok_iff.mp hperform
      refine commitCompletion_tidied h hcommit fun next hsome => ?_
      subst hsome
      exact hnext
  | deleteTask id => exact deleteTask_tidied h hperform
  | restoreTask id => exact restoreTask_tidied h hperform
  | reorderTask id direction => exact reorderTask_tidied h hperform
  | addToDay taskId date => exact addToDay_tidied h hperform
  | removeFromDay taskId date => exact removeFromDay_tidied h hperform
  | createStep taskId title =>
      rw [LocalOp.perform] at hperform
      obtain ⟨⟨step, tx⟩, hcreate, rfl⟩ := map_eq_ok_iff.mp hperform
      exact createStep_tidied h hcreate
  | patchStep id patch =>
      rw [LocalOp.perform] at hperform
      obtain ⟨⟨step, tx⟩, hpatch, rfl⟩ := map_eq_ok_iff.mp hperform
      exact patchStep_tidied h hpatch
  | deleteStep id => exact deleteStep_tidied h hperform
  | importData bundle mode => exact importData_tidied h hperform

end

end ShishiTodo.Native
