import ShishiTodo.Native.Emissions
import ShishiTodo.Native.Explained
import ShishiTodo.Web.Operations

/-!
# What the stores send

The browser logs as the native store does, one operation apart: the creation of the task that follows a completed one holds every member that the object has, and the service hands over an object with the steps and the days of the task. The server refuses those two fields.
-/

namespace ShishiTodo.Web

open Lib Native Sync Recurring

/-! ### The operations of the browser -/

/-- Every edit of the operation may be logged. -/
def Written.Logged (written : Written) : Prop :=
  ∀ edit ∈ written.edits, Loggable edit.entity edit.kind edit.patch

section

variable {texts : Texts} {beyond : Int → Option String} {supply : Supply} {db : Db} {written : Written}

theorem logged_unwritten (db : Db) : db.unwritten.Logged := fun _ hedit => absurd hedit List.not_mem_nil

theorem logged_one {rows : Tables} {edit : Edit} (h : Loggable edit.entity edit.kind edit.patch) :
    Written.Logged ⟨rows, [edit]⟩ := by
  intro found hfound
  rw [List.mem_singleton.mp hfound]
  exact h

theorem logged_two {rows : Tables} {first second : Edit}
    (hfirst : Loggable first.entity first.kind first.patch)
    (hsecond : Loggable second.entity second.kind second.patch) :
    Written.Logged ⟨rows, [first, second]⟩ := by
  intro found hfound
  rcases List.mem_cons.mp hfound with rfl | hfound
  · exact hfirst
  · rw [List.mem_singleton.mp hfound]
    exact hsecond

theorem logged_created (row : Row) : (db.wrote supply row .create row.data).Logged :=
  logged_one (loggable_data row nofun)

theorem createTask_logged {input : PreparedNewTask} (h : db.createTask texts beyond supply input = .ok written) :
    written.Logged := by
  obtain ⟨_, -, h⟩ := bind_eq_ok_iff.mp h
  split at h
  · cases h
    exact logged_created (.task _)
  · cases h
    exact logged_two (loggable_data (.task _) nofun) (loggable_data (.dayPlan _) nofun)

theorem patchTask_logged {id : String} {validated : TaskPatch}
    (h : db.patchTask supply id validated = .ok written) : written.Logged := by
  obtain ⟨current, -, h⟩ := bind_eq_ok_iff.mp h
  obtain ⟨_, -, h⟩ := bind_eq_ok_iff.mp h
  cases h
  exact logged_one (loggable_taskPatch _ _ _ _ _ _ _ _ _ _ _ _)

theorem deleteTask_logged (id : String) : (db.deleteTask supply id).Logged := by
  rw [Db.deleteTask]
  split
  · exact logged_unwritten db
  · exact logged_one loggable_nil

theorem restoreTask_logged (id : String) : (db.restoreTask supply id).Logged := by
  rw [Db.restoreTask]
  split
  · exact logged_unwritten db
  · exact logged_one loggable_nil

theorem moveTask_logged (id direction : String) : (db.moveTask supply id direction).Logged := by
  rw [Db.moveTask]
  split
  · exact logged_unwritten db
  · split
    · exact logged_unwritten db
    · exact logged_two (loggable_rank _) (loggable_rank _)

theorem createList_logged {input : NewList} (h : db.createList beyond supply input = .ok written) :
    written.Logged := by
  obtain ⟨made, -, h⟩ := bind_eq_ok_iff.mp h
  cases h
  exact logged_created (.list _)

theorem patchList_logged {id : String} {patch : ListPatch} (h : db.patchList supply id patch = .ok written) :
    written.Logged := by
  obtain ⟨current, -, h⟩ := bind_eq_ok_iff.mp h
  cases h
  exact logged_one (loggable_listPatch _ _ _ _)

theorem deleteList_logged (id : String) : (db.deleteList supply id).Logged := by
  rw [Db.deleteList]
  split
  · exact logged_unwritten db
  · intro found hfound
    rcases List.mem_cons.mp hfound with rfl | hfound
    · exact loggable_nil
    · obtain ⟨⟨task, number⟩, -, rfl⟩ := List.mem_map.mp hfound
      exact loggable_listId .null

theorem restoreList_logged (id : String) : (db.restoreList supply id).Logged := by
  rw [Db.restoreList]
  split
  · exact logged_unwritten db
  · exact logged_one loggable_nil

theorem addToDay_logged {taskId date : String} (h : db.addToDay beyond supply taskId date = .ok written) :
    written.Logged := by
  obtain ⟨_, -, h⟩ := bind_eq_ok_iff.mp h
  split at h
  · split at h
    · cases h
      exact logged_one loggable_nil
    · cases h
      exact logged_unwritten db
  · cases h
    exact logged_created (.dayPlan _)

theorem removeFromDay_logged (taskId date : String) : (db.removeFromDay supply taskId date).Logged := by
  rw [Db.removeFromDay]
  split
  · exact logged_unwritten db
  · exact logged_one loggable_nil

theorem createStep_logged {taskId title : String} (h : db.createStep beyond supply taskId title = .ok written) :
    written.Logged := by
  obtain ⟨_, -, h⟩ := bind_eq_ok_iff.mp h
  obtain ⟨_, -, h⟩ := bind_eq_ok_iff.mp h
  cases h
  exact logged_created (.step _)

theorem patchStep_logged {id : String} {patch : StepPatch} (h : db.patchStep supply id patch = .ok written) :
    written.Logged := by
  obtain ⟨current, -, h⟩ := bind_eq_ok_iff.mp h
  cases h
  exact logged_one (loggable_stepPatch _ _ _)

theorem deleteStep_logged (id : String) : (db.deleteStep supply id).Logged := by
  rw [Db.deleteStep]
  split
  · exact logged_unwritten db
  · exact logged_one loggable_nil

/-- What a completion logs: the completion, and the next task with all its members. -/
theorem commitCompletion_edits {commit : CompletionCommit} (h : db.commitCompletion supply commit = .ok written) :
    (db.liveTask commit.taskId).isSome ∧ ∃ completion : Edit, completion.entity = .task ∧
      completion.kind = .patch ∧
      completion.patch = [("status", statusJson .completed), ("completedAt", .str commit.completedAt)] ∧
      written.edits = completion :: (commit.nextTask.map fun next =>
        { edit supply 2 (.task, next.task.id) .create next.data with now := next.task.updatedAt }).toList := by
  obtain ⟨current, hcurrent, h⟩ := bind_eq_ok_iff.mp h
  refine ⟨Option.isSome_iff_exists.mpr ⟨current, orNotFound_ok hcurrent⟩, ?_⟩
  dsimp only at h
  cases hnext : commit.nextTask with
  | none =>
      rw [hnext] at h
      cases h
      exact ⟨_, rfl, rfl, rfl, rfl⟩
  | some next =>
      rw [hnext] at h
      cases h
      exact ⟨_, rfl, rfl, rfl, rfl⟩

/-- An object with no other name than those of a task is a task. -/
theorem others_eq_nil {next : Spread} (h : ∀ name ∈ fieldNames next.data,
    name ∈ Native.mutableFields .task ∨ name ∈ localOnlyFields) : next.others = [] := by
  have hnames : ∀ name, name ∈ Native.mutableFields .task ∨ name ∈ localOnlyFields →
      name ∈ fieldNames next.task.data := by
    intro name hname
    rw [fieldNames_task]
    revert name
    simp only [or_imp, forall_and]
    decide
  rw [List.eq_nil_iff_forall_not_mem]
  intro member hmember
  have hother : member.1 ∈ fieldNames next.others := List.mem_map_of_mem hmember
  have hfield : member.1 ∈ fieldNames next.data := by
    rw [fieldNames, Spread.data, List.map_append]
    exact List.mem_append_right _ hother
  exact next.fresh _ hother (hnames _ (h _ hfield))

theorem loggable_next {next : Spread} (h : next.others = []) : Loggable .task .create next.data := by
  rw [Spread.data, h, List.append_nil]
  exact loggable_data (.task next.task) nofun

theorem commitCompletion_logged {commit : CompletionCommit} (h : db.commitCompletion supply commit = .ok written)
    (hplain : ∀ next ∈ commit.nextTask, next.others = []) : written.Logged := by
  obtain ⟨-, completion, hentity, hkind, hpatch, hedits⟩ := commitCompletion_edits h
  intro found hfound
  rw [hedits, List.mem_cons] at hfound
  rcases hfound with rfl | hnext
  · rw [hentity, hkind, hpatch]
    exact loggable_completion _ _
  · rw [Option.mem_toList, Option.map_eq_some_iff] at hnext
    obtain ⟨next, hnext, rfl⟩ := hnext
    exact loggable_next (hplain next hnext)

/-- Every operation of the browser logs what may be logged, but the completion of a task with other members. -/
theorem perform_logged {op : LocalOp} (h : op.perform texts beyond supply db = .ok written)
    (hplain : ∀ commit, op = .commitCompletion commit → ∀ next ∈ commit.nextTask, next.others = []) :
    written.Logged := by
  cases op with
  | createTask input => exact createTask_logged h
  | patchTask id validated => exact patchTask_logged h
  | commitCompletion commit => exact commitCompletion_logged h (hplain commit rfl)
  | deleteTask id =>
      cases h
      exact deleteTask_logged id
  | restoreTask id =>
      cases h
      exact restoreTask_logged id
  | reorderTask id direction =>
      cases h
      exact moveTask_logged id direction
  | createList input => exact createList_logged h
  | patchList id patch => exact patchList_logged h
  | deleteList id =>
      cases h
      exact deleteList_logged id
  | restoreList id =>
      cases h
      exact restoreList_logged id
  | addToDay taskId date => exact addToDay_logged h
  | removeFromDay taskId date =>
      cases h
      exact removeFromDay_logged taskId date
  | createStep taskId title => exact createStep_logged h
  | patchStep id patch => exact patchStep_logged h
  | deleteStep id =>
      cases h
      exact deleteStep_logged id

/-! ### Joining an account -/

theorem fieldNames_mutablePatch (entity : EntityType) (value : Data) :
    (fieldNames (mutablePatch entity value)).Sublist (mutableFields entity) := by
  rw [fieldNames, mutablePatch]
  generalize mutableFields entity = names
  induction names with
  | nil => exact List.Sublist.slnil
  | cons name rest ih =>
      rw [List.filterMap_cons]
      cases value.lookup name with
      | none => exact ih.cons name
      | some found => exact ih.cons_cons name

theorem loggable_fullPatch (entity : EntityType) (value : Data) {kind : MutationKind} (hkind : kind ≠ .delete) :
    Loggable entity kind (fullPatch entity value) := by
  apply Native.loggable_fields (mutableFields entity) hkind (fieldNames_mutablePatch entity value)
  · cases entity <;> decide
  · cases entity <;> decide

theorem loggable_ops {snapshot : CloudSnapshot} {rows : List Row} {op : PreparedOp}
    (h : op ∈ ops snapshot rows) : Loggable op.key.1 op.kind op.patch := by
  obtain ⟨row, -, hop⟩ := List.mem_filterMap.mp h
  cases hverdict : mergeVerdict snapshot row <;> rw [hverdict] at hop <;> cases hop
  · exact loggable_fullPatch row.entity row.data nofun
  · exact loggable_nil
  · exact loggable_fullPatch row.entity row.data nofun
  · exact loggable_fullPatch row.entity row.data nofun

theorem syncInitializeCloud_logged {now : String} {opIds : Nat → String} {snapshot : CloudSnapshot}
    {mode : CloudMergeMode} {accountEmail : String} {sessionId : Option String} {uploaded : List OutboxRow}
    {after : Db}
    (h : syncInitializeCloud db now opIds snapshot mode accountEmail sessionId = .ok (uploaded, after)) :
    ∀ row ∈ uploaded, Loggable row.entity row.kind row.patch := by
  obtain ⟨_, -, h⟩ := bind_eq_ok_iff.mp h
  cases mode with
  | cloud =>
      cases h
      exact fun row hrow => absurd hrow List.not_mem_nil
  | merge =>
      cases h
      intro row hrow
      obtain ⟨⟨op, seq⟩, hop, rfl⟩ := List.mem_map.mp hrow
      have hop := List.fst_mem_of_mem_zipIdx hop
      obtain ⟨entity, -, hfiltered⟩ := List.mem_flatMap.mp hop
      exact loggable_ops (List.mem_filter.mp hfiltered).1

end

end ShishiTodo.Web

namespace ShishiTodo.Sync

open Lib Native

/-! ### What a store sends -/

/-- An operation of a client's store that may log something. -/
inductive StoreOp where
  | native (store : Store) (op : Native.LocalOp)
  | nativeJoin (store : Store) (request : CloudInitializeRequest)
  | web (db : Web.Db) (op : Web.LocalOp)
  | webJoin (db : Web.Db) (snapshot : CloudSnapshot) (mode : CloudMergeMode) (accountEmail : String)
      (sessionId : Option String)

/-- An operation of the outbox, as far as the wire is concerned. -/
structure Sent where
  entity : EntityType
  kind : MutationKind
  patch : Data
  deriving DecidableEq, Repr

def Sent.ofRow (row : OutboxRow) : Sent := ⟨row.entity, row.kind, row.patch⟩

def Sent.ofEdit (edit : Web.Edit) : Sent := ⟨edit.entity, edit.kind, edit.patch⟩

/-- What the operation logs; nothing when it fails. -/
def StoreOp.outbox (texts : Texts) (beyond : Int → Option String) (supply : Supply) : StoreOp → List Sent
  | .native store op =>
      match op.perform texts supply store with
      | .ok tx => tx.appended.map Sent.ofRow
      | .error _ => []
  | .nativeJoin store request =>
      match Native.syncInitializeCloud supply store request with
      | .ok (_, tx) => tx.appended.map Sent.ofRow
      | .error _ => []
  | .web db op =>
      match op.perform texts beyond supply db with
      | .ok written => written.edits.map Sent.ofEdit
      | .error _ => []
  | .webJoin db snapshot mode accountEmail sessionId =>
      match Web.syncInitializeCloud db supply.now (fun seq => supply.opId seq) snapshot mode accountEmail
          sessionId with
      | .ok (uploads, _) => uploads.map Sent.ofRow
      | .error _ => []

/-- No task is completed in the browser with a next task that has other members than a task has. -/
def StoreOp.Plain : StoreOp → Prop
  | .web db (.commitCompletion commit) =>
      (db.liveTask commit.taskId).isSome → ∀ next ∈ commit.nextTask, next.others = []
  | _ => True

/-- The wire takes what the operation logs to the server and back, and every change of the server back to the stores. -/
def StoreOp.WiredFaithfully (texts : Texts) (beyond : Int → Option String) (supply : Supply) (op : StoreOp) :
    Prop :=
  (∀ sent ∈ op.outbox texts beyond supply, WireFaithful texts sent.entity sent.kind sent.patch) ∧
    ∀ entity change, ServerNamed entity change → ReadBack texts entity change

section

variable {texts : Texts} {beyond : Int → Option String} {supply : Supply}

theorem StoreOp.loggable {op : StoreOp} (hplain : op.Plain) :
    ∀ sent ∈ op.outbox texts beyond supply, Loggable sent.entity sent.kind sent.patch := by
  intro sent hsent
  cases op with
  | native store op =>
      rw [outbox] at hsent
      split at hsent
      · rename_i tx htx
        obtain ⟨row, hrow, rfl⟩ := List.mem_map.mp hsent
        exact perform_logged htx row hrow
      · exact absurd hsent List.not_mem_nil
  | nativeJoin store request =>
      rw [outbox] at hsent
      split at hsent
      · rename_i count tx htx
        obtain ⟨row, hrow, rfl⟩ := List.mem_map.mp hsent
        exact syncInitializeCloud_logged htx row hrow
      · exact absurd hsent List.not_mem_nil
  | web db op =>
      rw [outbox] at hsent
      split at hsent
      · rename_i written hwritten
        obtain ⟨edit, hedit, rfl⟩ := List.mem_map.mp hsent
        refine Web.perform_logged hwritten ?_ edit hedit
        rintro commit rfl
        exact hplain (Web.commitCompletion_edits hwritten).1
      · exact absurd hsent List.not_mem_nil
  | webJoin db snapshot mode accountEmail sessionId =>
      rw [outbox] at hsent
      split at hsent
      · rename_i uploads after huploads
        obtain ⟨row, hrow, rfl⟩ := List.mem_map.mp hsent
        exact Web.syncInitializeCloud_logged huploads row hrow
      · exact absurd hsent List.not_mem_nil

/-- The server knows no other member of a next task than those of a task. -/
theorem StoreOp.plain {op : StoreOp} (h : op.WiredFaithfully texts beyond supply) : op.Plain := by
  unfold Plain
  split
  · rename_i db commit
    intro hlive next hnext
    rw [Option.mem_def] at hnext
    obtain ⟨current, hcurrent⟩ := Option.isSome_iff_exists.mp hlive
    obtain ⟨written, hwritten⟩ : ∃ written, db.commitCompletion supply commit = .ok written := by
      rw [Web.Db.commitCompletion, hcurrent]
      simp only [orNotFound, hnext]
      exact ⟨_, rfl⟩
    obtain ⟨-, completion, -, -, -, hedits⟩ := Web.commitCompletion_edits hwritten
    have hlogged : ⟨.task, .create, next.data⟩ ∈
        (StoreOp.web db (.commitCompletion commit)).outbox texts beyond supply := by
      rw [outbox, Web.LocalOp.perform, hwritten]
      dsimp only
      rw [hedits, hnext]
      exact List.mem_cons_of_mem _ List.mem_cons_self
    exact Web.others_eq_nil (h.1 _ hlogged).known
  · exact trivial

/-- Everything that an operation logs goes to the server and back exactly when it does not complete a task in the browser and hand over a next task with other members than a task has. -/
theorem wiredFaithfully_iff (htexts : CapitalizesAscii texts) (op : StoreOp) :
    op.WiredFaithfully texts beyond supply ↔ op.Plain := by
  constructor
  · exact StoreOp.plain
  · intro hplain
    refine ⟨fun sent hmem => ?_, fun entity change hchange => hchange.readBack htexts⟩
    exact (StoreOp.loggable hplain sent hmem).wireFaithful htexts

end

theorem capitalizesAscii_utc : CapitalizesAscii Texts.utc := fun _ _ => rfl

theorem wiredFaithfully_createList :
    (StoreOp.native (Store.open "device") (.createList ⟨"Home", none, none⟩)).WiredFaithfully Texts.utc
      (fun _ => none) Web.sampleSupply :=
  (wiredFaithfully_iff capitalizesAscii_utc _).mpr trivial

/-- A browser with a daily task. -/
def dailyTask : Web.Db where
  rows := Tables.empty.put (.task {
    id := "daily"
    listId := none
    title := "Water the plants"
    note := ""
    tags := []
    status := .open
    important := false
    dueOn := some "2026-10-21"
    remindAt := none
    remindTimezone := none
    rank := "000001"
    seriesId := none
    occurrenceKey := some "2026-10-21"
    recurrence := some (.obj [("frequency", .str "daily")])
    completedAt := none
    createdAt := "2026-10-20T05:00:00.000Z"
    updatedAt := "2026-10-20T05:00:00.000Z"
    deletedAt := none })
  mutations := ∅
  shadow := ∅
  kv := ⟨"browser", 0, true, "0", "anna@example.org", false, none⟩

/-- The service completes the daily task, and the server will not take what the browser logs. -/
theorem next_task_refused : ∃ commit,
    Web.completeTask dailyTask "daily" ⟨"2026-10-21T05:00:00.000Z", "UTC", some "2026-10-21"⟩ "next" =
      .ok (some commit) ∧
    ¬ (StoreOp.web dailyTask (.commitCompletion commit)).WiredFaithfully Texts.utc (fun _ => none)
      Web.sampleSupply := by
  have hcommit : (Web.completeTask dailyTask "daily"
      ⟨"2026-10-21T05:00:00.000Z", "UTC", some "2026-10-21"⟩ "next").map
        (fun commit => commit.any fun commit => (dailyTask.liveTask commit.taskId).isSome &&
          commit.nextTask.isSome) = .ok true := by
    decide
  obtain ⟨found, hfound, hany⟩ := map_eq_ok_iff.mp hcommit
  obtain ⟨commit, rfl, hboth⟩ := (Option.any_eq_true _ _).mp hany
  obtain ⟨hlive, hsome⟩ := Bool.and_eq_true_iff.mp hboth
  obtain ⟨next, hnext⟩ := Option.isSome_iff_exists.mp hsome
  refine ⟨commit, hfound, fun hwired => ?_⟩
  have hnames := Web.others_of_completeTask hfound hnext
  rw [StoreOp.plain hwired hlive next hnext] at hnames
  cases hnames

end ShishiTodo.Sync
