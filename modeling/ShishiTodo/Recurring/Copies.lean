import ShishiTodo.Recurring.Marks
import ShishiTodo.Native.LiveLists

/-!
# The copies of a task on a device

The rows, the outbox and the server's copies of a store say of each task what its mark does. A local operation keeps that when the task it inserts fits its mark, and an answer of the server when its changes do.
-/

namespace ShishiTodo.Recurring

open Lib Native Sync

section

variable (env : Env) (texts : Texts) (mark : String → Mark)

/-- The identifier is spelled as the server spells it. -/
def Spelled (id : String) : Prop := ∃ task : Uuid, env.uuid.render task = id

def TasksBear (tables : Tables) : Prop :=
  ∀ id task, tables.tasks.lookup id = some task → Spelled env id ∧ RowBears env (mark id) task

def MutationBears (row : OutboxRow) : Prop :=
  row.entity = .task → Spelled env row.entityId ∧ Bears env (wire texts) (mark row.entityId) row.patch

def ShadowBears (shadow : Table RowKey ShadowRow) : Prop :=
  ∀ id copy, shadow.lookup (.task, id) = some copy →
    Spelled env id ∧ Bears env columns (mark id) copy.payload

structure StoreBears (store : Store) : Prop where
  tasks : TasksBear env mark store.rows.val
  outbox : ∀ row ∈ store.outbox.values, MutationBears env texts mark row
  shadow : ShadowBears env mark store.shadow

/-- The marks that are there stay. -/
def Extends (later : String → Mark) : Prop := ∀ id, mark id = .blank ∨ later id = mark id

end

variable {env : Env} {texts : Texts} {mark later : String → Mark} {store : Store} {supply : Supply}
  {tx after : Tx}

theorem Extends.bears (h : Extends mark later) {names : Names} {id : String} {data : Data}
    (hdata : Bears env names (mark id) data) : Bears env names (later id) data := by
  rcases h id with hblank | hsame
  · rw [hblank] at hdata
    exact fun member hmember => (hdata member hmember).of_blank
  · rwa [hsame]

theorem Extends.rowBears (h : Extends mark later) {id : String} {task : Task}
    (htask : RowBears env (mark id) task) : RowBears env (later id) task := by
  rcases h id with hblank | hsame
  · rw [hblank] at htask
    exact htask.of_blank
  · rwa [hsame]

theorem Extends.mutationBears (h : Extends mark later) {row : OutboxRow}
    (hrow : MutationBears env texts mark row) : MutationBears env texts later row :=
  fun hentity => ⟨(hrow hentity).1, h.bears (hrow hentity).2⟩

theorem StoreBears.extend (h : StoreBears env texts mark store) (hlater : Extends mark later) :
    StoreBears env texts later store where
  tasks id task hlookup := ⟨(h.tasks id task hlookup).1, hlater.rowBears (h.tasks id task hlookup).2⟩
  outbox row hrow := hlater.mutationBears (h.outbox row hrow)
  shadow id copy hlookup := ⟨(h.shadow id copy hlookup).1, hlater.bears (h.shadow id copy hlookup).2⟩

theorem storeBears_open (deviceId : String) (enabled : Bool) :
    StoreBears env texts mark (syncSetEnabled (.open deviceId) enabled) where
  tasks _ _ hlookup := by cases hlookup
  outbox _ hrow := by cases hrow
  shadow _ _ hlookup := by cases hlookup

/-! ### Writing rows -/

theorem TasksBear.put {tables : Tables} (h : TasksBear env mark tables) {row : Row}
    (hrow : ∀ task, row = .task task → Spelled env task.id ∧ RowBears env (mark task.id) task) :
    TasksBear env mark (tables.put row) := by
  cases row with
  | task written =>
      intro id task hlookup
      rw [Tables.put, Table.lookup_insert_eq_ite] at hlookup
      split at hlookup
      · rename_i heq
        cases hlookup
        rw [heq]
        exact hrow _ rfl
      · exact h id task hlookup
  | list => exact h
  | step => exact h
  | dayPlan => exact h

theorem StoreBears.withRows (h : StoreBears env texts mark tx.store) {rows : Rows}
    (hrows : TasksBear env mark rows.val) : StoreBears env texts mark (tx.withRows rows).store where
  tasks := hrows
  outbox := h.outbox
  shadow := h.shadow

theorem StoreBears.withMutation (h : StoreBears env texts mark tx.store) {row : OutboxRow}
    (hrow : MutationBears env texts mark row) : StoreBears env texts mark (tx.withMutation row).store where
  tasks := h.tasks
  outbox other hother := by
    rcases Table.mem_values_insert hother with rfl | hold
    · exact hrow
    · exact h.outbox other hold
  shadow := h.shadow

theorem StoreBears.save (h : StoreBears env texts mark tx.store) {row : Row} {kind : MutationKind}
    {patch : Data} (hsave : tx.save supply row kind patch = .ok after)
    (hrow : ∀ task, row = .task task → Spelled env task.id ∧ RowBears env (mark task.id) task ∧
      Bears env (wire texts) (mark task.id) patch) : StoreBears env texts mark after.store := by
  obtain ⟨-, hconsistent, rfl⟩ := Tx.save_ok hsave
  apply StoreBears.withMutation
  · apply h.withRows
    exact h.tasks.put fun task htask => ⟨(hrow task htask).1, (hrow task htask).2.1⟩
  · intro hentity
    cases row with
    | task task => exact ⟨(hrow task rfl).1, (hrow task rfl).2.2⟩
    | list => cases hentity
    | step => cases hentity
    | dayPlan => cases hentity

theorem StoreBears.create (h : StoreBears env texts mark tx.store) {row : Row}
    (hcreate : tx.create supply row = .ok after)
    (hrow : ∀ task, row = .task task → Spelled env task.id ∧ RowBears env (mark task.id) task) :
    StoreBears env texts mark after.store := by
  apply h.save (Tx.create_ok hcreate).2
  rintro task rfl
  exact ⟨(hrow task rfl).1, (hrow task rfl).2, (hrow task rfl).2.bears⟩

/-! ### Local operations -/

/-- A live task is a row under its own identifier. -/
theorem StoreBears.liveTask (h : StoreBears env texts mark store) {id : String} {task : Task}
    (hlive : store.liveTask id = some task) :
    task.id = id ∧ Spelled env task.id ∧ RowBears env (mark task.id) task := by
  obtain ⟨hlookup, -⟩ := Option.filter_eq_some_iff.mp hlive
  have hid : task.id = id := congrArg Prod.snd (store.rows.property.keyed (.task, id) (.task task)
    (by rw [Tables.find, hlookup]; rfl))
  rw [hid]
  exact ⟨rfl, h.tasks id task hlookup⟩

/-- The same task with other columns. -/
theorem RowBears.of_same {mark : Mark} {task other : Task} (h : RowBears env mark task)
    (hseries : other.seriesId = task.seriesId) (hkey : other.occurrenceKey = task.occurrenceKey) :
    RowBears env mark other where
  series text htext := h.series text (hseries ▸ htext)
  key text htext := h.key text (hkey ▸ htext)

theorem mem_present {fields : List (String × Option Json)} {member : String × Json}
    (h : member ∈ present fields) : member.1 ∈ fields.map Prod.fst := by
  induction fields with
  | nil => cases h
  | cons field rest ih =>
      obtain ⟨name, value⟩ := field
      cases value with
      | none => exact List.mem_cons_of_mem _ (ih h)
      | some value =>
          rcases List.mem_cons.mp h with rfl | hrest
          · exact List.mem_cons_self
          · exact List.mem_cons_of_mem _ (ih hrest)

/-- A patch of a task cannot name its occurrence. -/
theorem bears_taskPatch {mark : Mark} (patch : Native.TaskPatch) : Bears env (wire texts) mark patch.data := by
  have hnames : ∀ name ∈ ["title", "listId", "note", "tags", "status", "important", "dueOn", "remindAt",
      "remindTimezone", "recurrence", "rank", "completedAt"], otherName name = true := by
    decide
  exact bears_of_otherNames fun member hmember => hnames _ (mem_present hmember)

theorem createTaskRow_bears (h : StoreBears env texts mark tx.store) {task : Task}
    (hcreate : createTaskRow supply tx task = .ok after) (hid : Spelled env task.id)
    (hrow : RowBears env (mark task.id) task) : StoreBears env texts mark after.store := by
  obtain ⟨_, -, hcreate⟩ := bind_eq_ok_iff.mp hcreate
  obtain ⟨_, -, hcreate⟩ := bind_eq_ok_iff.mp hcreate
  apply h.create hcreate
  intro written hwritten
  cases hwritten
  exact ⟨hid, hrow⟩

/-- A new task has no series, and its date for a key. -/
theorem createTask_bears (h : StoreBears env texts mark store) {input : NewTask} {created : Task × Tx}
    (hcreate : Native.createTask texts supply store input = .ok created) (hid : Spelled env supply.id)
    (hmark : mark supply.id = ⟨none, input.dueOn⟩) : StoreBears env texts mark created.2.store := by
  obtain ⟨prepared, hprepared, hcreate⟩ := bind_eq_ok_iff.mp hcreate
  have hdue : prepared.dueOn = input.dueOn := by
    simp only [prepareNewTask, bind_eq_ok_iff] at hprepared
    obtain ⟨_, -, _, -, _, -, _, -, _, -, _, -, _, -, _, -, hprepared⟩ := hprepared
    cases hprepared
    rfl
  obtain ⟨_, -, hcreate⟩ := bind_eq_ok_iff.mp hcreate
  obtain ⟨written, hwrite, hcreate⟩ := bind_eq_ok_iff.mp hcreate
  obtain ⟨planned, hplan, hcreate⟩ := bind_eq_ok_iff.mp hcreate
  cases hcreate
  have hwritten : StoreBears env texts mark written.store := by
    apply createTaskRow_bears h hwrite hid
    show RowBears env (mark supply.id) _
    rw [hmark, ← hdue]
    exact ⟨fun text htext => (nomatch htext), fun text htext => htext⟩
  cases hdate : prepared.planDate with
  | none =>
      rw [hdate] at hplan
      cases hplan
      exact hwritten
  | some planDate =>
      rw [hdate] at hplan
      exact hwritten.create hplan fun task htask => (nomatch htask)

theorem patchTask_bears (h : StoreBears env texts mark store) {id : String} {patch : Native.TaskPatch}
    {patched : Task × Tx} (hpatch : Native.patchTask texts supply store id patch = .ok patched) :
    StoreBears env texts mark patched.2.store := by
  simp only [Native.patchTask, bind_eq_ok_iff] at hpatch
  obtain ⟨_, -, _, -, current, hcurrent, _, -, _, -, _, -, _, -, _, -, _, -, _, -, _, -, _, -, _, -, _, -, _, -,
    saved, hsave, hpatch⟩ := hpatch
  cases hpatch
  obtain ⟨-, hid, hrow⟩ := h.liveTask (orNotFound_ok hcurrent)
  apply h.save hsave
  intro task htask
  cases htask
  exact ⟨hid, hrow.of_same rfl rfl, bears_taskPatch _⟩

theorem deleteTask_bears (h : StoreBears env texts mark store) {id : String}
    (hdelete : Native.deleteTask supply store id = .ok after) : StoreBears env texts mark after.store := by
  obtain ⟨_, -, hdelete⟩ := bind_eq_ok_iff.mp hdelete
  split at hdelete
  · cases hdelete
    exact h
  · rename_i task hlive
    obtain ⟨-, hid, hrow⟩ := h.liveTask hlive
    apply h.save hdelete
    intro written hwritten
    cases hwritten
    exact ⟨hid, hrow.of_same rfl rfl, bears_nil⟩

theorem restoreTask_bears (h : StoreBears env texts mark store) {id : String}
    (hrestore : Native.restoreTask supply store id = .ok after) :
    StoreBears env texts mark after.store := by
  obtain ⟨_, -, hrestore⟩ := bind_eq_ok_iff.mp hrestore
  split at hrestore
  · cases hrestore
    exact h
  · rename_i task hdeleted
    have hlookup := (Option.filter_eq_some_iff.mp hdeleted).1
    have hid : task.id = id := congrArg Prod.snd (store.rows.property.keyed (.task, id) (.task task)
      (by rw [Tables.find, hlookup]; rfl))
    obtain ⟨hspelled, hrow⟩ := h.tasks id task hlookup
    apply h.save hrestore
    intro written hwritten
    cases hwritten
    rw [hid]
    exact ⟨hspelled, hrow.of_same rfl rfl, bears_nil⟩

theorem commitCompletion_bears (h : StoreBears env texts mark store) {taskId completedAt : String}
    {nextTask : Option Task} {done : (Task × Option Task) × Tx}
    (hcommit : Native.commitCompletion texts supply store taskId completedAt nextTask = .ok done)
    (hnext : ∀ next, nextTask = some next → Spelled env next.id ∧ RowBears env (mark next.id) next) :
    StoreBears env texts mark done.2.store := by
  simp only [Native.commitCompletion, bind_eq_ok_iff] at hcommit
  obtain ⟨_, -, _, -, _, -, current, hcurrent, _, -, saved, hsave, written, hwrite, hcommit⟩ := hcommit
  cases hcommit
  obtain ⟨-, hid, hrow⟩ := h.liveTask (orNotFound_ok hcurrent)
  have hnames : ∀ name ∈ ["status", "completedAt"], otherName name = true := by
    decide
  have hsaved : StoreBears env texts mark saved.store := by
    apply h.save hsave
    intro task htask
    cases htask
    refine ⟨hid, hrow.of_same rfl rfl, bears_of_otherNames fun member hmember => hnames _ ?_⟩
    exact List.mem_map_of_mem hmember
  cases nextTask with
  | none =>
      cases hwrite
      exact hsaved
  | some next => exact createTaskRow_bears hsaved hwrite (hnext next rfl).1 (hnext next rfl).2

end ShishiTodo.Recurring
