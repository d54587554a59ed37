import ShishiTodo.Native.Snapshots
import ShishiTodo.Native.ServerResult

/-!
# Replacing the store's copy by a snapshot

`sync_replace_snapshot`: the tables are written anew from the snapshot with the pending operations replayed over it. A parent that is neither in the snapshot nor pending is not written, and its children are then refused or left out.
-/

namespace ShishiTodo.Native

open Lib

/-! ### The operation -/

/-- The entities of the pending rows. The groups are about different entities, so that their order is of no account. -/
def pendingKeys (store : Store) : List RowKey :=
  ((store.outbox.values.filter fun row => row.status == .pending).map OutboxRow.key).dedup

/-- What the pending operations are replayed over: the snapshot's value, or the local one. -/
def rebaseBase (store : Store) (snapshot : CloudSnapshot) (key : RowKey) : Data :=
  (((snapshot.find key).or (store.find key)).map Row.data).getD []

/-- The store with the snapshot as the server's copy. -/
def Store.withSnapshot (store : Store) (snapshot : CloudSnapshot) : Store := { store with
  shadow := shadowOfSnapshot snapshot
  kv := { store.kv with
    syncCursor := snapshot.cursor
    bootstrapRequired := false } }

section

variable (texts : Texts) (now : String) (store : Store) (snapshot : CloudSnapshot)

/-- The row of an entity once its pending operations are replayed. -/
def replayedRow (key : RowKey) : Row :=
  rowFromData texts key
    (projectedData key (rebaseBase store snapshot key) (pendingForEntity store.outbox key) now) now

/-- One turn of the loop over the groups. -/
def rebaseEntity (merged : Tables) (key : RowKey) : Tables :=
  let row := replayedRow texts now store snapshot key
  if snapshot.holdsSlot row then merged else merged.put row

/-- The snapshot with the pending operations over it. -/
def mergedWithPending : Tables :=
  (pendingKeys store).foldl (rebaseEntity texts now store snapshot) (.collect snapshot.rows)

def syncReplaceSnapshotFenced (sessionId : Option String) : StoreResult Store := do
  assertSyncSession store sessionId
  let tx ← writeMaterialized store.begin (mergedWithPending texts now store snapshot)
  return tx.store.withSnapshot snapshot

def syncReplaceSnapshot : StoreResult Store :=
  syncReplaceSnapshotFenced texts now store snapshot none

/-! ### What it is for -/

/-- The snapshot's value with the pending operations replayed over it. A plan whose slot the snapshot holds is dropped. -/
def rebasedRow (key : RowKey) : Option Row :=
  let row := replayedRow texts now store snapshot key
  if pendingForEntity store.outbox key = [] ∨ snapshot.holdsSlot row then snapshot.find key
  else some row

/-- The pending work is kept, over the copy that the server sent. -/
def KeepsPendingWork : Prop :=
  ∃ after, syncReplaceSnapshot texts now store snapshot = .ok after ∧
    after.outbox = store.outbox ∧
    (∀ key, after.shadow.lookup key = (snapshot.find key).map fun row => ⟨0, row.data⟩) ∧
    ∀ key, after.find key = rebasedRow texts now store snapshot key

end

/-! ### The merged rows -/

theorem mem_pendingKeys {store : Store} {key : RowKey} :
    key ∈ pendingKeys store ↔ pendingForEntity store.outbox key ≠ [] := by
  rw [pendingKeys, List.mem_dedup, List.mem_map, ← List.length_pos_iff_ne_nil,
    List.length_pos_iff_exists_mem]
  refine exists_congr fun row => ?_
  simp only [pendingForEntity, List.mem_insertionSort, List.mem_filter, Bool.and_eq_true, beq_iff_eq]
  constructor
  · rintro ⟨⟨hmem, hpending⟩, hkey⟩
    exact ⟨hmem, hkey, hpending⟩
  · rintro ⟨hmem, hkey, hpending⟩
    exact ⟨⟨hmem, hpending⟩, hkey⟩

section

variable {texts : Texts} {now : String} {store : Store} {snapshot : CloudSnapshot}

@[simp] theorem replayedRow_key (key : RowKey) : (replayedRow texts now store snapshot key).key = key :=
  rowFromData_key texts key _ now

theorem find_rebaseEntity (merged : Tables) (key other : RowKey) :
    (rebaseEntity texts now store snapshot merged key).find other =
      if other = key ∧ ¬ snapshot.holdsSlot (replayedRow texts now store snapshot key) then
        some (replayedRow texts now store snapshot key)
      else merged.find other := by
  rw [rebaseEntity]
  split
  · rename_i hheld
    rw [if_neg fun h => h.2 hheld]
  · rename_i hfree
    rw [Tables.find_put, replayedRow_key]
    exact if_congr (iff_self_and.mpr fun _ => hfree) rfl rfl

theorem find_rebaseEntities (keys : List RowKey) (merged : Tables) (key : RowKey) :
    (keys.foldl (rebaseEntity texts now store snapshot) merged).find key =
      if key ∈ keys ∧ ¬ snapshot.holdsSlot (replayedRow texts now store snapshot key) then
        some (replayedRow texts now store snapshot key)
      else merged.find key := by
  induction keys generalizing merged with
  | nil => simp
  | cons first rest ih =>
      rw [List.foldl_cons, ih, find_rebaseEntity]
      by_cases hkey : key = first
      · subst hkey
        by_cases hheld : snapshot.holdsSlot (replayedRow texts now store snapshot key) <;> simp [hheld]
      · simp [hkey]

theorem find_mergedWithPending (key : RowKey) :
    (mergedWithPending texts now store snapshot).find key = rebasedRow texts now store snapshot key := by
  rw [mergedWithPending, find_rebaseEntities, Tables.find_collect, rebasedRow]
  simp only [mem_pendingKeys]
  by_cases hpending : pendingForEntity store.outbox key = [] <;>
    by_cases hheld : snapshot.holdsSlot (replayedRow texts now store snapshot key) <;>
    simp [hpending, hheld]

theorem keyed_mergedWithPending : (mergedWithPending texts now store snapshot).Keyed := by
  intro key row hfind
  rw [find_mergedWithPending, rebasedRow] at hfind
  split at hfind
  · simpa using List.find?_some hfind
  · cases hfind
    exact replayedRow_key key

/-- The snapshot replaces the store's copy as it should exactly when the merged rows keep the constraints. -/
theorem keepsPendingWork_iff_consistent :
    KeepsPendingWork texts now store snapshot ↔
      (mergedWithPending texts now store snapshot).Consistent := by
  constructor
  · rintro ⟨after, -, -, -, hfind⟩
    apply after.rows.property.of_find_eq
    intro key
    rw [find_mergedWithPending, ← hfind]
    rfl
  · intro hconsistent
    have hsame := hconsistent.materialized_eq
    obtain ⟨tx, hwrite⟩ := (writeMaterialized_succeeds_iff keyed_mergedWithPending store.begin).mpr
      (by rwa [hsame])
    obtain ⟨⟨rows, rfl⟩, hfind⟩ := writeMaterialized_ok keyed_mergedWithPending hwrite
    have hreplace : syncReplaceSnapshot texts now store snapshot =
        .ok ((store.begin.withRows rows).store.withSnapshot snapshot) := by
      have hsession : assertSyncSession store none = .ok () := refuseIf_eq_ok_iff.mpr (by simp)
      rw [syncReplaceSnapshot, syncReplaceSnapshotFenced, hsession]
      exact bind_eq_ok_iff.mpr ⟨(), rfl, bind_eq_ok_iff.mpr ⟨_, hwrite, rfl⟩⟩
    refine ⟨_, hreplace, rfl, lookup_shadowOfSnapshot snapshot, fun key => ?_⟩
    rw [← find_mergedWithPending, ← hsame]
    exact hfind key

end

/-! ### What the pending operations refer to -/

/-- What one operation leaves in a field. -/
def setField (field : String) (value : Option Json) (mutation : OutboxRow) : Option Json :=
  match mutation.kind with
  | .create => mutation.patch.lookup field
  | .delete => value
  | .patch | .restore => (mutation.patch.lookup field).or value

section

variable (texts : Texts) (store : Store) (snapshot : CloudSnapshot)

/-- What the pending operations leave in a field of the snapshot's value, or of the local one. -/
def fieldLeft (key : RowKey) (field : String) : Option Json :=
  (pendingForEntity store.outbox key).foldl (setField field)
    ((rebaseBase store snapshot key).lookup field)

def textLeft (key : RowKey) (field : String) : Option String :=
  (fieldLeft store snapshot key field).bind asStr

/-- The list that a row names. -/
def Row.parentList : Row → Option String
  | .task value => value.listId
  | _ => none

/-- The list that the task is left in. -/
def listLeft (id : String) : Option String :=
  if pendingForEntity store.outbox (.task, id) = [] then
    (snapshot.find (.task, id)).bind Row.parentList
  else (textLeft store snapshot (.task, id) "listId").filter fun listId => !listId.isEmpty

/-- The task that pending operations leave a step or a plan under. -/
def taskLeft (key : RowKey) : String :=
  ((textLeft store snapshot key "taskId").filter fun taskId => !(trim taskId).isEmpty).getD ""

def stepTaskLeft (id : String) : Option String :=
  if pendingForEntity store.outbox (.step, id) = [] then
    (snapshot.find (.step, id)).bind Row.parentTask
  else some (taskLeft store snapshot (.step, id))

/-- The slot that pending operations leave a plan in. -/
def pendingSlot (id : String) : String × String :=
  (taskLeft store snapshot (.dayPlan, id),
    ((textLeft store snapshot (.dayPlan, id) "localDate").filter texts.isDate).getD "1970-01-01")

/-- The slot that the plan is left in; the snapshot's, where the snapshot has another plan in the pending one. -/
def slotLeft (id : String) : Option (String × String) :=
  if pendingForEntity store.outbox (.dayPlan, id) = [] ∨
      (snapshot.slotHolder (pendingSlot texts store snapshot id)).any fun other => other != id then
    (snapshot.find (.dayPlan, id)).bind Row.slot
  else some (pendingSlot texts store snapshot id)

/-- The entity is in the snapshot, or has pending operations. -/
def Known (key : RowKey) : Prop :=
  (snapshot.find key).isSome ∨ pendingForEntity store.outbox key ≠ []

/-- Parents are in the snapshot or pending too, and no two plans are left in one slot. -/
structure Closed : Prop where
  lists : ∀ id listId, listLeft store snapshot id = some listId → Known store snapshot (.list, listId)
  steps : ∀ id taskId, stepTaskLeft store snapshot id = some taskId →
    Known store snapshot (.task, taskId)
  plans : ∀ id slot, slotLeft texts store snapshot id = some slot →
    Known store snapshot (.task, slot.1)
  slots : ∀ id other slot, slotLeft texts store snapshot id = some slot →
    slotLeft texts store snapshot other = some slot → other = id

end

theorem lookup_projectedData_eq {key : RowKey} {field : String} (hfield : field ∈ mutableFields key.1)
    (base : Data) (pending : List OutboxRow) (now : String) :
    (projectedData key base pending now).lookup field =
      pending.foldl (setField field) (base.lookup field) := by
  have hid := ne_of_mem_mutableFields hfield (show "id" ∈ _ by decide)
  have hstart : (Json.putMember "id" (.str key.2) base).lookup field = base.lookup field := by
    rw [Json.lookup_putMember, if_neg hid]
  rw [projectedData, ← hstart]
  generalize Json.putMember "id" (.str key.2) base = data
  induction pending generalizing data with
  | nil => rfl
  | cons mutation rest ih =>
      have hone : (applyMutationToData key.1 data mutation now).lookup field =
          setField field (data.lookup field) mutation := by
        rw [lookup_applyMutationToData_field hfield, setField]
        cases mutation.kind <;> rfl
      rw [List.foldl_cons, List.foldl_cons, ih, hone]

section

variable {texts : Texts} {now : String} {store : Store} {snapshot : CloudSnapshot}

theorem stringField_replayed {key : RowKey} {field : String} (hfield : field ∈ mutableFields key.1) :
    stringField (projectedData key (rebaseBase store snapshot key)
      (pendingForEntity store.outbox key) now) field = textLeft store snapshot key field := by
  rw [stringField, lookup_projectedData_eq hfield]
  rfl

theorem parentList_rebasedRow (id : String) :
    (rebasedRow texts now store snapshot (.task, id)).bind Row.parentList =
      listLeft store snapshot id := by
  have hfree : snapshot.holdsSlot (replayedRow texts now store snapshot (.task, id)) = false := rfl
  rw [rebasedRow, listLeft, hfree]
  by_cases hpending : pendingForEntity store.outbox (.task, id) = []
  · rw [if_pos (Or.inl hpending), if_pos hpending]
  · rw [if_neg (by simpa using hpending), if_neg hpending]
    show nullableString _ "listId" = _
    rw [nullableString, stringField_replayed (show "listId" ∈ mutableFields .task by decide)]

theorem parentTask_rebasedRow (id : String) :
    (rebasedRow texts now store snapshot (.step, id)).bind Row.parentTask =
      stepTaskLeft store snapshot id := by
  have hfree : snapshot.holdsSlot (replayedRow texts now store snapshot (.step, id)) = false := rfl
  rw [rebasedRow, stepTaskLeft, hfree]
  by_cases hpending : pendingForEntity store.outbox (.step, id) = []
  · rw [if_pos (Or.inl hpending), if_pos hpending]
  · rw [if_neg (by simpa using hpending), if_neg hpending]
    show some (requiredString _ "taskId" "") = _
    rw [requiredString, stringField_replayed (show "taskId" ∈ mutableFields .step by decide)]
    rfl

theorem slot_rebasedRow (id : String) :
    (rebasedRow texts now store snapshot (.dayPlan, id)).bind Row.slot =
      slotLeft texts store snapshot id := by
  have hslot : (replayedRow texts now store snapshot (.dayPlan, id)).slot =
      some (pendingSlot texts store snapshot id) := by
    show some (requiredString _ "taskId" "", (dateField texts _ "localDate").getD "1970-01-01") = _
    rw [requiredString, dateField,
      stringField_replayed (show "taskId" ∈ mutableFields .dayPlan by decide),
      stringField_replayed (show "localDate" ∈ mutableFields .dayPlan by decide)]
    rfl
  have hheld : snapshot.holdsSlot (replayedRow texts now store snapshot (.dayPlan, id)) =
      (snapshot.slotHolder (pendingSlot texts store snapshot id)).any fun other => other != id := by
    rw [← Option.some.inj hslot]
    rfl
  rw [rebasedRow, slotLeft, hheld]
  split
  · rfl
  · exact hslot

theorem isSome_rebasedRow {key : RowKey} (hkey : key.1 ≠ .dayPlan) :
    (rebasedRow texts now store snapshot key).isSome ↔ Known store snapshot key := by
  have hfree : snapshot.holdsSlot (replayedRow texts now store snapshot key) = false := by
    obtain ⟨entity, id⟩ := key
    cases entity with
    | list => rfl
    | task => rfl
    | step => rfl
    | dayPlan => exact absurd rfl hkey
  rw [rebasedRow, hfree, Known]
  by_cases hpending : pendingForEntity store.outbox key = [] <;> simp [hpending]

/-- The constraints on the merged rows, read off the snapshot and the pending operations. -/
theorem consistent_mergedWithPending_iff :
    (mergedWithPending texts now store snapshot).Consistent ↔ Closed texts store snapshot := by
  have hfind : ∀ key, (mergedWithPending texts now store snapshot).find key =
      rebasedRow texts now store snapshot key := fun key => find_mergedWithPending key
  have hkeyed : (mergedWithPending texts now store snapshot).Keyed := keyed_mergedWithPending
  generalize mergedWithPending texts now store snapshot = merged at hfind hkeyed
  have hsome : ∀ {key : RowKey}, key.1 ≠ .dayPlan →
      ((merged.find key).isSome ↔ Known store snapshot key) := by
    intro key hkey
    rw [hfind, isSome_rebasedRow hkey]
  have hlist : ∀ id, (merged.lists.lookup id).isSome ↔ Known store snapshot (.list, id) := by
    intro id
    rw [← hsome (by simp), Tables.find, Option.isSome_map]
  have htask : ∀ id, (merged.tasks.lookup id).isSome ↔ Known store snapshot (.task, id) := by
    intro id
    rw [← hsome (by simp), Tables.find, Option.isSome_map]
  have hlistLeft : ∀ id, listLeft store snapshot id = (merged.tasks.lookup id).bind Task.listId := by
    intro id
    have hrow : (rebasedRow texts now store snapshot (.task, id)).bind Row.parentList =
        listLeft store snapshot id := parentList_rebasedRow id
    rw [← hrow, ← hfind, Tables.find, Option.bind_map]
    rfl
  have hstepLeft : ∀ id, stepTaskLeft store snapshot id =
      (merged.steps.lookup id).map Step.taskId := by
    intro id
    have hrow : (rebasedRow texts now store snapshot (.step, id)).bind Row.parentTask =
        stepTaskLeft store snapshot id := parentTask_rebasedRow id
    rw [← hrow, ← hfind, Tables.find, Option.bind_map, Option.map_eq_bind]
    rfl
  have hslotLeft : ∀ id, slotLeft texts store snapshot id =
      (merged.dayPlans.lookup id).map fun plan => (plan.taskId, plan.localDate) := by
    intro id
    have hrow : (rebasedRow texts now store snapshot (.dayPlan, id)).bind Row.slot =
        slotLeft texts store snapshot id := slot_rebasedRow id
    rw [← hrow, ← hfind, Tables.find, Option.bind_map, Option.map_eq_bind]
    rfl
  constructor
  · intro h
    refine ⟨?_, ?_, ?_, ?_⟩
    · intro id listId hleft
      rw [hlistLeft] at hleft
      obtain ⟨task, hlookup, hlistId⟩ := Option.bind_eq_some_iff.mp hleft
      exact (hlist listId).mp (h.listOf id task hlookup listId hlistId)
    · intro id taskId hleft
      rw [hstepLeft] at hleft
      obtain ⟨step, hlookup, rfl⟩ := Option.map_eq_some_iff.mp hleft
      exact (htask _).mp (h.taskOfStep id step hlookup)
    · intro id slot hleft
      rw [hslotLeft] at hleft
      obtain ⟨plan, hlookup, rfl⟩ := Option.map_eq_some_iff.mp hleft
      exact (htask _).mp (h.taskOfPlan id plan hlookup)
    · intro id other slot hleft hother
      rw [hslotLeft] at hleft hother
      obtain ⟨plan, hlookup, rfl⟩ := Option.map_eq_some_iff.mp hleft
      obtain ⟨taken, htaken, hslot⟩ := Option.map_eq_some_iff.mp hother
      obtain ⟨hsame, hdate⟩ := Prod.mk.inj hslot
      exact h.slot id plan hlookup other taken htaken hsame hdate
  · intro h
    refine ⟨hkeyed, ?_, ?_, ?_, ?_⟩
    · intro id task hlookup listId hlistId
      refine (hlist listId).mpr (h.lists id listId ?_)
      rw [hlistLeft, hlookup]
      exact hlistId
    · intro id step hlookup
      refine (htask _).mpr (h.steps id step.taskId ?_)
      rw [hstepLeft, hlookup]
      rfl
    · intro id plan hlookup
      refine (htask _).mpr (h.plans id (plan.taskId, plan.localDate) ?_)
      rw [hslotLeft, hlookup]
      rfl
    · intro id plan hlookup other taken htaken hsame hdate
      refine h.slots id other (plan.taskId, plan.localDate) ?_ ?_
      · rw [hslotLeft, hlookup]
        rfl
      · rw [hslotLeft, htaken, Option.map_some, hsame, hdate]

end

/-- A snapshot keeps the pending work exactly when the snapshot and the pending operations are closed under parents. -/
theorem snapshot_keeps_pending_iff (texts : Texts) (now : String) (store : Store)
    (snapshot : CloudSnapshot) :
    KeepsPendingWork texts now store snapshot ↔ Closed texts store snapshot := by
  rw [keepsPendingWork_iff_consistent, consistent_mergedWithPending_iff]

/-- A bound store whose new list was rejected, for a name that the server cannot store, and its task with it. The task was renamed after that. -/
def rejectedListStore : StoreResult Store := do
  let supply : Supply := ⟨"2026-10-21T05:00:00.000Z", "list", "plan", fun seq => "op-" ++ toString seq⟩
  let bound := { Store.open "device" with kv := { (Store.open "device").kv with
    syncEnabled := true
    boundAccount := some "user@example.com" } }
  let (_, listed) ← createList supply bound ⟨"Home\x00", none, none⟩
  let (_, created) ← createTask .utc { supply with id := "task" } listed.store
    ⟨"Buy milk", some "list", none, [], none, none, none, none, none, none, none⟩
  let store ← applyServerResult .utc supply.now created.store
    ⟨[⟨"op-1", "rejected", some "invalid_patch"⟩, ⟨"op-2", "rejected", some "invalid_reference"⟩], [],
      "0", none⟩
  let (_, renamed) ← patchTask .utc supply store "task"
    ⟨some (some "Buy bread"), none, none, none, none, none, none, none, none, none, none, none⟩
  return renamed.store

/-- An account without any rows. -/
def emptySnapshot : CloudSnapshot := ⟨"7", [], [], [], []⟩

theorem rejected_list_blocks_rebase :
    ¬ ∀ (texts : Texts) (now : String) (store : Store) (snapshot : CloudSnapshot),
      KeepsPendingWork texts now store snapshot := by
  intro h
  have hrun : rejectedListStore.toOption.any (fun store =>
      store.kv.boundAccount.isSome && (pendingForEntity store.outbox (.task, "task")).length == 1 &&
        (syncReplaceSnapshot .utc "now" store emptySnapshot).toOption.isNone) = true := by
    decide
  cases hstore : rejectedListStore with
  | error error =>
      rw [hstore] at hrun
      cases hrun
  | ok store =>
      rw [hstore] at hrun
      obtain ⟨after, hreplace, -⟩ := h .utc "now" store emptySnapshot
      simp [Except.toOption, hreplace] at hrun

end ShishiTodo.Native
