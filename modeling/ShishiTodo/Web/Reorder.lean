import ShishiTodo.Native.Reorder
import ShishiTodo.Web.Agreement
import ShishiTodo.Web.Outbox

/-!
# Moving a task in the browser

`DexieTaskRepository.reorderTask`. The list view of the browser has no due dates in its order; texts are compared by their code units. The comparisons never say that two tasks are level, and the sort takes what they say of a later and an earlier task as if they were.
-/

namespace ShishiTodo.Web

open Lib Native

/-! ### Code units -/

/-- The code units of one character. -/
def unitsOf (c : Char) : List Nat :=
  let n := c.toNat
  if n < 0x10000 then [n] else [0xD800 + (n - 0x10000) / 0x400, 0xDC00 + (n - 0x10000) % 0x400]

theorem codeUnits_eq (text : String) : codeUnits text = text.toList.flatMap unitsOf := rfl

/-- No character is a surrogate. -/
theorem toNat_valid (c : Char) : c.toNat < 0xD800 ∨ 0xDFFF < c.toNat ∧ c.toNat < 0x110000 := by
  rcases c.valid with h | ⟨hlow, hhigh⟩
  · exact .inl h
  · exact .inr ⟨hlow, hhigh⟩

/-- The units of a character say where it ends. -/
theorem unitsOf_append_inj {c d : Char} {rest more : List Nat} (h : unitsOf c ++ rest = unitsOf d ++ more) :
    c = d ∧ rest = more := by
  have hc := toNat_valid c
  have hd := toNat_valid d
  unfold unitsOf at h
  have hsame : c.toNat = d.toNat ∧ rest = more := by
    by_cases hsmall : c.toNat < 0x10000 <;> by_cases hsmall' : d.toNat < 0x10000 <;>
      simp only [hsmall, hsmall', if_true, if_false, List.cons_append, List.nil_append, List.cons.injEq] at h
    · exact h
    · omega
    · omega
    · exact ⟨by omega, h.2.2⟩
  exact ⟨Char.toNat_inj.mp hsame.1, hsame.2⟩

theorem codeUnits_injective : Function.Injective codeUnits := by
  intro left right h
  rw [codeUnits_eq, codeUnits_eq] at h
  apply String.toList_inj.mp
  generalize left.toList = chars at h
  generalize right.toList = others at h
  induction chars generalizing others with
  | nil =>
      cases others with
      | nil => rfl
      | cons d more =>
          rw [List.flatMap_nil, List.flatMap_cons, unitsOf] at h
          split at h <;> cases h
  | cons c rest ih =>
      cases others with
      | nil =>
          rw [List.flatMap_nil, List.flatMap_cons, unitsOf] at h
          split at h <;> cases h
      | cons d more =>
          rw [List.flatMap_cons, List.flatMap_cons] at h
          obtain ⟨rfl, hrest⟩ := unitsOf_append_inj h
          rw [ih more hrest]

/-! ### The operation -/

/-- `a.createdAt < b.createdAt ? -1 : 1` is not above zero, or the first of the two came first. -/
def rankedBefore (left right : Task) : Bool :=
  if left.rank ≠ right.rank then codeUnits left.rank < codeUnits right.rank
  else codeUnits left.createdAt ≤ codeUnits right.createdAt

def listedBefore (left right : Task) : Bool :=
  if left.status ≠ right.status then left.status = .open else rankedBefore left right

section

variable (db : Db)

/-- `db.tasks.toArray()`. -/
def Db.tasks : List Task :=
  db.rows.tasks.values.insertionSort fun left right => codeUnits left.id ≤ codeUnits right.id

/-- `listTasks` of a list, with the completed tasks. -/
def Db.listTasks (listId : Option String) : List Task :=
  (db.tasks.filter (Task.isIn listId)).insertionSort fun left right => listedBefore left right

def Db.siblings (current : Task) : List Task :=
  (db.tasks.filter fun task => !isDeleted (.task task) && task.status == current.status &&
    task.listId == current.listId).insertionSort fun left right => rankedBefore left right

/-- The instant of the operation, and the identifiers of its two edits. -/
structure MoveSupply where
  now : String
  first : String
  second : String
  deriving DecidableEq, Repr

def Db.exchange (supply : MoveSupply) (task other : Task) : Db :=
  let moved := { task with rank := other.rank, updatedAt := supply.now }
  let displaced := { other with rank := task.rank, updatedAt := supply.now }
  localWrite db { db.rows with tasks := (db.rows.tasks.insert task.id moved).insert other.id displaced } [
    ⟨supply.first, .task, task.id, .patch, [("rank", .str other.rank)], supply.now⟩,
    ⟨supply.second, .task, other.id, .patch, [("rank", .str task.rank)], supply.now⟩]

def Db.reorderTask (supply : MoveSupply) (id direction : String) : Db :=
  match (db.rows.tasks.lookup id).filter fun task => !isDeleted (.task task) with
  | none => db
  | some task =>
      match neighbour (db.siblings task) id direction with
      | none => db
      | some other => db.exchange supply task other

end

/-! ### The list view -/

/-- What the types of the rows say: a task stands under its own id, and a tombstone is an instant. -/
structure Db.TasksTyped (db : Db) : Prop where
  keyed : TasksKeyed db.rows.tasks
  deletedAt : ∀ id task, db.rows.tasks.lookup id = some task → task.deletedAt ≠ some ""

/-- Where a task is shown among the tasks of its list. -/
def place (task : Task) : Place Nat (List Nat) (List Nat ×ₗ List Nat) where
  group := if task.status = .open then 0 else 1
  rank := codeUnits task.rank
  tie := toLex (codeUnits task.createdAt, codeUnits task.id)

def rankKey (task : Task) : List Nat ×ₗ List Nat := toLex (codeUnits task.rank, codeUnits task.createdAt)

def listKey (task : Task) : Nat ×ₗ List Nat ×ₗ List Nat :=
  toLex (if task.status = .open then 0 else 1, rankKey task)

theorem rankedBefore_iff (left right : Task) : rankedBefore left right = true ↔ rankKey left ≤ rankKey right := by
  rw [rankKey, rankKey, Prod.Lex.toLex_le_toLex]
  unfold rankedBefore
  by_cases hrank : left.rank = right.rank
  · simp [hrank]
  · have hunits : codeUnits left.rank ≠ codeUnits right.rank := fun h => hrank (codeUnits_injective h)
    simp [hrank, hunits]

theorem listedBefore_iff (left right : Task) : listedBefore left right = true ↔ listKey left ≤ listKey right := by
  rw [listKey, listKey, Prod.Lex.toLex_le_toLex]
  unfold listedBefore
  cases left.status <;> cases right.status <;> simp [rankedBefore_iff]

instance : Std.Total fun left right : Task => listedBefore left right = true where
  total left right := by
    simp only [listedBefore_iff]
    exact le_total _ _

instance : IsTrans Task fun left right => listedBefore left right = true where
  trans left middle right hleft hright := by
    rw [listedBefore_iff] at hleft hright ⊢
    exact hleft.trans hright

instance : Std.Total fun left right : Task => rankedBefore left right = true where
  total left right := by
    simp only [rankedBefore_iff]
    exact le_total _ _

instance : IsTrans Task fun left right => rankedBefore left right = true where
  trans left middle right hleft hright := by
    rw [rankedBefore_iff] at hleft hright ⊢
    exact hleft.trans hright

section

variable {db after : Db}

theorem tasks_perm (db : Db) : db.tasks.Perm db.rows.tasks.values := List.perm_insertionSort _ _

/-- The table hands the rows out by their keys. -/
theorem tasks_inOrder (h : db.TasksTyped) : db.tasks.Pairwise fun first second =>
    codeUnits first.id < codeUnits second.id := by
  have hle : db.tasks.Pairwise fun first second => codeUnits first.id ≤ codeUnits second.id := by
    have : Std.Total fun first second : Task => codeUnits first.id ≤ codeUnits second.id :=
      ⟨fun _ _ => le_total _ _⟩
    have : IsTrans Task fun first second => codeUnits first.id ≤ codeUnits second.id :=
      ⟨fun _ _ _ => le_trans⟩
    exact List.pairwise_insertionSort _ _
  have hnodup : (db.tasks.map Task.id).Nodup := ((tasks_perm db).map Task.id).nodup_iff.mpr h.keyed.nodup
  exact hle.imp₂ (fun first second hunits hne => lt_of_le_of_ne hunits fun hsame =>
    hne (codeUnits_injective hsame)) (List.pairwise_map.mp hnodup)

theorem shown_list (h : db.TasksTyped) (listId : Option String) :
    Shown place (db.rows.tasks.values.filter (Task.isIn listId)) (db.listTasks listId) := by
  refine ⟨(List.perm_insertionSort _ _).trans ((tasks_perm db).filter _), ?_⟩
  refine (insertionSort_stable ((tasks_inOrder h).filter _)).imp fun {first second} hstable => ?_
  rcases hstable with hless | ⟨hle, hid⟩
  · beta_reduce at hless
    rw [listedBefore_iff, not_le, listKey, listKey, Prod.Lex.toLex_lt_toLex, rankKey, rankKey,
      Prod.Lex.toLex_lt_toLex] at hless
    rcases hless with hstatus | ⟨hstatus, hrank | ⟨hrank, hcreated⟩⟩
    · exact .inl hstatus
    · exact .inr ⟨hstatus, .inl hrank⟩
    · exact .inr ⟨hstatus, .inr ⟨hrank, Prod.Lex.toLex_lt_toLex.mpr (.inl hcreated)⟩⟩
  · rw [listedBefore_iff, listKey, listKey, Prod.Lex.toLex_le_toLex, rankKey, rankKey,
      Prod.Lex.toLex_le_toLex] at hle
    rcases hle with hstatus | ⟨hstatus, hrank | ⟨hrank, hcreated⟩⟩
    · exact .inl hstatus
    · exact .inr ⟨hstatus, .inl hrank⟩
    · refine .inr ⟨hstatus, .inr ⟨hrank, Prod.Lex.toLex_lt_toLex.mpr ?_⟩⟩
      exact hcreated.lt_or_eq.imp_right fun heq => ⟨heq, hid⟩

/-- The siblings are the tasks of the list view that have the status. -/
theorem siblings_eq (h : db.TasksTyped) (current : Task) : db.siblings current =
    (db.listTasks current.listId).filter fun task => task.status == current.status := by
  have hshown : Shown place ((db.rows.tasks.values.filter (Task.isIn current.listId)).filter fun task =>
      task.status == current.status) (db.siblings current) := by
    have hrows : (db.tasks.filter fun task => !isDeleted (.task task) && task.status == current.status &&
        task.listId == current.listId) =
        (db.tasks.filter (Task.isIn current.listId)).filter fun task => task.status == current.status := by
      rw [List.filter_filter]
      apply List.filter_congr
      intro task htask
      have htyped := h.deletedAt _ task (h.keyed.mem_values.mp ((tasks_perm db).subset htask))
      have hdeleted : isDeleted (.task task) = task.deletedAt.isSome := by
        rw [isDeleted, Row.deletedAt]
        rcases hat : task.deletedAt with _ | deletedAt
        · rfl
        · rw [hat] at htyped
          have hne : deletedAt ≠ "" := fun hempty => htyped (hempty ▸ rfl)
          simp [hne]
      rw [hdeleted, Task.isIn]
      cases task.deletedAt <;> cases task.status == current.status <;> simp
    refine ⟨?_, ?_⟩
    · refine (List.perm_insertionSort _ _).trans ?_
      rw [hrows]
      exact ((tasks_perm db).filter _).filter _
    · have hstable : (db.siblings current).Pairwise (StableBefore
          (fun left right => rankedBefore left right = true) fun first second =>
            codeUnits first.id < codeUnits second.id) :=
        insertionSort_stable ((tasks_inOrder h).filter _)
      refine hstable.imp_of_mem fun {first second} hfirst hsecond hbefore => ?_
      have hstatus : ∀ task ∈ db.siblings current, task.status = current.status := fun task htask => by
        have hmem := List.mem_filter.mp ((List.mem_insertionSort _).mp htask)
        simp only [Bool.and_eq_true, beq_iff_eq] at hmem
        exact hmem.2.1.2
      have hsame : (place first).group = (place second).group := by
        rw [place, place, hstatus first hfirst, hstatus second hsecond]
      rcases hbefore with hless | ⟨hle, hid⟩
      · beta_reduce at hless
        rw [rankedBefore_iff, not_le, rankKey, rankKey, Prod.Lex.toLex_lt_toLex] at hless
        rcases hless with hrank | ⟨hrank, hcreated⟩
        · exact .inr ⟨hsame, .inl hrank⟩
        · exact .inr ⟨hsame, .inr ⟨hrank, Prod.Lex.toLex_lt_toLex.mpr (.inl hcreated)⟩⟩
      · rw [rankedBefore_iff, rankKey, rankKey, Prod.Lex.toLex_le_toLex] at hle
        rcases hle with hrank | ⟨hrank, hcreated⟩
        · exact .inr ⟨hsame, .inl hrank⟩
        · refine .inr ⟨hsame, .inr ⟨hrank, Prod.Lex.toLex_lt_toLex.mpr ?_⟩⟩
          exact hcreated.lt_or_eq.imp_right fun heq => ⟨heq, hid⟩
  exact hshown.unique ((shown_list h _).filter _) (List.Perm.refl _)

/-! ### One move -/

theorem exchange_tasks (supply : MoveSupply) {task other : Task} (hne : task.id ≠ other.id) :
    Exchanged db.rows.tasks (db.exchange supply task other).rows.tasks task other supply.now := by
  refine ⟨?_, AList.lookup_insert _, fun id hid hid' => ?_⟩
  · exact (AList.lookup_insert_ne hne).trans (AList.lookup_insert _)
  · exact (AList.lookup_insert_ne hid').trans (AList.lookup_insert_ne hid)

variable {upper lower : Task} {now : String}

theorem Db.TasksTyped.exchanged (h : db.TasksTyped)
    (hupper : db.rows.tasks.lookup upper.id = some upper) (hlower : db.rows.tasks.lookup lower.id = some lower)
    (hexchanged : Exchanged db.rows.tasks after.rows.tasks upper lower now) : after.TasksTyped := by
  refine ⟨hexchanged.keyed h.keyed, fun id task hlookup => ?_⟩
  by_cases hid : id = upper.id
  · rw [hid, hexchanged.first] at hlookup
    rw [← Option.some.inj hlookup]
    exact h.deletedAt _ upper hupper
  · by_cases hid' : id = lower.id
    · rw [hid', hexchanged.second] at hlookup
      rw [← Option.some.inj hlookup]
      exact h.deletedAt _ lower hlower
    · rw [hexchanged.others id hid hid'] at hlookup
      exact h.deletedAt id task hlookup

/-- The two tasks are neighbours for the operation. -/
structure Db.Adjacent (db : Db) (upper lower : Task) : Prop where
  first : (db.rows.tasks.lookup upper.id).filter (fun task => !isDeleted (.task task)) = some upper
  second : (db.rows.tasks.lookup lower.id).filter (fun task => !isDeleted (.task task)) = some lower
  apart : upper.id ≠ lower.id
  up : neighbour (db.siblings lower) lower.id "up" = some upper
  down : neighbour (db.siblings upper) upper.id "down" = some lower

theorem Db.Adjacent.moveUp (h : db.Adjacent upper lower) (supply : MoveSupply) :
    Exchanged db.rows.tasks (db.reorderTask supply lower.id "up").rows.tasks upper lower supply.now := by
  have hmove : db.reorderTask supply lower.id "up" = db.exchange supply lower upper := by
    simp only [Db.reorderTask, h.second, h.up]
  rw [hmove]
  exact (exchange_tasks supply h.apart.symm).symm

theorem Db.Adjacent.moveDown (h : db.Adjacent upper lower) (supply : MoveSupply) :
    Exchanged db.rows.tasks (db.reorderTask supply upper.id "down").rows.tasks upper lower supply.now := by
  have hmove : db.reorderTask supply upper.id "down" = db.exchange supply upper lower := by
    simp only [Db.reorderTask, h.first, h.down]
  rw [hmove]
  exact exchange_tasks supply h.apart

variable {listId : Option String} {above below : List Task}

theorem live_of_shown (h : db.TasksTyped) {task : Task} (hmem : task ∈ db.listTasks listId) :
    (db.rows.tasks.lookup task.id).filter (fun task => !isDeleted (.task task)) = some task ∧
      task.listId = listId := by
  have hchosen := List.mem_filter.mp ((shown_list h listId).perm.subset hmem)
  have hlive := hchosen.2
  simp only [Task.isIn, Bool.and_eq_true, beq_iff_eq, Option.isNone_iff_eq_none] at hlive
  refine ⟨Option.filter_eq_some_iff.mpr ⟨h.keyed.mem_values.mp hchosen.1, ?_⟩, hlive.2⟩
  rw [isDeleted, Row.deletedAt, hlive.1]
  rfl

theorem nodup_shown (h : db.TasksTyped) : ((db.listTasks listId).map Task.id).Nodup := by
  refine ((shown_list h listId).perm.map Task.id).nodup_iff.mpr ?_
  exact (List.filter_sublist.map Task.id).nodup h.keyed.nodup

theorem adjacent_of_shown (h : db.TasksTyped) (hshown : db.listTasks listId = above ++ upper :: lower :: below)
    (hstatus : upper.status = lower.status) : db.Adjacent upper lower := by
  have hupperMem : upper ∈ db.listTasks listId := by rw [hshown]; simp
  have hlowerMem : lower ∈ db.listTasks listId := by rw [hshown]; simp
  obtain ⟨hupperLive, hupperList⟩ := live_of_shown h hupperMem
  obtain ⟨hlowerLive, hlowerList⟩ := live_of_shown h hlowerMem
  have hnodup : ((db.listTasks listId).map Task.id).Nodup := nodup_shown h
  have hsiblings : ∀ current : Task, current.listId = listId → current.status = upper.status →
      db.siblings current = above.filter (fun task => task.status == upper.status) ++
        upper :: lower :: below.filter fun task => task.status == upper.status := by
    intro current hlist hcurrent
    rw [siblings_eq h, hlist, hshown, hcurrent]
    simp [List.filter_append, hstatus]
  have hkept : ((above.filter (fun task => task.status == upper.status) ++
      upper :: lower :: below.filter fun task => task.status == upper.status).map Task.id).Nodup := by
    rw [← hsiblings upper hupperList rfl, siblings_eq h, hupperList]
    exact (List.filter_sublist.map Task.id).nodup hnodup
  have hapart : upper.id ≠ lower.id := by
    rw [hshown, List.map_append, List.map_cons, List.map_cons] at hnodup
    intro heq
    exact (List.nodup_cons.mp (List.nodup_append.mp hnodup).2.1).1 (heq ▸ List.mem_cons_self)
  refine ⟨hupperLive, hlowerLive, hapart, ?_, ?_⟩
  · rw [hsiblings lower hlowerList hstatus.symm]
    exact neighbour_up hkept
  · rw [hsiblings upper hupperList rfl]
    exact neighbour_down hkept

/-! ### What the list shows afterwards -/

/-- The list as it is shown. -/
def Db.listed (db : Db) (listId : Option String) : List String := (db.listTasks listId).map Task.id

/-- The move of a task: the list is shown as expected and the other lists as before, and the move back shows it as at first. -/
def Db.Moves (db : Db) (supply : MoveSupply) (listId : Option String) (id direction back : String)
    (expected : List String) : Prop :=
  (db.reorderTask supply id direction).listed listId = expected ∧
    (∀ other, other ≠ listId → (db.reorderTask supply id direction).listed other = db.listed other) ∧
    ∀ again, ((db.reorderTask supply id direction).reorderTask again id back).listed listId = db.listed listId

theorem rows_after (h : db.TasksTyped) (hshown : db.listTasks listId = above ++ upper :: lower :: below)
    (hexchanged : Exchanged db.rows.tasks after.rows.tasks upper lower now) :
    (after.rows.tasks.values.filter (Task.isIn listId)).Perm
      (above ++ lower.ranked upper.rank now :: upper.ranked lower.rank now :: below) := by
  refine hexchanged.rows_perm h.keyed (isIn_ranked listId) ?_
  rw [← hshown]
  exact (shown_list h listId).perm

theorem listed_after_iff (h : db.TasksTyped) (hafter : after.TasksTyped)
    (hshown : db.listTasks listId = above ++ upper :: lower :: below)
    (hexchanged : Exchanged db.rows.tasks after.rows.tasks upper lower now) :
    after.listed listId = above.map Task.id ++ lower.id :: upper.id :: below.map Task.id ↔
      Place.Interchangeable (above.map place) (place upper) (place lower) (below.map place) := by
  have hbefore := shown_list h listId
  rw [hshown] at hbefore
  exact exchange_shown_iff ((List.filter_sublist.map Task.id).nodup h.keyed.nodup) hbefore
    (rows_after h hshown hexchanged) rfl rfl rfl rfl (shown_list hafter listId)

theorem shown_after (h : db.TasksTyped) (hafter : after.TasksTyped)
    (hshown : db.listTasks listId = above ++ upper :: lower :: below)
    (hexchanged : Exchanged db.rows.tasks after.rows.tasks upper lower now)
    (hplaces : Place.Interchangeable (above.map place) (place upper) (place lower) (below.map place)) :
    after.listTasks listId =
      above ++ lower.ranked upper.rank now :: upper.ranked lower.rank now :: below := by
  have hbefore := shown_list h listId
  rw [hshown] at hbefore
  exact exchange_shown hbefore (rows_after h hshown hexchanged) rfl rfl (shown_list hafter listId) hplaces

theorem listed_others (h : db.TasksTyped) (hafter : after.TasksTyped)
    (hshown : db.listTasks listId = above ++ upper :: lower :: below)
    (hexchanged : Exchanged db.rows.tasks after.rows.tasks upper lower now) {other : Option String}
    (hother : other ≠ listId) : after.listed other = db.listed other := by
  have hupperMem : upper ∈ db.listTasks listId := by rw [hshown]; simp
  have hlowerMem : lower ∈ db.listTasks listId := by rw [hshown]; simp
  obtain ⟨hupperLive, hupperList⟩ := live_of_shown h hupperMem
  obtain ⟨hlowerLive, hlowerList⟩ := live_of_shown h hlowerMem
  have hout : ∀ task : Task, task.listId = listId → task.isIn other = false := fun task hlist => by
    rw [Task.isIn, hlist, beq_eq_false_iff_ne.mpr hother.symm, Bool.and_false]
  have hperm := hexchanged.others_perm h.keyed (isIn_ranked other) (Option.filter_eq_some_iff.mp hupperLive).1
    (Option.filter_eq_some_iff.mp hlowerLive).1 (hout upper hupperList) (hout lower hlowerList)
  exact congrArg (List.map Task.id) ((shown_list hafter other).unique (shown_list h other) hperm)

/-- What follows once the two have exchanged their ranks, whichever of them was moved. -/
theorem moves_iff {id direction back : String} {supply : MoveSupply} (h : db.TasksTyped)
    (hshown : db.listTasks listId = above ++ upper :: lower :: below)
    (hadjacent : db.Adjacent upper lower)
    (hmoved : Exchanged db.rows.tasks (db.reorderTask supply id direction).rows.tasks upper lower supply.now)
    (hback : ∀ db : Db, ∀ again, db.Adjacent (lower.ranked upper.rank supply.now)
        (upper.ranked lower.rank supply.now) →
      Exchanged db.rows.tasks (db.reorderTask again id back).rows.tasks (lower.ranked upper.rank supply.now)
        (upper.ranked lower.rank supply.now) again.now)
    (hstatus : upper.status = lower.status) :
    db.Moves supply listId id direction back
        (above.map Task.id ++ lower.id :: upper.id :: below.map Task.id) ↔
      Place.Interchangeable (above.map place) (place upper) (place lower) (below.map place) := by
  have htyped := h.exchanged (Option.filter_eq_some_iff.mp hadjacent.first).1
    (Option.filter_eq_some_iff.mp hadjacent.second).1 hmoved
  constructor
  · exact fun hmoves => (listed_after_iff h htyped hshown hmoved).mp hmoves.1
  · intro hplaces
    have hafter := shown_after h htyped hshown hmoved hplaces
    refine ⟨(listed_after_iff h htyped hshown hmoved).mpr hplaces,
      fun other hother => listed_others h htyped hshown hmoved hother, fun again => ?_⟩
    have hnext := adjacent_of_shown htyped hafter hstatus.symm
    have hundone := hback _ again hnext
    have hbefore := shown_list h listId
    rw [hshown] at hbefore
    have hagainTyped := htyped.exchanged (Option.filter_eq_some_iff.mp hnext.first).1
      (Option.filter_eq_some_iff.mp hnext.second).1 hundone
    have hagain : (((db.reorderTask supply id direction).reorderTask again id back).listTasks listId).map Task.id =
        (above ++ upper :: lower :: below).map Task.id :=
      exchange_back hbefore (rows_after htyped hafter hundone) (shown_list hagainTyped listId)
        ⟨rfl, rfl⟩ ⟨rfl, rfl⟩
    rw [Db.listed, Db.listed, hagain, hshown]

/-- The lower of two neighbours moves up in these cases only. -/
theorem moves_up_iff (h : db.TasksTyped) (hshown : db.listTasks listId = above ++ upper :: lower :: below)
    (hstatus : upper.status = lower.status) (supply : MoveSupply) :
    db.Moves supply listId lower.id "up" "down"
        (above.map Task.id ++ lower.id :: upper.id :: below.map Task.id) ↔
      Place.Interchangeable (above.map place) (place upper) (place lower) (below.map place) := by
  have hadjacent := adjacent_of_shown h hshown hstatus
  exact moves_iff h hshown hadjacent (hadjacent.moveUp supply) (fun _ again hnext => hnext.moveDown again) hstatus

/-- The upper of two neighbours moves down in these cases only. -/
theorem moves_down_iff (h : db.TasksTyped) (hshown : db.listTasks listId = above ++ upper :: lower :: below)
    (hstatus : upper.status = lower.status) (supply : MoveSupply) :
    db.Moves supply listId upper.id "down" "up"
        (above.map Task.id ++ lower.id :: upper.id :: below.map Task.id) ↔
      Place.Interchangeable (above.map place) (place upper) (place lower) (below.map place) := by
  have hadjacent := adjacent_of_shown h hshown hstatus
  exact moves_iff h hshown hadjacent (hadjacent.moveDown supply) (fun _ again hnext => hnext.moveUp again) hstatus

end

/-! ### Both stores -/

/-- In both stores a task changes places with its neighbour, and back again, exactly when the two are interchangeable; in the native store the due dates are the same then, and the id is one that the operation takes. -/
theorem reorder_moves_iff (texts : Texts) (order : RowOrder) (store : Store) (supply : Supply) (db : Db)
    (moves : MoveSupply) (listId : Option String) (above below : List Task) (upper lower : Task)
    (hstatus : upper.status = lower.status) :
    (texts.toLowercase "" = "" → supply.Fresh store →
      shownTasks texts order store (listQuery listId) = above ++ upper :: lower :: below →
      (order.Moves texts supply store listId lower.id "up" "down"
          (above.map Task.id ++ lower.id :: upper.id :: below.map Task.id) ↔
        validateNonEmptyId lower.id = .ok () ∧ Place.Interchangeable (above.map order.place)
          (order.place upper) (order.place lower) (below.map order.place)) ∧
      (order.Moves texts supply store listId upper.id "down" "up"
          (above.map Task.id ++ lower.id :: upper.id :: below.map Task.id) ↔
        validateNonEmptyId upper.id = .ok () ∧ Place.Interchangeable (above.map order.place)
          (order.place upper) (order.place lower) (below.map order.place))) ∧
    (db.TasksTyped → db.listTasks listId = above ++ upper :: lower :: below →
      (db.Moves moves listId lower.id "up" "down"
          (above.map Task.id ++ lower.id :: upper.id :: below.map Task.id) ↔
        Place.Interchangeable (above.map place) (place upper) (place lower) (below.map place)) ∧
      (db.Moves moves listId upper.id "down" "up"
          (above.map Task.id ++ lower.id :: upper.id :: below.map Task.id) ↔
        Place.Interchangeable (above.map place) (place upper) (place lower) (below.map place))) := by
  refine ⟨?_, ?_⟩
  · intro hlower hfresh hshown
    exact ⟨Native.moves_up_iff hlower hfresh hshown hstatus, Native.moves_down_iff hlower hfresh hshown hstatus⟩
  · intro htyped hshown
    exact ⟨moves_up_iff htyped hshown hstatus moves, moves_down_iff htyped hshown hstatus moves⟩

/-- A task without a list. -/
def listless (id rank : String) (dueOn : Option String) : Task where
  id := id
  listId := none
  title := "Water the plants"
  note := ""
  tags := []
  status := .open
  important := false
  dueOn := dueOn
  remindAt := none
  remindTimezone := none
  rank := rank
  seriesId := none
  occurrenceKey := none
  recurrence := none
  completedAt := none
  createdAt := "2026-10-21T05:00:00.000Z"
  updatedAt := "2026-10-21T05:00:00.000Z"
  deletedAt := none

def tablesOf (first second : Task) : Tables :=
  { Tables.empty with tasks := ((∅ : Table String Task).insert first.id first).insert second.id second }

/-- Two tasks with different ranks. -/
def inRankOrder : Store := { Store.open "device" with
  rows := ⟨tablesOf (listless "a" "000001" none) (listless "b" "000002" none), by decide⟩ }

/-- Two tasks with different due dates. -/
def dueApart : Store := { Store.open "device" with
  rows := ⟨tablesOf (listless "a" "000001" (some "2026-10-21")) (listless "b" "000002" (some "2026-10-22")),
    by decide⟩ }

theorem fresh_open (rows : Rows) : sampleSupply.Fresh { Store.open "device" with rows := rows } :=
  ⟨countedId_injective, fun _ => rfl⟩

theorem shown_inRankOrder : shownTasks Texts.utc .byText inRankOrder (listQuery none) =
    [] ++ listless "a" "000001" none :: listless "b" "000002" none :: [] := by
  decide

theorem shown_dueApart : shownTasks Texts.utc .byText dueApart (listQuery none) =
    [] ++ listless "a" "000001" (some "2026-10-21") :: listless "b" "000002" (some "2026-10-22") :: [] := by
  decide

theorem reorder_moves_second_up :
    RowOrder.byText.Moves Texts.utc sampleSupply inRankOrder none "b" "up" "down" ["b", "a"] := by
  have hlower : Texts.utc.toLowercase "" = "" := by decide
  have hmoves := reorder_moves_iff Texts.utc .byText inRankOrder sampleSupply (copyOf inRankOrder)
    ⟨"2026-10-21T05:00:00.000Z", "first", "second"⟩ none [] [] (listless "a" "000001" none) (listless "b" "000002" none) rfl
  refine ((hmoves.1 hlower (fresh_open _) shown_inRankOrder).1).mpr ⟨?_, ?_⟩
  · decide
  · exact ⟨rfl, by decide, fun _ h => (nomatch h), fun _ h => (nomatch h)⟩

/-- The task of the later date stays where it is. -/
theorem later_date_stays :
    shownTasks Texts.utc .byText dueApart (listQuery none) =
        [listless "a" "000001" (some "2026-10-21"), listless "b" "000002" (some "2026-10-22")] ∧
      (listless "a" "000001" (some "2026-10-21")).status = (listless "b" "000002" (some "2026-10-22")).status ∧
      ¬ RowOrder.byText.Moves Texts.utc sampleSupply dueApart none "b" "up" "down" ["b", "a"] := by
  have hlower : Texts.utc.toLowercase "" = "" := by decide
  refine ⟨shown_dueApart, rfl, fun hmoves => ?_⟩
  have hplaces := (Native.moves_up_iff hlower (fresh_open _) shown_dueApart rfl).mp hmoves
  have hdue := (Prod.mk.inj (toLex.injective hplaces.2.group)).2
  exact absurd hdue (by decide)

end ShishiTodo.Web
