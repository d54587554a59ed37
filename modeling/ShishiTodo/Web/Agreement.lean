import ShishiTodo.Web.Merge
import ShishiTodo.Native.Agreement

/-!
# Where the two merges agree

The native store and the browser go through the same branches for the same rows, as long as their texts compare alike. The browser's patches leave out the tags of a task, and its tables take rows that the native ones refuse.
-/

namespace ShishiTodo.Web

open Lib Native

/-- The same operations, table by table; within a table the order is that of its rows. -/
structure SameOps (left right : List PreparedOp) : Prop where
  left_ordered : left.Pairwise fun first second => entityOrder first.key.1 ≤ entityOrder second.key.1
  right_ordered : right.Pairwise fun first second => entityOrder first.key.1 ≤ entityOrder second.key.1
  perm : ∀ entity, (left.filter fun op => op.key.1 = entity).Perm
    (right.filter fun op => op.key.1 = entity)

/-- Both sides succeed, upload the same operations and end up with the same rows. -/
def MergesAlike (supply : Supply) (store : Store) (db : Db) (now : String) (opIds : Nat → String)
    (snapshot : CloudSnapshot) (accountEmail : String) (accountApiUrl : Option String) : Prop :=
  ∃ count tx uploads after,
    Native.syncInitializeCloud supply store ⟨snapshot, .merge, accountEmail, accountApiUrl, none⟩ =
      .ok (count, tx) ∧
    syncInitializeCloud db now opIds snapshot .merge accountEmail none = .ok (uploads, after) ∧
    SameOps (tx.appended.map OutboxRow.prepared) (uploads.map OutboxRow.prepared) ∧
    ∀ key, tx.tables.find key = after.rows.find key

/-- The operation holds the whole row. -/
def whole (verdict : Verdict) : Bool :=
  match verdict with
  | .create | .restore | .patch => true
  | .leave | .keep | .delete => false

/-- Both sides take the same branch for the row, or branches without an operation where the row is the server's own. No task is uploaded whole. -/
def SameBranch (snapshot : CloudSnapshot) (row : Row) : Prop :=
  (Native.mergeVerdict snapshot row = mergeVerdict snapshot row ∨
    Native.mergeVerdict snapshot row ∈ [Verdict.leave, .keep] ∧
      mergeVerdict snapshot row ∈ [Verdict.leave, .keep] ∧ snapshot.find row.key = some row) ∧
  (row.entity = .task → whole (Native.mergeVerdict snapshot row) = false)

/-! ### Texts that compare alike -/

/-- Every character is one code unit. -/
def OneUnit (text : String) : Prop := ∀ c ∈ text.toList, c.toNat < 0x10000

theorem codeUnits_of_oneUnit {text : String} (h : OneUnit text) :
    codeUnits text = text.toList.map Char.toNat := by
  have hflat : ∀ chars : List Char, (∀ c ∈ chars, c.toNat < 0x10000) →
      (chars.flatMap fun c =>
        let n := c.toNat
        if n < 0x10000 then [n] else [0xD800 + (n - 0x10000) / 0x400, 0xDC00 + (n - 0x10000) % 0x400]) =
      chars.map Char.toNat := by
    intro chars
    induction chars with
    | nil => exact fun _ => rfl
    | cons c rest ih =>
        intro hall
        rw [List.flatMap_cons, List.map_cons, ih fun other hother => hall other (List.mem_cons_of_mem c hother)]
        simp only [if_pos (hall c List.mem_cons_self), List.singleton_append]
  exact hflat text.toList h

theorem map_toNat_lt_iff (left right : List Char) :
    left.map Char.toNat < right.map Char.toNat ↔ left < right := by
  induction left generalizing right with
  | nil => cases right <;> simp
  | cons c rest ih =>
      cases right with
      | nil => simp
      | cons d more =>
          have hlt : c.toNat < d.toNat ↔ c < d := Iff.rfl
          have heq : c.toNat = d.toNat ↔ c = d := Char.toNat_inj
          rw [List.map_cons, List.map_cons, List.cons_lt_cons_iff, List.cons_lt_cons_iff, ih, hlt, heq]

/-- Instants are such texts: the two comparisons agree on them. -/
theorem later_eq_of_oneUnit {left right : String} (hleft : OneUnit left) (hright : OneUnit right) :
    later left right = Native.later left right := by
  have hless : codeUnits right < codeUnits left ↔ right < left := by
    rw [codeUnits_of_oneUnit hleft, codeUnits_of_oneUnit hright, map_toNat_lt_iff]
    exact Iff.rfl
  rw [later, Native.later]
  simp only [hless]
  cases left.isEmpty <;> cases right.isEmpty <;> simp

theorem isDeleted_eq_of_ne {row : Row} (h : row.deletedAt ≠ some "") :
    isDeleted row = row.deletedAt.isSome := by
  cases hdeleted : row.deletedAt with
  | none => simp [isDeleted, hdeleted]
  | some deletedAt =>
      rw [hdeleted] at h
      simpa [isDeleted, hdeleted] using h

/-- Dates of one length keep the slots apart. -/
theorem slotText_eq_iff {plan other : DayPlan}
    (hlength : plan.localDate.length = other.localDate.length) :
    slotText plan = slotText other ↔ (plan.taskId, plan.localDate) = (other.taskId, other.localDate) := by
  constructor
  · intro h
    have hchars := congrArg String.toList h
    simp only [slotText, String.toList_append] at hchars
    have hdates : plan.localDate.toList.length = other.localDate.toList.length := by
      rw [String.length_toList, String.length_toList, hlength]
    obtain ⟨hfront, hdate⟩ := List.append_inj' hchars hdates
    obtain ⟨htask, -⟩ := List.append_inj' hfront rfl
    rw [String.toList_inj.mp htask, String.toList_inj.mp hdate]
  · intro h
    obtain ⟨htask, hdate⟩ := Prod.mk.inj h
    rw [slotText, slotText, htask, hdate]

/-- What an instant or `null` is, and what a date is: texts on which both sides agree. -/
structure Plain (row : Row) : Prop where
  updatedAt : OneUnit row.updatedAt
  deletedAt : row.deletedAt ≠ some ""
  localDate : ∀ plan, row = .dayPlan plan → plan.localDate.length = 10

theorem holdsSlot_eq_of_plain {snapshot : CloudSnapshot} {row : Row} (hrow : Plain row)
    (hplans : ∀ plan ∈ snapshot.dayPlans, Plain (.dayPlan plan)) :
    holdsSlot snapshot row = snapshot.holdsSlot row := by
  cases row with
  | list => rfl
  | task => rfl
  | step => rfl
  | dayPlan plan =>
      have hfind : (snapshot.dayPlans.reverse.find? fun other => slotText other = slotText plan) =
          snapshot.dayPlans.reverse.find? fun other =>
            (other.taskId, other.localDate) = (plan.taskId, plan.localDate) := by
        rw [← List.head?_filter, ← List.head?_filter]
        congr 1
        apply List.filter_congr
        intro other hother
        have hlength : other.localDate.length = plan.localDate.length :=
          ((hplans other (List.mem_reverse.mp hother)).localDate other rfl).trans
            (hrow.localDate plan rfl).symm
        exact decide_eq_decide.mpr (slotText_eq_iff hlength)
      rw [holdsSlot, hfind, CloudSnapshot.holdsSlot, CloudSnapshot.slotHolder, Option.any_map]

/-- On instants and dates the two sides take the same branch. -/
theorem mergeVerdict_eq_of_plain {snapshot : CloudSnapshot} {row : Row} (hrow : Plain row)
    (hsnapshot : ∀ server ∈ snapshot.rows, Plain server) :
    mergeVerdict snapshot row = Native.mergeVerdict snapshot row := by
  have hplans : ∀ plan ∈ snapshot.dayPlans, Plain (.dayPlan plan) := fun plan hplan =>
    hsnapshot _ (List.mem_append_right _ (List.mem_map_of_mem hplan))
  rw [mergeVerdict, Native.mergeVerdict, isDeleted_eq_of_ne hrow.deletedAt,
    holdsSlot_eq_of_plain hrow hplans]
  cases hserver : snapshot.find row.key with
  | none => cases row.deletedAt.isSome <;> cases snapshot.holdsSlot row <;> rfl
  | some server =>
      have hplain : Plain server := hsnapshot server
        (List.mem_reverse.mp (List.mem_of_find?_eq_some hserver))
      simp only [isDeleted_eq_of_ne hplain.deletedAt,
        later_eq_of_oneUnit hrow.updatedAt hplain.updatedAt]
      cases server.deletedAt <;> rfl

/-! ### The operations -/

theorem filter_orderedOps (ops : List PreparedOp) (entity : EntityType) :
    (orderedOps ops).filter (fun op => op.key.1 = entity) = ops.filter fun op => op.key.1 = entity := by
  have hboth : ∀ left right : EntityType, (ops.filter fun op => op.key.1 = left).filter
      (fun op => op.key.1 = right) = if left = right then ops.filter fun op => op.key.1 = right else [] := by
    intro left right
    rw [List.filter_filter]
    split
    · rename_i heq
      subst heq
      simp
    · rename_i hne
      apply List.filter_eq_nil_iff.mpr
      intro op _ hop
      simp only [Bool.and_eq_true, decide_eq_true_eq] at hop
      exact hne (hop.2.symm.trans hop.1)
  cases entity <;> simp [orderedOps, List.filter_append, hboth]

theorem orderedOps_ordered (ops : List PreparedOp) :
    (orderedOps ops).Pairwise fun first second =>
      entityOrder first.key.1 ≤ entityOrder second.key.1 := by
  have hsame : ∀ entity, (ops.filter fun op => op.key.1 = entity).Pairwise fun first second =>
      entityOrder first.key.1 ≤ entityOrder second.key.1 := by
    intro entity
    rw [List.pairwise_filter]
    apply List.pairwise_of_forall
    intro first second hfirst hsecond
    rw [of_decide_eq_true hfirst, of_decide_eq_true hsecond]
  simp only [orderedOps, List.flatMap_cons, List.flatMap_nil, List.append_nil, List.pairwise_append,
    hsame, true_and, List.mem_append, List.mem_filter, decide_eq_true_eq]
  refine ⟨⟨?_, ?_⟩, ?_⟩ <;> simp +contextual [or_imp, entityOrder]

theorem prepared_uploads (deviceId now : String) (opIds : Nat → String) (ops : List PreparedOp) :
    (uploads deviceId now opIds ops).map OutboxRow.prepared = ops := by
  rw [uploads, List.map_map]
  have hfst : ∀ start, (ops.zipIdx start).map Prod.fst = ops := fun start => List.zipIdx_map_fst start ops
  exact hfst 1

theorem preparedOps_ordered (snapshot : CloudSnapshot) (tables : Tables) :
    (preparedOps snapshot tables.rows).Pairwise fun first second =>
      entityOrder first.key.1 ≤ entityOrder second.key.1 := by
  rw [preparedOps, List.pairwise_filterMap]
  have hordered : Ordered tables.rows := ordered_rows _ _ _ _
  refine hordered.imp fun horder first hfirst second hsecond => ?_
  have hkey : ∀ {verdict : Verdict} {full : Data} {key : RowKey} {op : PreparedOp},
      verdict.op full key = some op → op.key = key := by
    intro verdict full key op hop
    cases verdict <;> cases hop <;> rfl
  rw [hkey hfirst, hkey hsecond]
  exact horder

theorem putMember_of_lookup_eq_none {key : String} {data : Data} (h : data.lookup key = none)
    (value : Json) : Json.putMember key value data = data ++ [(key, value)] := by
  induction data with
  | nil => rfl
  | cons member rest ih =>
      obtain ⟨name, old⟩ := member
      rw [Json.lookup_cons_eq_ite] at h
      split at h
      · cases h
      · rename_i hne
        rw [Json.putMember, if_neg (Ne.symm hne), ih h, List.cons_append]

/-- Copying fields appends the ones that are there. -/
theorem copyFields_eq_append (value : Data) {fields : List String} (hnodup : fields.Nodup)
    {data : Data} (hfree : ∀ field ∈ fields, data.lookup field = none) :
    copyFields value fields data =
      data ++ fields.filterMap fun field => (value.lookup field).map fun found => (field, found) := by
  induction fields generalizing data with
  | nil => exact (List.append_nil data).symm
  | cons field rest ih =>
      obtain ⟨hnew, hrest⟩ := List.nodup_cons.mp hnodup
      rw [copyFields, List.filterMap_cons]
      cases hlookup : value.lookup field with
      | none => exact ih hrest fun other hother => hfree other (List.mem_cons_of_mem field hother)
      | some found =>
          have hput := putMember_of_lookup_eq_none (hfree field List.mem_cons_self) found
          have hstill : ∀ other ∈ rest, (Json.putMember field found data).lookup other = none := by
            intro other hother
            rw [Json.lookup_putMember, if_neg fun heq : other = field => hnew (heq ▸ hother)]
            exact hfree other (List.mem_cons_of_mem field hother)
          show copyFields value rest (Json.putMember field found data) = _
          rw [ih hrest hstill, hput, List.append_assoc]
          rfl

/-- The two full patches are the same, but for the tags of a task. -/
theorem fullPatch_eq {entity : EntityType} (hentity : entity ≠ .task) (value : Data) :
    fullPatch entity value = Native.fullPatch entity value := by
  have hfields : mutableFields entity = Native.mutableFields entity := by
    cases entity with
    | task => exact absurd rfl hentity
    | list => rfl
    | step => rfl
    | dayPlan => rfl
  have hnodup : (Native.mutableFields entity).Nodup := by cases entity <;> decide
  rw [fullPatch, mutablePatch, hfields, Native.fullPatch,
    copyFields_eq_append value hnodup fun _ _ => rfl, List.nil_append]

theorem fullPatch_task_ne (task : Task) :
    fullPatch .task task.data ≠ Native.fullPatch .task task.data := by
  intro h
  have htags : (Native.fullPatch .task task.data).lookup "tags" = some (tagsJson task.tags) := by
    rw [Native.fullPatch, lookup_copyFields, if_pos (by decide)]
    rfl
  have hnone : (fullPatch .task task.data).lookup "tags" = none := by
    rfl
  rw [← h, hnone] at htags
  cases htags

/-! ### The rows -/

section

variable {store : Store} {db : Db} {snapshot : CloudSnapshot}

theorem keyed_of_same (hsame : ∀ key, db.rows.find key = store.find key) : db.rows.Keyed :=
  fun key _ hfind => store.key_of_find ((hsame key).symm.trans hfind)

theorem find_mergedLocal (hsame : ∀ key, db.rows.find key = store.find key) (key : RowKey) :
    (mergedLocal snapshot db.rows.rows).find key =
      ((store.find key).filter fun row => (mergeVerdict snapshot row).takes).or (snapshot.find key) := by
  rw [mergedLocal, Tables.find_foldl_take (keyed_of_same hsame)
    (fun row => (mergeVerdict snapshot row).takes), Tables.find_collect, hsame]

theorem rows_perm (hsame : ∀ key, db.rows.find key = store.find key) :
    store.rows.val.rows.Perm db.rows.rows := by
  have hkeyed := store.rows.property.keyed
  refine (List.perm_ext_iff_of_nodup (Tables.nodup_rows hkeyed)
    (Tables.nodup_rows (keyed_of_same hsame))).mpr fun _ => ?_
  rw [Tables.mem_rows hkeyed, Tables.mem_rows (keyed_of_same hsame), hsame]
  rfl

/-- The operation tells the branch, and the patch where it holds the whole row. -/
theorem op_injective {left right : Verdict} {leftFull rightFull : Data} {key : RowKey} {op : PreparedOp}
    (hleft : left.op leftFull key = some op) (hright : right.op rightFull key = some op) :
    left = right ∧ (whole left = true → leftFull = rightFull) := by
  cases left <;> cases right <;> cases hleft <;> cases hright <;> simp [whole]

theorem key_of_op {verdict : Verdict} {full : Data} {key : RowKey} {op : PreparedOp}
    (h : verdict.op full key = some op) : op.key = key := by
  cases verdict <;> cases h <;> rfl

theorem op_eq_none_iff {verdict : Verdict} {full : Data} {key : RowKey} :
    verdict.op full key = none ↔ verdict ∈ [Verdict.leave, .keep] := by
  cases verdict <;> simp [Verdict.op]

theorem mem_of_sameOps {left right : List PreparedOp} (h : SameOps left (orderedOps right))
    (op : PreparedOp) : op ∈ left ↔ op ∈ right := by
  have hmem := (h.perm op.key.1).mem_iff (a := op)
  rw [filter_orderedOps] at hmem
  simpa using hmem

theorem mem_preparedOps {op : PreparedOp} : op ∈ preparedOps snapshot store.rows.val.rows ↔
    ∃ row, store.find row.key = some row ∧
      (Native.mergeVerdict snapshot row).op (Native.fullPatch row.entity row.data) row.key = some op := by
  rw [preparedOps, List.mem_filterMap]
  refine exists_congr fun row => and_congr_left fun _ => ?_
  exact Tables.mem_rows store.rows.property.keyed

theorem mem_ops (hsame : ∀ key, db.rows.find key = store.find key) {op : PreparedOp} :
    op ∈ ops snapshot db.rows.rows ↔ ∃ row, store.find row.key = some row ∧
      (mergeVerdict snapshot row).op (fullPatch row.entity row.data) row.key = some op := by
  rw [ops, List.mem_filterMap]
  refine exists_congr fun row => and_congr_left fun _ => ?_
  rw [Tables.mem_rows (keyed_of_same hsame), hsame]

/-- The operations about a row, on either side. -/
theorem op_eq_of_mem_iff (hsame : ∀ key, db.rows.find key = store.find key)
    (hmem : ∀ op, op ∈ preparedOps snapshot store.rows.val.rows ↔ op ∈ ops snapshot db.rows.rows)
    {row : Row} (hrow : store.find row.key = some row) :
    (Native.mergeVerdict snapshot row).op (Native.fullPatch row.entity row.data) row.key =
      (mergeVerdict snapshot row).op (fullPatch row.entity row.data) row.key := by
  apply Option.ext
  intro op
  constructor
  · intro hop
    obtain ⟨other, hother, hotherOp⟩ := (mem_ops hsame).mp ((hmem op).mp (mem_preparedOps.mpr ⟨row, hrow, hop⟩))
    have hkey : other.key = row.key := (key_of_op hotherOp).symm.trans (key_of_op hop)
    have heq : other = row := Option.some.inj (hother.symm.trans (hkey ▸ hrow))
    exact heq ▸ hotherOp
  · intro hop
    obtain ⟨other, hother, hotherOp⟩ := mem_preparedOps.mp ((hmem op).mpr ((mem_ops hsame).mpr ⟨row, hrow, hop⟩))
    have hkey : other.key = row.key := (key_of_op hotherOp).symm.trans (key_of_op hop)
    have heq : other = row := Option.some.inj (hother.symm.trans (hkey ▸ hrow))
    exact heq ▸ hotherOp

/-- Equal operations come from one branch, and no task is uploaded whole. -/
theorem branch_of_op_eq {row : Row}
    (h : (Native.mergeVerdict snapshot row).op (Native.fullPatch row.entity row.data) row.key =
      (mergeVerdict snapshot row).op (fullPatch row.entity row.data) row.key) :
    (Native.mergeVerdict snapshot row = mergeVerdict snapshot row ∨
      Native.mergeVerdict snapshot row ∈ [Verdict.leave, .keep] ∧
        mergeVerdict snapshot row ∈ [Verdict.leave, .keep]) ∧
    (row.entity = .task → whole (Native.mergeVerdict snapshot row) = false) := by
  cases hop : (Native.mergeVerdict snapshot row).op (Native.fullPatch row.entity row.data) row.key with
  | none =>
      have hnative := op_eq_none_iff.mp hop
      refine ⟨Or.inr ⟨hnative, op_eq_none_iff.mp (h.symm.trans hop)⟩, fun _ => ?_⟩
      simp only [List.mem_cons, List.not_mem_nil, or_false] at hnative
      rcases hnative with hverdict | hverdict <;> rw [hverdict] <;> rfl
  | some op =>
      obtain ⟨hverdict, hpatch⟩ := op_injective hop (h.symm.trans hop)
      refine ⟨Or.inl hverdict, fun htask => ?_⟩
      cases row with
      | task task =>
          rw [← Bool.not_eq_true]
          exact fun hwhole => fullPatch_task_ne task (hpatch hwhole).symm
      | list => cases htask
      | step => cases htask
      | dayPlan => cases htask

theorem op_eq_of_branch {row : Row} (h : SameBranch snapshot row) :
    (Native.mergeVerdict snapshot row).op (Native.fullPatch row.entity row.data) row.key =
      (mergeVerdict snapshot row).op (fullPatch row.entity row.data) row.key := by
  obtain ⟨hverdict | ⟨hnative, hweb, -⟩, htask⟩ := h
  · rw [← hverdict]
    by_cases hentity : row.entity = .task
    · have hwhole := htask hentity
      cases hbranch : Native.mergeVerdict snapshot row <;> rw [hbranch] at hwhole <;>
        first | rfl | cases hwhole
    · rw [fullPatch_eq hentity]
  · rw [op_eq_none_iff.mpr hnative, op_eq_none_iff.mpr hweb]

/-- The merged rows, under a key with and without a local row. -/
theorem find_eq_of_branches (hsame : ∀ key, db.rows.find key = store.find key)
    (h : ∀ row, store.find row.key = some row → SameBranch snapshot row) (key : RowKey) :
    (Native.mergedLocal snapshot store.rows.val.rows).find key =
      (mergedLocal snapshot db.rows.rows).find key := by
  rw [Native.find_mergedLocal, find_mergedLocal hsame]
  cases hrow : store.find key with
  | none => rfl
  | some row =>
      have hkey := store.key_of_find hrow
      subst hkey
      obtain ⟨hverdict | ⟨-, -, hserver⟩, -⟩ := h row hrow
      · rw [Option.filter_some, Option.filter_some, hverdict]
      · rw [hserver, Option.filter_some, Option.filter_some]
        split <;> split <;> rfl

/-- Where the rows come out the same, a row that is taken on one side only is the server's own. -/
theorem server_row_of_find_eq (hsame : ∀ key, db.rows.find key = store.find key) {row : Row}
    (hrow : store.find row.key = some row)
    (hfind : (Native.mergedLocal snapshot store.rows.val.rows).materialized.find row.key =
      (mergedLocal snapshot db.rows.rows).find row.key)
    (hnative : Native.mergeVerdict snapshot row ∈ [Verdict.leave, .keep])
    (hweb : mergeVerdict snapshot row ∈ [Verdict.leave, .keep])
    (hne : Native.mergeVerdict snapshot row ≠ mergeVerdict snapshot row) :
    snapshot.find row.key = some row := by
  rw [find_mergedLocal hsame, hrow, Option.filter_some] at hfind
  have hmerged : (Native.mergedLocal snapshot store.rows.val.rows).find row.key =
      ((store.find row.key).filter fun row => (Native.mergeVerdict snapshot row).takes).or
        (snapshot.find row.key) := Native.find_mergedLocal row.key
  rw [hrow, Option.filter_some] at hmerged
  simp only [List.mem_cons, List.not_mem_nil, or_false] at hnative hweb
  rcases hnative with hnative | hnative <;> rcases hweb with hweb | hweb
  · exact absurd (hnative.trans hweb.symm) hne
  · rw [hweb] at hfind
    have hfound := (Tables.find_materialized_eq_some_iff.mp hfind).1
    rw [hmerged, hnative] at hfound
    exact hfound
  · rw [hweb] at hfind
    rw [hnative] at hmerged
    cases hserver : snapshot.find row.key with
    | none =>
        rw [Native.mergeVerdict, hserver] at hnative
        revert hnative
        simp only
        split
        · exact fun h => nomatch h
        · split <;> exact fun h => nomatch h
    | some server =>
        have hfound : (Native.mergedLocal snapshot store.rows.val.rows).materialized.find row.key =
            some server := hfind.trans hserver
        have hboth := (Tables.find_materialized_eq_some_iff.mp hfound).1.symm.trans hmerged
        exact hboth
  · exact absurd (hnative.trans hweb.symm) hne

end

theorem mergesAlike_iff_branches (supply : Supply) (hfresh : Function.Injective supply.opId) (store : Store)
    (db : Db) (hsame : ∀ key, db.rows.find key = store.find key) (now : String)
    (opIds : Nat → String) (snapshot : CloudSnapshot) (accountEmail : String)
    (accountApiUrl : Option String) :
    MergesAlike supply store db now opIds snapshot accountEmail accountApiUrl ↔
      Native.normalizeEmail accountEmail ≠ "" ∧ MergeClosed store snapshot ∧
        ∀ row, store.find row.key = some row → SameBranch snapshot row := by
  have hweb : syncInitializeCloud db now opIds snapshot .merge accountEmail none =
      .ok (uploads db.kv.deviceId now opIds (orderedOps (ops snapshot db.rows.rows)),
        initialized db (mergedLocal snapshot db.rows.rows)
          (uploads db.kv.deviceId now opIds (orderedOps (ops snapshot db.rows.rows))) snapshot
          accountEmail) := by
    have hsession : assertSyncSession db none = .ok () := refuseIf_eq_ok_iff.mpr (by simp)
    rw [syncInitializeCloud, hsession]
    rfl
  have hsucceeds : (∃ count tx, Native.syncInitializeCloud supply store
      ⟨snapshot, .merge, accountEmail, accountApiUrl, none⟩ = .ok (count, tx)) ↔
      Native.normalizeEmail accountEmail ≠ "" ∧
        (Native.mergedLocal snapshot store.rows.val.rows).materialized.Consistent :=
    @syncInitializeCloud_succeeds_iff store supply ⟨snapshot, .merge, accountEmail, accountApiUrl, none⟩
      hfresh rfl rfl
  constructor
  · rintro ⟨count, tx, sent, after, hnative, hafter, hops, hfind⟩
    rw [hweb] at hafter
    cases hafter
    obtain ⟨happended, htables⟩ := syncInitializeCloud_ok hfresh rfl hnative
    rw [happended, prepared_uploads] at hops
    have haccount := (hsucceeds.mp ⟨count, tx, hnative⟩).1
    have hrows : ∀ key, (Native.mergedLocal snapshot store.rows.val.rows).materialized.find key =
        (mergedLocal snapshot db.rows.rows).find key := fun key =>
      (htables key).symm.trans (hfind key)
    have hbranches : ∀ row, store.find row.key = some row → SameBranch snapshot row := by
      intro row hrow
      obtain ⟨hverdict, htask⟩ := branch_of_op_eq (op_eq_of_mem_iff hsame (mem_of_sameOps hops) hrow)
      refine ⟨?_, htask⟩
      by_cases hsame' : Native.mergeVerdict snapshot row = mergeVerdict snapshot row
      · exact Or.inl hsame'
      · obtain ⟨hleft, hright⟩ := hverdict.resolve_left hsame'
        exact Or.inr ⟨hleft, hright,
          server_row_of_find_eq hsame hrow (hrows row.key) hleft hright hsame'⟩
    refine ⟨haccount, consistent_mergedLocal_iff.mp ?_, hbranches⟩
    apply tx.store.rows.property.of_find_eq
    intro key
    rw [find_eq_of_branches hsame hbranches]
    exact (hfind key).symm
  · rintro ⟨haccount, hclosed, hbranches⟩
    have hconsistent := consistent_mergedLocal_iff.mpr hclosed
    have hmaterialized := hconsistent.materialized_eq
    obtain ⟨count, tx, hnative⟩ := hsucceeds.mpr ⟨haccount, hmaterialized.symm ▸ hconsistent⟩
    obtain ⟨happended, htables⟩ := syncInitializeCloud_ok hfresh rfl hnative
    refine ⟨count, tx, _, _, hnative, hweb, ?_, fun key => ?_⟩
    · rw [happended, prepared_uploads]
      refine ⟨preparedOps_ordered snapshot _, orderedOps_ordered _, fun entity => ?_⟩
      rw [filter_orderedOps]
      apply List.Perm.filter
      have hmap : preparedOps snapshot store.rows.val.rows = ops snapshot store.rows.val.rows := by
        apply List.filterMap_congr
        intro row hmem
        exact op_eq_of_branch (hbranches row ((Tables.mem_rows store.rows.property.keyed).mp hmem))
      show (preparedOps snapshot store.rows.val.rows).Perm _
      rw [hmap]
      exact (rows_perm hsame).filterMap _
    · rw [htables, hmaterialized, find_eq_of_branches hsame hbranches]
      rfl

/-- The two merges agree exactly when the account is named, the rows that stay have their parents among them, and both take the same branches and upload no task whole. On instants and dates the branches are the same, and only the whole tasks are left. -/
theorem merges_alike_iff (supply : Supply) (hfresh : Function.Injective supply.opId) (store : Store)
    (db : Db) (hsame : ∀ key, db.rows.find key = store.find key) (now : String)
    (opIds : Nat → String) (snapshot : CloudSnapshot) (accountEmail : String)
    (accountApiUrl : Option String) :
    (MergesAlike supply store db now opIds snapshot accountEmail accountApiUrl ↔
      Native.normalizeEmail accountEmail ≠ "" ∧ MergeClosed store snapshot ∧
        ∀ row, store.find row.key = some row → SameBranch snapshot row) ∧
    ((∀ row, store.find row.key = some row → Plain row) → (∀ server ∈ snapshot.rows, Plain server) →
      (MergesAlike supply store db now opIds snapshot accountEmail accountApiUrl ↔
        Native.normalizeEmail accountEmail ≠ "" ∧ MergeClosed store snapshot ∧
          ∀ row, store.find row.key = some row → row.entity = .task →
            whole (Native.mergeVerdict snapshot row) = false)) := by
  have hall := mergesAlike_iff_branches supply hfresh store db hsame now opIds snapshot accountEmail
    accountApiUrl
  refine ⟨hall, fun hplain hserver => ?_⟩
  rw [hall]
  refine and_congr_right fun _ => and_congr_right fun _ => forall_congr' fun row => ?_
  refine forall_congr' fun hrow => ⟨fun hbranch => hbranch.2, fun htask => ⟨Or.inl ?_, htask⟩⟩
  exact (mergeVerdict_eq_of_plain (hplain row hrow) hserver).symm

/-- Identifiers that tell their sequence. -/
def countedId (seq : Int) : String :=
  String.ofList ((if seq < 0 then '-' else '+') :: List.replicate seq.natAbs '1')

theorem countedId_injective : Function.Injective countedId := by
  intro left right h
  obtain ⟨hsign, hlength⟩ := List.cons.inj (String.ofList_injective h)
  have habs : left.natAbs = right.natAbs := by simpa using congrArg List.length hlength
  by_cases hleft : left < 0 <;> by_cases hright : right < 0 <;> simp [hleft, hright] at hsign <;> omega

/-- The browser's database with the rows of a native store. -/
def copyOf (store : Store) : Db where
  rows := store.rows.val
  mutations := ∅
  shadow := ∅
  kv := ⟨"browser", 0, false, "0", "", false, none⟩

def sampleSupply : Supply := ⟨"2026-10-21T05:00:00.000Z", "id", "plan", countedId⟩

/-- A list that the server does not have. -/
def oneList : Row :=
  .list ⟨"list", "Home", none, none, "000001", "2026-10-21T05:00:00.000Z", "2026-10-21T05:00:00.000Z", none⟩

/-- A task that the server does not have. -/
def oneTask : Row :=
  .task ⟨"task", none, "Buy milk", "", ["home"], .open, false, none, none, none, "000001", none, none,
    none, none, "2026-10-21T05:00:00.000Z", "2026-10-21T05:00:00.000Z", none⟩

def listStore : Store := { Store.open "device" with
  rows := ⟨Tables.empty.put oneList, by decide⟩ }

def taskStore : Store := { Store.open "device" with
  rows := ⟨Tables.empty.put oneTask, by decide⟩ }

/-- An account without any rows. -/
def noRows : CloudSnapshot := ⟨"0", [], [], [], []⟩

instance (snapshot : CloudSnapshot) (row : Row) : Decidable (SameBranch snapshot row) :=
  inferInstanceAs (Decidable ((_ ∨ _ ∧ _ ∧ _) ∧ (_ → _)))

theorem merges_alike_list :
    MergesAlike sampleSupply listStore (copyOf listStore) "now" (fun seq => countedId seq) noRows
      "user@example.com" none := by
  refine (merges_alike_iff sampleSupply countedId_injective listStore (copyOf listStore)
    (fun _ => rfl) "now" (fun seq => countedId seq) noRows "user@example.com" none).1.mpr
    ⟨by decide, consistent_mergedLocal_iff.mp (by decide), fun row hrow => ?_⟩
  have hall : ∀ row ∈ listStore.rows.val.rows, SameBranch noRows row := by decide
  exact hall row ((Tables.mem_rows listStore.rows.property.keyed).mpr hrow)

theorem task_uploaded_without_tags :
    ¬ ∀ (supply : Supply), Function.Injective supply.opId → ∀ (store : Store) (db : Db),
      (∀ key, db.rows.find key = store.find key) → ∀ (now : String) (opIds : Nat → String)
        (snapshot : CloudSnapshot) (accountEmail : String) (accountApiUrl : Option String),
        Native.normalizeEmail accountEmail ≠ "" →
        MergesAlike supply store db now opIds snapshot accountEmail accountApiUrl := by
  intro h
  obtain ⟨count, tx, sent, after, hnative, hweb, hops, -⟩ := h sampleSupply countedId_injective taskStore
    (copyOf taskStore) (fun _ => rfl) "now" (fun seq => countedId seq) noRows "user@example.com" none
    (by decide)
  have htags : ((Native.syncInitializeCloud sampleSupply taskStore
      ⟨noRows, .merge, "user@example.com", none, none⟩).toOption.map fun result =>
        (result.2.appended.map OutboxRow.prepared).all fun op => (op.patch.lookup "tags").isSome) =
      some true := by
    decide
  have hnone : ((syncInitializeCloud (copyOf taskStore) "now" (fun seq => countedId seq) noRows .merge
      "user@example.com" none).toOption.map fun result =>
        (result.1.map OutboxRow.prepared).any fun op => (op.patch.lookup "tags").isNone) = some true := by
    decide
  rw [hnative] at htags
  rw [hweb] at hnone
  obtain ⟨op, hsent, hop⟩ := List.any_eq_true.mp (Option.some.inj hnone)
  have hfilter : op ∈ (sent.map OutboxRow.prepared).filter fun other => other.key.1 = op.key.1 :=
    List.mem_filter.mpr ⟨hsent, decide_eq_true rfl⟩
  have hmem := List.mem_of_mem_filter ((hops.perm op.key.1).mem_iff.mpr hfilter)
  have hsome := List.all_eq_true.mp (Option.some.inj htags) op hmem
  rw [Option.isNone_iff_eq_none.mp hop] at hsome
  cases hsome

end ShishiTodo.Web
