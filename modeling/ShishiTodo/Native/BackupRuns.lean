import ShishiTodo.Native.Tidied
import ShishiTodo.Native.Operations

/-!
# Backups of the stores that runs reach

The answers of the server and its snapshots keep a store tidy as far as they are tidy themselves: rows are projected again from the copies and the outbox, and a projection finds a name or a title by itself. So every store that such runs reach can be exported and imported again.
-/

namespace ShishiTodo.Native

open Lib

section

variable {texts : Texts} {store : Store} {supply : Supply} {tx after : Tx} {row : Row}

/-! ### Projections -/

variable {now : String}

theorem not_blank_requiredString {data : Data} {key fallback : String} (h : ¬ Blank fallback) :
    ¬ Blank (requiredString data key fallback) := by
  rw [requiredString]
  cases hfound : (stringField data key).filter fun value => !(trim value).isEmpty with
  | none => exact h
  | some value =>
      obtain ⟨-, hfilled⟩ := Option.filter_eq_some_iff.mp hfound
      rw [Option.getD_some, ← trim_isEmpty_iff]
      simpa using hfilled

/-- What is read from data has a name or a title, and the tags of the data. -/
theorem tidy_rowFromData {key : RowKey} {data : Data} (h : key.1 = .task → Each (TidyTags texts) data) :
    TidyRow texts (rowFromData texts key data now) := by
  obtain ⟨entity, id⟩ := key
  cases entity with
  | list => exact not_blank_requiredString (by decide)
  | task => exact ⟨not_blank_requiredString (by decide), normal_tagsFromData (h rfl)⟩
  | step => trivial
  | dayPlan => trivial

theorem TidySources.pending (h : TidySources texts store) {key : RowKey} (hkey : key.1 = .task) :
    ∀ mutation ∈ pendingForEntity store.outbox key, Each (TidyTags texts) mutation.patch := by
  intro mutation hmutation
  obtain ⟨hmem, hown⟩ := mem_pendingForEntity hmutation
  exact h.outbox mutation hmem ((congrArg Prod.fst hown).trans hkey)

theorem tidy_projectedRow (h : TidySources texts store) {key : RowKey} {copy : ShadowRow}
    (hcopy : store.shadow.lookup key = some copy) : TidyRow texts (projectedRow texts store key copy now) := by
  apply tidy_rowFromData
  intro hkey
  obtain ⟨entity, id⟩ := key
  cases hkey
  exact (h.shadow id copy hcopy).projected tidyTags_own (h.pending rfl)

theorem tidy_fitted {tables : Tables} {written : Row} (h : TidyRow texts row)
    (hfitted : fitted tables row = some written) : TidyRow texts written := by
  cases row with
  | list list =>
      cases hfitted
      exact h
  | task task =>
      cases hfitted
      exact h
  | step step =>
      rw [fitted] at hfitted
      split at hfitted <;> cases hfitted
      trivial
  | dayPlan plan =>
      rw [fitted] at hfitted
      split at hfitted <;> cases hfitted
      trivial

/-- Only a step or a plan can be left out, and those are tidy anyway. -/
theorem tidy_of_not_fitted {tables : Tables} {other : Row} (h : fitted tables row = none)
    (hkey : other.key = row.key) : TidyRow texts other := by
  have hentity : other.entity = row.entity := congrArg Prod.fst hkey
  cases row with
  | list list => cases h
  | task task => cases h
  | step step =>
      cases other with
      | step other => trivial
      | list other => cases hentity
      | task other => cases hentity
      | dayPlan other => cases hentity
  | dayPlan plan =>
      cases other with
      | dayPlan other => trivial
      | list other => cases hentity
      | task other => cases hentity
      | step other => cases hentity

/-- Rows are tidy, but for those that are excused. -/
def TidyBut (texts : Texts) (excused : RowKey → Prop) (tables : Tables) : Prop :=
  ∀ key row, tables.find key = some row → ¬ excused key → TidyRow texts row

/-- An entity with a copy needs no excuse once it is projected. -/
theorem reprojectStep_tidy {excused : RowKey → Prop} {key : RowKey} (hsources : TidySources texts tx.store)
    (hrows : TidyBut texts excused tx.tables) (hcopy : excused key → (tx.store.shadow.lookup key).isSome)
    (h : reprojectStep texts now tx key = .ok after) :
    TidyBut texts (fun other => excused other ∧ other ≠ key) after.tables := by
  obtain ⟨rows, hproject, hval⟩ := reprojectEntity_eq texts tx key now
  have hsame : after = tx.withRows rows := Except.ok.inj (h.symm.trans hproject)
  subst hsame
  intro other found hfind hexcused
  rw [Tx.withRows_tables, hval] at hfind
  cases hlookup : tx.store.shadow.lookup key with
  | none =>
      rw [hlookup] at hfind hcopy
      refine hrows other found hfind fun hother => ?_
      by_cases heq : other = key
      · subst heq
        cases hcopy hother
      · exact hexcused ⟨hother, heq⟩
  | some copy =>
      rw [hlookup] at hfind
      have hkey := projectedRow_key texts now tx.store key copy
      have htidy : TidyRow texts (projectedRow texts tx.store key copy now) := tidy_projectedRow hsources hlookup
      dsimp only at hfind
      cases hfitted : fitted tx.tables (projectedRow texts tx.store key copy now) with
      | none =>
          rw [hfitted] at hfind
          by_cases heq : other = key
          · exact tidy_of_not_fitted hfitted (((tx.store.key_of_find hfind).trans heq).trans hkey.symm)
          · exact hrows other found hfind fun hother => hexcused ⟨hother, heq⟩
      | some written =>
          rw [hfitted] at hfind
          dsimp only at hfind
          rw [Tables.find_put] at hfind
          split at hfind
          · cases hfind
            exact tidy_fitted htidy hfitted
          · rename_i hne
            have hother : other ≠ key := fun heq => hne ((heq.trans hkey.symm).trans (fitted_some hfitted).1.symm)
            exact hrows other found (find_of_find_cleared hfind) fun hold => hexcused ⟨hold, hother⟩

theorem reprojectSteps_tidy : ∀ {keys : List RowKey} {excused : RowKey → Prop} {tx after : Tx},
    TidySources texts tx.store → TidyBut texts excused tx.tables →
    (∀ key, excused key → (tx.store.shadow.lookup key).isSome) →
    keys.foldlM (reprojectStep texts now) tx = .ok after →
    TidyBut texts (fun key => excused key ∧ key ∉ keys) after.tables
  | [], excused, tx, after, _, hrows, _, h => by
      cases h
      exact fun key row hfind hnot => hrows key row hfind fun hexcused => hnot ⟨hexcused, List.not_mem_nil⟩
  | key :: rest, excused, tx, after, hsources, hrows, hcopy, h => by
      rw [List.foldlM_cons] at h
      obtain ⟨next, hnext, h⟩ := bind_eq_ok_iff.mp h
      have htidy := reprojectStep_tidy hsources hrows (hcopy key) hnext
      obtain ⟨⟨rows, rfl⟩, -⟩ := reprojectStep_ok hnext
      have hsources : TidySources texts (tx.withRows rows).store := ⟨hsources.outbox, hsources.shadow⟩
      have hrest := reprojectSteps_tidy hsources htidy (fun other hother => hcopy other hother.1) h
      intro other row hfind hnot
      refine hrest other row hfind fun hexcused => hnot ⟨hexcused.1.1, fun hmem => ?_⟩
      exact (List.mem_cons.mp hmem).elim hexcused.1.2 hexcused.2

/-- Once the affected entities are projected, every row is tidy that was not, if it is among them and has a copy. -/
theorem reprojectEntities_tidied {excused : RowKey → Prop} {affected : List RowKey}
    (hsources : TidySources texts tx.store) (hrows : TidyBut texts excused tx.tables)
    (hexcused : ∀ key, excused key → key ∈ affected ∧ (tx.store.shadow.lookup key).isSome)
    (h : reprojectEntities texts tx affected now = .ok after) : Tidied texts after.store := by
  have htidy := reprojectSteps_tidy hsources hrows (fun key hkey => (hexcused key hkey).2) h
  obtain ⟨rows, hwrote⟩ := reprojectEntities_ok texts affected now tx
  have hsame : after = tx.withRows rows := Except.ok.inj (h.symm.trans hwrote)
  subst hsame
  refine ⟨⟨hsources.outbox, hsources.shadow⟩, fun key row hfind => htidy key row hfind fun hkey => hkey.2 ?_⟩
  rw [List.mem_insertionSort, List.mem_dedup]
  exact (hexcused key hkey.1).1

/-! ### Answers of the server -/

/-- The tags that a change brings are normal. -/
def ServerChange.TidyTags (texts : Texts) (change : ServerChange) : Prop :=
  change.entity = .task → ∀ members, change.patch = .obj members →
    Each (fun name value => Native.TidyTags texts (snakeToCamel texts name) value) members

theorem acked_tidy {outbox : Table String OutboxRow} {acks : List ServerAck}
    (h : ∀ row ∈ outbox.values, row.entity = .task → Each (TidyTags texts) row.patch) :
    ∀ row ∈ (applyAcks outbox acks).2.values, row.entity = .task → Each (TidyTags texts) row.patch := by
  intro row hrow
  obtain ⟨opId, hlookup⟩ := Table.mem_values_iff.mp hrow
  rcases lookup_applyAcks opId acks outbox with hsame | ⟨before, hbefore, ⟨hnone, -⟩ | ⟨_, -, -, -, hrejected⟩⟩
  · rw [hsame] at hlookup
    exact h row (Table.mem_values_iff.mpr ⟨opId, hlookup⟩)
  · rw [hnone] at hlookup
    cases hlookup
  · rw [hrejected] at hlookup
    cases hlookup
    exact h before (Table.mem_values_iff.mpr ⟨opId, hbefore⟩)

theorem tidy_changePatch {change : ServerChange} (h : change.TidyTags texts) (hentity : change.entity = .task)
    {object : Data} (hobject : patchObject change.patch = .ok object) :
    Each (TidyTags texts) (normalizedPatch change.kind (camelizeObject texts object) now) := by
  refine Each.normalizedPatch tidyTags_own ?_ change.kind now
  have hmembers : Each (fun name value => TidyTags texts (snakeToCamel texts name) value) object := by
    cases hpatch : change.patch with
    | obj members =>
        rw [hpatch] at hobject
        cases hobject
        exact h hentity _ hpatch
    | null =>
        rw [hpatch] at hobject
        cases hobject
        exact each_nil
    | _ =>
        rw [hpatch] at hobject
        cases hobject
  refine Each.merge ?_ each_nil
  intro member hmember
  obtain ⟨old, hold, rfl⟩ := List.mem_map.mp hmember
  exact hmembers old hold

/-- A change keeps the sources tidy, and leaves no row untidy but its own, which has a copy then. -/
theorem applyServerChange_tidy {change : ServerChange} {changed : RowKey → Prop} (hchanged : changed change.key)
    (htags : change.TidyTags texts) (hsources : TidySources texts tx.store)
    (hrows : TidyBut texts (fun key => changed key ∧ (tx.store.shadow.lookup key).isSome) tx.tables)
    (h : applyServerChange texts now tx change = .ok after) :
    TidySources texts after.store ∧
      TidyBut texts (fun key => changed key ∧ (after.store.shadow.lookup key).isSome) after.tables := by
  obtain ⟨object, hobject, h⟩ := bind_eq_ok_iff.mp h
  change applyMaterializedChange (tx.withShadow change.key _) change.key change.kind _ _ now = _ at h
  have hpayload : change.entity = .task → Each (TidyTags texts) (mergeData
      (normalizedPatch change.kind (camelizeObject texts object) now) (shadowPayload tx.store change.key)) := by
    intro hentity
    apply (tidy_changePatch htags hentity hobject).merge
    rw [shadowPayload]
    cases hlookup : tx.store.shadow.lookup change.key with
    | none => exact each_nil
    | some copy =>
        have hkey : change.key = (.task, change.entityId) := Prod.ext hentity rfl
        rw [hkey] at hlookup
        exact hsources.shadow _ copy hlookup
  have hshadow : TidySources texts (tx.withShadow change.key ⟨change.serverSeq, mergeData
      (normalizedPatch change.kind (camelizeObject texts object) now)
      (shadowPayload tx.store change.key)⟩).store := by
    refine ⟨hsources.outbox, fun id copy hlookup => ?_⟩
    change (tx.store.shadow.insert change.key _).lookup (EntityType.task, id) = some copy at hlookup
    rw [Table.lookup_insert_eq_ite] at hlookup
    split at hlookup
    · rename_i heq
      cases hlookup
      exact hpayload (congrArg Prod.fst heq).symm
    · exact hsources.shadow id copy hlookup
  have hbefore : TidyBut texts (fun key => changed key ∧ ((tx.store.shadow.insert change.key
      ⟨change.serverSeq, mergeData (normalizedPatch change.kind (camelizeObject texts object) now)
        (shadowPayload tx.store change.key)⟩).lookup key).isSome) tx.tables := by
    intro key row hfind hnot
    refine hrows key row hfind fun hexcused => hnot ⟨hexcused.1, ?_⟩
    rw [Table.lookup_insert_eq_ite]
    split
    · rfl
    · exact hexcused.2
  rcases applyMaterializedChange_ok h with rfl | ⟨row, hkey, hwrite⟩
  · exact ⟨hshadow, hbefore⟩
  · obtain ⟨_, rfl⟩ := Tx.statement_ok hwrite
    refine ⟨⟨hshadow.outbox, hshadow.shadow⟩, fun key found hfind hnot => ?_⟩
    rw [Tx.withRows_tables, Tables.find_put] at hfind
    split at hfind
    · rename_i heq
      refine absurd ⟨(heq.trans hkey) ▸ hchanged, ?_⟩ hnot
      show ((tx.store.shadow.insert change.key _).lookup key).isSome
      rw [Table.lookup_insert_eq_ite, if_pos (heq.trans hkey)]
      rfl
    · exact hbefore key found hfind hnot

theorem applyServerResult_tidied (h : Tidied texts store) {request : ApplyServerResultRequest} {next : Store}
    (hchanges : ∀ change ∈ request.changes, change.TidyTags texts)
    (happly : applyServerResult texts now store request = .ok next) : Tidied texts next := by
  obtain ⟨-, tx, hfold, -, rows, hproject, rfl⟩ := applyServerResult_ok happly
  have hacked : TidySources texts (store.withOutbox (applyAcks store.outbox request.acks).2).begin.store :=
    ⟨acked_tidy h.outbox, h.shadow⟩
  have hstart : TidyBut texts (fun key => (∃ change ∈ request.changes, change.key = key) ∧
      (store.shadow.lookup key).isSome) store.rows.val := fun key row hfind _ => h.rows key row hfind
  obtain ⟨-, hsources, hrows⟩ := foldlM_induction
    (fun rest tx => (∀ change ∈ rest, change ∈ request.changes) ∧ TidySources texts tx.store ∧
      TidyBut texts (fun key => (∃ change ∈ request.changes, change.key = key) ∧
        (tx.store.shadow.lookup key).isSome) tx.tables)
    (fun change rest _ _ hbefore hone =>
      ⟨fun other hother => hbefore.1 other (List.mem_cons_of_mem change hother),
        applyServerChange_tidy ⟨change, hbefore.1 change List.mem_cons_self, rfl⟩
          (hchanges change (hbefore.1 change List.mem_cons_self)) hbefore.2.1 hbefore.2.2 hone⟩)
    ⟨fun _ hchange => hchange, hacked, hstart⟩ hfold
  have hexcused : ∀ key, ((∃ change ∈ request.changes, change.key = key) ∧
      (tx.store.shadow.lookup key).isSome) → key ∈ (applyAcks store.outbox request.acks).1 ++
        request.changes.map ServerChange.key ∧ (tx.store.shadow.lookup key).isSome := by
    rintro key ⟨hchange, hsome⟩
    exact ⟨List.mem_append_right _ (List.mem_map.mpr hchange), hsome⟩
  have hprojected := reprojectEntities_tidied hsources hrows hexcused hproject
  exact ⟨⟨hprojected.outbox, hprojected.shadow⟩, hprojected.rows⟩

theorem syncClearRejected_tidied (h : Tidied texts store) {next : Store}
    (hclear : syncClearRejected texts now store = .ok next) : Tidied texts next := by
  obtain ⟨tx, hproject, hclear⟩ := bind_eq_ok_iff.mp hclear
  cases hclear
  have hsources : TidySources texts
      (store.withOutbox (store.outbox.select fun _ row => row.status != .rejected)).begin.store :=
    ⟨fun row hrow => h.outbox row (Table.mem_values_select hrow), h.shadow⟩
  have hrows : TidyBut texts (fun _ => False)
      (store.withOutbox (store.outbox.select fun _ row => row.status != .rejected)).begin.tables :=
    fun key row hfind _ => h.rows key row hfind
  exact reprojectEntities_tidied hsources hrows (fun _ hfalse => hfalse.elim) hproject

/-! ### Snapshots -/

/-- The rows of the server are tidy. -/
def CloudSnapshot.Tidy (texts : Texts) (snapshot : CloudSnapshot) : Prop := ∀ row ∈ snapshot.rows, TidyRow texts row

variable {snapshot : CloudSnapshot}

theorem CloudSnapshot.Tidy.find (h : snapshot.Tidy texts) {key : RowKey} (hfind : snapshot.find key = some row) :
    TidyRow texts row :=
  h row (List.mem_reverse.mp (List.mem_of_find?_eq_some hfind))

theorem tidy_shadowOfSnapshot (h : snapshot.Tidy texts) (id : String) (copy : ShadowRow)
    (hlookup : (shadowOfSnapshot snapshot).lookup (.task, id) = some copy) : Each (TidyTags texts) copy.payload := by
  rw [lookup_shadowOfSnapshot] at hlookup
  obtain ⟨row, hfind, rfl⟩ := Option.map_eq_some_iff.mp hlookup
  exact (h.find hfind).data (congrArg Prod.fst (key_of_find_snapshot hfind))

theorem tidy_materialized {tables merged : Tables} (h : ∀ key, tables.find key = merged.materialized.find key)
    (hmerged : merged.Tidy texts) : tables.Tidy texts := by
  intro key row hfind
  rw [h] at hfind
  exact hmerged key row (Tables.find_materialized_eq_some_iff.mp hfind).1

theorem tidy_mergedWithPending (h : Tidied texts store) (hsnapshot : snapshot.Tidy texts) :
    (mergedWithPending texts now store snapshot).Tidy texts := by
  intro key row hfind
  rw [find_mergedWithPending, rebasedRow] at hfind
  split at hfind
  · exact hsnapshot.find hfind
  · cases hfind
    apply tidy_rowFromData
    intro hkey
    apply Each.projected tidyTags_own _ (h.pending hkey)
    rw [rebaseBase]
    cases hbase : (snapshot.find key).or (store.find key) with
    | none => exact each_nil
    | some base =>
        rcases Option.or_eq_some_iff.mp hbase with hserver | ⟨-, hown⟩
        · exact (hsnapshot.find hserver).data ((congrArg Prod.fst (key_of_find_snapshot hserver)).trans hkey)
        · exact (h.rows key base hown).data ((congrArg Prod.fst (store.key_of_find hown)).trans hkey)

theorem syncReplaceSnapshotFenced_tidied (h : Tidied texts store) (hsnapshot : snapshot.Tidy texts)
    {sessionId : Option String} {next : Store}
    (hreplace : syncReplaceSnapshotFenced texts now store snapshot sessionId = .ok next) : Tidied texts next := by
  obtain ⟨_, -, hreplace⟩ := bind_eq_ok_iff.mp hreplace
  obtain ⟨tx, hwrite, hreplace⟩ := bind_eq_ok_iff.mp hreplace
  cases hreplace
  obtain ⟨⟨rows, rfl⟩, hfind⟩ := writeMaterialized_ok keyed_mergedWithPending hwrite
  exact ⟨⟨h.outbox, tidy_shadowOfSnapshot hsnapshot⟩, tidy_materialized hfind (tidy_mergedWithPending h hsnapshot)⟩

theorem tidy_mergedLocal (h : Tidied texts store) (hsnapshot : snapshot.Tidy texts) :
    (mergedLocal snapshot store.rows.val.rows).Tidy texts := by
  intro key row hfind
  rw [find_mergedLocal, Option.or_eq_some_iff] at hfind
  rcases hfind with hown | ⟨-, hserver⟩
  · exact h.rows key row (Option.filter_eq_some_iff.mp hown).1
  · exact hsnapshot.find hserver

/-- What a merge uploads about a task has the tags of its row. -/
theorem tidy_preparedOps (h : Tidied texts store) {op : PreparedOp}
    (hop : op ∈ preparedOps snapshot store.rows.val.rows) (hentity : op.key.1 = .task) :
    Each (TidyTags texts) op.patch := by
  obtain ⟨row, hrow, hop⟩ := List.mem_filterMap.mp hop
  have hfull : row.entity = .task → Each (TidyTags texts) (fullPatch row.entity row.data) := by
    intro htask
    have htidy := h.rows row.key row ((Tables.mem_rows store.rows.property.keyed).mp hrow)
    exact (htidy.data htask).copyFields each_nil (mutableFields row.entity)
  cases hverdict : mergeVerdict snapshot row <;> rw [hverdict] at hop <;> cases hop
  · exact hfull hentity
  · exact each_nil
  · exact hfull hentity
  · exact hfull hentity

theorem syncInitializeCloud_tidied (h : Tidied texts store) {request : CloudInitializeRequest}
    (hsnapshot : request.snapshot.Tidy texts) {initialized : Nat × Tx}
    (hjoin : syncInitializeCloud supply store request = .ok initialized) :
    Tidied texts initialized.2.store := by
  obtain ⟨_, -, hjoin⟩ := bind_eq_ok_iff.mp hjoin
  obtain ⟨_, -, hjoin⟩ := bind_eq_ok_iff.mp hjoin
  obtain ⟨written, hwrite, hjoin⟩ := bind_eq_ok_iff.mp hjoin
  obtain ⟨logged, hlogged, hjoin⟩ := bind_eq_ok_iff.mp hjoin
  cases hjoin
  have hwritten : ∀ {merged : Tables}, merged.Keyed → merged.Tidy texts →
      writeMaterialized store.forgotten.begin merged = .ok written →
      Tidied texts (written.joined request.snapshot).store := by
    intro merged hkeyed htidy hwrite
    obtain ⟨⟨rows, rfl⟩, hfind⟩ := writeMaterialized_ok hkeyed hwrite
    refine ⟨⟨?_, tidy_shadowOfSnapshot hsnapshot⟩, tidy_materialized hfind htidy⟩
    intro row hrow
    cases hrow
  have hjoined : Tidied texts (written.joined request.snapshot).store := by
    cases hmode : request.mode with
    | cloud =>
        rw [hmode] at hwrite
        refine hwritten (fun _ _ => Tables.key_of_find_collect) ?_ hwrite
        intro key row hfind
        rw [Tables.find_collect] at hfind
        exact hsnapshot.find hfind
    | merge =>
        rw [hmode] at hwrite
        exact hwritten keyed_mergedLocal (tidy_mergedLocal h hsnapshot) hwrite
  have hdone : Tidied texts logged.store := by
    refine tidied_foldlM (fun op hop tx after htx happend => htx.appendMutation happend ?_) hjoined hlogged
    cases hmode : request.mode with
    | cloud =>
        rw [hmode] at hop
        exact absurd hop List.not_mem_nil
    | merge =>
        rw [hmode] at hop
        exact tidy_preparedOps h hop
  exact ⟨⟨hdone.outbox, hdone.shadow⟩, hdone.rows⟩

/-! ### Runs -/

theorem tidy_rewriteOutbox {outbox : Table String OutboxRow} {change : OutboxRow → OutboxRow}
    (h : ∀ row ∈ outbox.values, (change row).entity = .task → Each (TidyTags texts) (change row).patch) :
    ∀ row ∈ (rewriteOutbox outbox change).values, row.entity = .task → Each (TidyTags texts) row.patch := by
  intro row hrow
  obtain ⟨opId, hlookup⟩ := Table.mem_values_iff.mp hrow
  rw [lookup_rewriteOutbox] at hlookup
  obtain ⟨old, hold, rfl⟩ := Option.map_eq_some_iff.mp hlookup
  exact h old (Table.mem_values_iff.mpr ⟨opId, hold⟩)

theorem syncSetEnabled_tidied (h : Tidied texts store) (enabled : Bool) :
    Tidied texts (syncSetEnabled store enabled) := by
  refine ⟨⟨tidy_rewriteOutbox fun row hrow => ?_, h.shadow⟩, h.rows⟩
  have hsame : ∀ {changed : OutboxRow}, changed.entity = row.entity → changed.patch = row.patch →
      changed.entity = .task → Each (TidyTags texts) changed.patch := by
    intro changed hentity hpatch htask
    rw [hpatch]
    exact h.outbox row hrow (hentity.symm.trans htask)
  split
  · split <;> exact hsame rfl rfl
  · split <;> exact hsame rfl rfl

/-- Renumbering changes who sends a mutation and when, not what it says. -/
theorem mem_renumbered {deviceId : String} {rows : List OutboxRow} {row : OutboxRow}
    (h : row ∈ renumbered deviceId rows) : ∃ old ∈ rows, row.entity = old.entity ∧ row.patch = old.patch := by
  obtain ⟨⟨old, index⟩, hmem, rfl⟩ := List.mem_map.mp h
  have hold := List.fst_mem_of_mem_zipIdx hmem
  exact ⟨old, (List.mem_insertionSort _).mp hold, rfl, rfl⟩

theorem rotateDeviceId_tidied (h : Tidied texts store) (deviceId : String) :
    Tidied texts (rotateDeviceId store deviceId) := by
  refine ⟨⟨tidy_rewriteOutbox fun row hrow => ?_, h.shadow⟩, h.rows⟩
  cases hfound : (renumbered deviceId store.outbox.values).find? fun other => other.opId == row.opId with
  | none => exact h.outbox row hrow
  | some found =>
      obtain ⟨old, hold, hentity, hpatch⟩ := mem_renumbered (List.mem_of_find?_eq_some hfound)
      rw [Option.getD_some, hentity, hpatch]
      exact h.outbox old hold

/-- What an operation has to come with, so that nothing untidy gets in. -/
def Operation.BringsTidy (texts : Texts) : Operation → Prop
  | .edit request => request.op.TidyNext texts
  | .applyServerResult _ request => ∀ change ∈ request.changes, change.TidyTags texts
  | .initializeCloud _ request => request.snapshot.Tidy texts
  | .replaceSnapshot _ snapshot _ => snapshot.Tidy texts
  | _ => True

theorem storeRuns_tidied (h : Tidied texts store) {operation : Operation} (hbrings : operation.BringsTidy texts) :
    Tidied texts ((storeRuns texts).step store operation) := by
  rw [storeRuns]
  dsimp only
  split
  · rename_i after hperform
    cases operation <;> simp only [Operation.perform] at hperform
    case edit request =>
        obtain ⟨tx, hedit, rfl⟩ := map_eq_ok_iff.mp hperform
        exact perform_tidied h hbrings hedit
    case clearAll =>
        cases hperform
        have hclear : Tidied texts store.clear := tidied_clear
        exact ⟨⟨hclear.outbox, hclear.shadow⟩, hclear.rows⟩
    case applyServerResult now request => exact applyServerResult_tidied h hbrings hperform
    case initializeCloud supply request =>
        obtain ⟨initialized, hjoin, rfl⟩ := map_eq_ok_iff.mp hperform
        exact syncInitializeCloud_tidied h hbrings hjoin
    case replaceSnapshot now snapshot sessionId => exact syncReplaceSnapshotFenced_tidied h hbrings hperform
    case clearRejected now => exact syncClearRejected_tidied h hperform
    case setEnabled enabled =>
        cases hperform
        exact syncSetEnabled_tidied h enabled
    case rotateDeviceId deviceId =>
        cases hperform
        exact rotateDeviceId_tidied h deviceId
    case clearAccountBinding =>
        cases hperform
        exact ⟨⟨fun row hrow => (nomatch hrow), h.shadow⟩, h.rows⟩
    case setSession session =>
        cases hperform
        exact ⟨⟨h.outbox, h.shadow⟩, h.rows⟩
    case clearSessionIf expected =>
        cases hperform
        unfold syncClearSessionIf
        split
        · exact h
        · split
          · exact ⟨⟨h.outbox, h.shadow⟩, h.rows⟩
          · exact h
    case bootstrapRequired =>
        cases hperform
        exact ⟨⟨h.outbox, h.shadow⟩, h.rows⟩
  · exact h

/-- Every store that such operations reach is tidy. -/
theorem storeRuns_keep_tidied (h : Tidied texts store) {operations : List Operation}
    (halong : (storeRuns texts).Along (fun _ operation => operation.BringsTidy texts) store operations) :
    Tidied texts ((storeRuns texts).run store operations) :=
  (storeRuns texts).invariant_along _ (fun reached _ => Tidied texts reached)
    (fun _ _ _ hreached hbrings => storeRuns_tidied hreached hbrings) operations store [] h halong

end

/-- A backup comes back exactly when the rows are tidy, and they are in every store that is reached by operations that bring nothing untidy. -/
theorem backups_round_trip (texts : Texts) (deviceId : String) (operations : List Operation) :
    (RoundTrips texts ((storeRuns texts).run (.open deviceId) operations) ↔
      ((storeRuns texts).run (.open deviceId) operations).rows.val.Tidy texts) ∧
    ((storeRuns texts).Along (fun _ operation => operation.BringsTidy texts) (.open deviceId) operations →
      RoundTrips texts ((storeRuns texts).run (.open deviceId) operations)) :=
  ⟨roundTrips_iff, fun halong => roundTrips_iff.mpr (storeRuns_keep_tidied (tidied_open deviceId) halong).rows⟩

/-- A task that is completed, and the one that comes after it with the given tags. -/
def wateringPlants (tags : List String) : List Operation :=
  let supply (n : String) : Supply := ⟨"2026-10-21T05:00:00.000Z", n, n ++ "-plan", fun seq => n ++ "-" ++ toString seq⟩
  let next : Task := {
    id := "next"
    listId := none
    title := "Water the plants"
    note := ""
    tags := tags
    status := .open
    important := false
    dueOn := some "2026-10-22"
    remindAt := none
    remindTimezone := none
    rank := "000002"
    seriesId := some "task"
    occurrenceKey := some "2026-10-22"
    recurrence := none
    completedAt := none
    createdAt := "2026-10-21T05:00:00.000Z"
    updatedAt := "2026-10-21T05:00:00.000Z"
    deletedAt := none }
  [.edit ⟨.createTask ⟨"Water the plants", none, none, ["home"], none, none, none, none, none, none, none⟩,
      supply "task"⟩,
    .edit ⟨.commitCompletion "task" "2026-10-21T06:00:00Z" (some next), supply "done"⟩]

theorem backup_of_watered_plants :
    RoundTrips .utc ((storeRuns .utc).run (.open "device") (wateringPlants ["home"])) ∧
      (((storeRuns .utc).run (.open "device") (wateringPlants ["home"])).find (.task, "next")).isSome := by
  have htags : normalizeTags .utc ["home"] = .ok ["home"] := by decide
  exact ⟨(backups_round_trip .utc "device" (wateringPlants ["home"])).2 ⟨trivial, htags, trivial⟩, by decide⟩

/-- The next task has two spellings of one tag: the backup is taken, but only with the first. -/
theorem backup_loses_tag :
    ¬ ∀ (texts : Texts) (deviceId : String) (operations : List Operation),
      RoundTrips texts ((storeRuns texts).run (.open deviceId) operations) := by
  intro h
  have htidy := roundTrips_iff.mp (h .utc "device" (wateringPlants ["home", "Home"]))
  have hstored : (((storeRuns .utc).run (.open "device") (wateringPlants ["home", "Home"])).rows.val.tasks.lookup
      "next").map Task.tags = some ["home", "Home"] := by
    decide
  obtain ⟨task, hlookup, htags⟩ := Option.map_eq_some_iff.mp hstored
  have hnormal := (htidy (.task, "next") (.task task) (by rw [Tables.find, hlookup]; rfl)).2
  rw [htags] at hnormal
  revert hnormal
  decide

end ShishiTodo.Native
