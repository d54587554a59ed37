import ShishiTodo.Web.Rounds
import ShishiTodo.Lib.Numbering

/-!
# The numbers of the outbox

Every number of a device must name one operation for good: in the outbox, in the rounds under way and in everything that was sent. This module says when a step gives no number away twice, and what each transaction puts into the outbox.
-/

namespace ShishiTodo.Web

open Lib Native Sync

/-! ### The numbers in use -/

def outboxOps (mutations : Table String OutboxRow) : List SyncOp := mutations.values.map syncOp

/-- The operations in the outbox, under the device id they will be sent with. -/
def Db.queued (db : Db) : List (String × SyncOp) :=
  (outboxOps db.mutations).map fun op => (db.kv.deviceId, op)

namespace World

variable (world : World)

/-- What was sent, and what the rounds are about to send. -/
def claimed : List (String × SyncOp) := world.sent ++ world.rounds.flatMap Round.held

def known : List (String × SyncOp) := world.claimed ++ world.client.queued

/-- A step gives no number that the device has in use: the local edits get the next ones after the counter, the operations of an initialization those from one on, and a round takes the pending operations along with the device id it has read before. -/
def NumbersFree : Event → Prop
  | .client (.localWrite _ edits) => ∀ offset < edits.length,
      ¬ Taken SyncOp.clientSeq world.known world.client.kv.deviceId
        (world.client.kv.clientSeq + 1 + (offset : Int))
  | .client (.syncInitializeCloud now opIds snapshot .merge _ _) =>
      ∀ row ∈ uploads world.client.kv.deviceId now opIds
          (orderedOps (ops snapshot world.client.rows.rows)),
        ¬ Taken SyncOp.clientSeq world.claimed world.client.kv.deviceId row.clientSeq
  | .getPending index limit =>
      match world.rounds[index]? with
      | some (.started deviceId) => deviceId = world.client.kv.deviceId ∨
          ∀ op ∈ syncGetPending world.client limit,
            ¬ Taken SyncOp.clientSeq world.known deviceId op.clientSeq
      | _ => True
  | _ => True

/-- `newUuidV7` draws an id that no device has, and no other client uses one of the repository's. -/
def Drawn (env : Env) : Event → Prop
  | .client (.syncRotateDevice deviceId) => ∃ drawn ∈ (env.uuid.parse deviceId).toList,
      drawn ∉ world.others ∧ ∀ id ∈ world.own, env.uuid.parse id ≠ some drawn
  | .server (.request _ auth _) => ∀ id ∈ world.own, env.uuid.parse id ≠ some auth.deviceId
  | _ => True

instance (event : Event) : Decidable (world.NumbersFree event) := by
  unfold NumbersFree
  split
  · infer_instance
  · infer_instance
  · split <;> infer_instance
  · infer_instance

instance (env : Env) (event : Event) : Decidable (world.Drawn env event) := by
  unfold Drawn
  split <;> infer_instance

end World

/-! ### What a transaction puts into the outbox -/

section

variable {db : Db}

theorem outboxOps_rewriteOutbox (mutations : Table String OutboxRow) {change : OutboxRow → OutboxRow}
    (hchange : ∀ row, syncOp (change row) = syncOp row) :
    outboxOps (rewriteOutbox mutations change) = outboxOps mutations := by
  have hvalues : (rewriteOutbox mutations change).values = mutations.values.map change := by
    simp only [Table.values, rewriteOutbox, List.map_map]
    rfl
  rw [outboxOps, hvalues, List.map_map]
  exact List.map_congr_left fun row _ => hchange row

theorem outboxOps_select (mutations : Table String OutboxRow) (test : String → OutboxRow → Bool) :
    outboxOps (mutations.select test) ⊆ outboxOps mutations := by
  intro op hop
  obtain ⟨row, hrow, rfl⟩ := List.mem_map.mp hop
  exact List.mem_map_of_mem (Table.mem_values_select hrow)

theorem outboxOps_insert {mutations : Table String OutboxRow} {opId : String} {row : OutboxRow} :
    outboxOps (mutations.insert opId row) ⊆ syncOp row :: outboxOps mutations := by
  intro op hop
  obtain ⟨found, hfound, rfl⟩ := List.mem_map.mp hop
  rcases Table.mem_values_insert hfound with rfl | hold
  · exact List.mem_cons_self
  · exact List.mem_cons_of_mem _ (List.mem_map_of_mem hold)

theorem outboxOps_erase {mutations : Table String OutboxRow} {opId : String} :
    outboxOps (mutations.erase opId) ⊆ outboxOps mutations := by
  intro op hop
  obtain ⟨row, hrow, rfl⟩ := List.mem_map.mp hop
  exact List.mem_map_of_mem (Table.mem_values_erase hrow)

theorem outboxOps_applyAck (env : Env) (acknowledged : List String)
    (mutations : Table String OutboxRow) (ack : Ack) :
    outboxOps (applyAck env acknowledged mutations ack) ⊆ outboxOps mutations := by
  unfold applyAck
  simp only
  split
  · split
    · split
      · rename_i row hlookup
        have hrow : syncOp row ∈ outboxOps mutations :=
          List.mem_map_of_mem (Table.mem_values_iff.mpr ⟨_, hlookup⟩)
        exact List.Subset.trans outboxOps_insert (List.cons_subset.mpr ⟨hrow, List.Subset.refl _⟩)
      · exact List.Subset.refl _
    · exact outboxOps_erase
  · exact List.Subset.refl _

theorem outboxOps_applyAcks (env : Env) (acknowledged : List String) (acks : List Ack) :
    ∀ mutations : Table String OutboxRow,
      outboxOps (acks.foldl (applyAck env acknowledged) mutations) ⊆ outboxOps mutations := by
  induction acks with
  | nil => exact fun mutations => List.Subset.refl _
  | cons ack rest ih =>
      intro mutations
      exact List.Subset.trans (ih _) (outboxOps_applyAck env acknowledged mutations ack)

theorem queued_subset {next : Db} (hdevice : next.kv.deviceId = db.kv.deviceId)
    (hops : outboxOps next.mutations ⊆ outboxOps db.mutations) : next.queued ⊆ db.queued := by
  rw [Db.queued, Db.queued, hdevice]
  exact List.map_subset _ hops

theorem mem_syncGetPending {limit : Nat} {op : SyncOp} (h : op ∈ syncGetPending db limit) :
    op ∈ outboxOps db.mutations := by
  obtain ⟨row, hrow, rfl⟩ := List.mem_map.mp h
  have hpending := (List.mem_insertionSort _).mp (List.mem_of_mem_take hrow)
  exact List.mem_map_of_mem (List.mem_filter.mp hpending).1

theorem queued_appendMutation (db : Db) (edit : Edit) : ∃ op : SyncOp, op.clientSeq = db.kv.clientSeq + 1 ∧
    (appendMutation db edit).queued ⊆ (db.kv.deviceId, op) :: db.queued := by
  refine ⟨⟨edit.opId, db.kv.clientSeq + 1, edit.entity, edit.entityId, edit.kind, edit.patch⟩, rfl, ?_⟩
  exact List.map_subset (fun op => (db.kv.deviceId, op)) outboxOps_insert

/-- Each edit takes the next number, and leaves those of the later edits alone. -/
theorem localWrite_unambiguous {claimed : List (String × SyncOp)} (edits : List Edit) :
    ∀ db : Db, Unambiguous SyncOp.clientSeq (claimed ++ db.queued) →
      (∀ offset < edits.length, ¬ Taken SyncOp.clientSeq (claimed ++ db.queued) db.kv.deviceId
        (db.kv.clientSeq + 1 + (offset : Int))) →
      Unambiguous SyncOp.clientSeq (claimed ++ (edits.foldl appendMutation db).queued) := by
  induction edits with
  | nil => exact fun db hknown _ => hknown
  | cons edit rest ih =>
      intro db hknown hfree
      obtain ⟨op, hseq, hqueued⟩ := queued_appendMutation db edit
      have hsub : claimed ++ (appendMutation db edit).queued ⊆
          (claimed ++ db.queued) ++ [(db.kv.deviceId, op)] := by
        intro claim hclaim
        rcases List.mem_append.mp hclaim with hold | hnew
        · simp [hold]
        · rcases List.mem_cons.mp (hqueued hnew) with rfl | hold
          · simp
          · simp [hold]
      have hone : Unambiguous SyncOp.clientSeq [(db.kv.deviceId, op)] := by
        intro owner left right hleft hright _
        cases List.mem_singleton.mp hleft
        cases List.mem_singleton.mp hright
        rfl
      have hnext : ¬ Taken SyncOp.clientSeq (claimed ++ db.queued) db.kv.deviceId op.clientSeq := by
        have hfirst := hfree 0 (by simp)
        rwa [hseq, ← Int.add_zero (db.kv.clientSeq + 1)]
      apply ih
      · refine (hknown.append hone ?_).mono hsub
        intro item hitem
        cases List.mem_singleton.mp hitem
        exact hnext
      · intro offset hoffset htaken
        obtain ⟨item, hitem, howner, hnumber⟩ := htaken.mono hsub
        have hvalue : (appendMutation db edit).kv.clientSeq = db.kv.clientSeq + 1 := rfl
        rw [hvalue] at hnumber
        rcases List.mem_append.mp hitem with hold | hnew
        · refine hfree (offset + 1) (by simpa using hoffset) ⟨item, hold, howner, ?_⟩
          omega
        · cases List.mem_singleton.mp hnew
          have hsame : op.clientSeq = db.kv.clientSeq + 1 + 1 + offset := hnumber
          omega

theorem values_outboxOf (rows : List OutboxRow) : (outboxOf rows).values ⊆ rows := by
  have hfold : ∀ (rows : List OutboxRow) (table : Table String OutboxRow) row,
      row ∈ Table.values (rows.foldl (fun table row => table.insert row.opId row) table) →
      row ∈ rows ∨ row ∈ table.values := by
    intro rows
    induction rows with
    | nil => exact fun table row hrow => .inr hrow
    | cons first rest ih =>
        intro table row hrow
        rcases ih _ row hrow with hrest | hinserted
        · exact .inl (List.mem_cons_of_mem _ hrest)
        · rcases Table.mem_values_insert hinserted with rfl | hold
          · exact .inl List.mem_cons_self
          · exact .inr hold
  intro row hrow
  rcases hfold rows ∅ row hrow with hmem | hempty
  · exact hmem
  · cases hempty

/-- Two uploads with one number are one upload. -/
theorem uploads_unambiguous (deviceId now : String) (opIds : Nat → String) (ops : List PreparedOp) :
    ∀ left ∈ uploads deviceId now opIds ops, ∀ right ∈ uploads deviceId now opIds ops,
      left.clientSeq = right.clientSeq → left = right := by
  intro left hleft right hright hsame
  obtain ⟨⟨first, firstSeq⟩, hfirst, rfl⟩ := List.mem_map.mp hleft
  obtain ⟨⟨second, secondSeq⟩, hsecond, rfl⟩ := List.mem_map.mp hright
  have hseq : firstSeq = secondSeq := Int.ofNat_inj.mp hsame
  subst hseq
  have hop : first = second := by
    rw [List.mem_zipIdx_iff_le_and_getElem?_sub] at hfirst hsecond
    exact Option.some.inj (hfirst.2.symm.trans hsecond.2)
  rw [hop]

theorem queued_initialized (db : Db) (rows : Tables) (uploads : List OutboxRow) (snapshot : CloudSnapshot)
    (accountEmail : String) : (initialized db rows uploads snapshot accountEmail).queued ⊆
      (uploads.map syncOp).map fun op => (db.kv.deviceId, op) :=
  List.map_subset (fun op => (db.kv.deviceId, op)) (List.map_subset syncOp (values_outboxOf uploads))

end

end ShishiTodo.Web
