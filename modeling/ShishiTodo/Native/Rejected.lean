import ShishiTodo.Native.ServerResult

/-!
# Discarding what was rejected

`sync_clear_rejected` forgets the operations that the server refused, and lays what is left over the server's copies again. Where the server has no copy there is nothing to lay, so the row of a refused creation stays.
-/

namespace ShishiTodo.Native

open Lib

/-- A rejected operation is about the entity. -/
def Rejected (outbox : Table String OutboxRow) (key : RowKey) : Prop :=
  ∃ row ∈ outbox.values, row.status = .rejected ∧ row.key = key

/-- The rejected operations are gone, and their entities are laid over again. -/
structure RolledBack (outbox kept : Table String OutboxRow) (wanted before after : RowKey → Option Row) :
    Prop where
  operations : ∀ opId, kept.lookup opId = (outbox.lookup opId).filter fun row => row.status != .rejected
  rows : Overlaid Row.slot (Rejected outbox) wanted before after

theorem syncClearRejected_rolledBack (texts : Texts) (now : String) (store : Store) :
    ∃ after, syncClearRejected texts now store = .ok after ∧ after.shadow = store.shadow ∧
      after.kv = store.kv ∧
      RolledBack store.outbox after.outbox (wantedRow texts now after) store.find after.find := by
  obtain ⟨rows, hrows⟩ := reprojectEntities_ok texts
    ((store.outbox.values.filter fun row => row.status == .rejected).map OutboxRow.key) now
    (store.withOutbox (store.outbox.select fun _ row => row.status != .rejected)).begin
  refine ⟨_, bind_eq_ok_iff.mpr ⟨_, hrows, rfl⟩, rfl, rfl, fun opId => Table.lookup_select _ _ _, ?_⟩
  have hrejected : Rejected store.outbox = fun key =>
      key ∈ (store.outbox.values.filter fun row => row.status == .rejected).map OutboxRow.key := by
    funext key
    simp only [Rejected, List.mem_map, List.mem_filter, beq_iff_eq, and_assoc]
  rw [hrejected]
  exact reprojectEntities_overlaid hrows

end ShishiTodo.Native
