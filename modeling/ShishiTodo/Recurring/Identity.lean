import ShishiTodo.Recurring.Account

/-!
# One task for each occurrence

Along a run every task keeps its mark, and a mark that names an occurrence is given when a completion inserts the task. As long as no occurrence is inserted twice, no two tasks have the same one, on any device and on the server. Nothing on a device stops the second insertion: a task that is completed, reopened and completed again has two next tasks there, and the one that the server rejects stays.
-/

namespace ShishiTodo.Recurring

open Lib Native Sync

/-! ### The index of the server -/

/-- `idx_tasks_recurrence_identity`, over all tasks of the account, deleted ones too. -/
def Unrepeated (entities : Entities) (userId : Uuid) : Prop :=
  ∀ id other row twin, entities.tasks.lookup id = some row → entities.tasks.lookup other = some twin →
    row.userId = userId → twin.userId = userId →
    ∀ seriesId occurrenceKey, row.values.seriesId = some seriesId →
      row.values.occurrenceKey = some occurrenceKey → twin.values.seriesId = some seriesId →
      twin.values.occurrenceKey = some occurrenceKey → id = other

theorem Unrepeated.serverOneEach {entities : Entities} {userId : Uuid} (h : Unrepeated entities userId) :
    ServerOneEach entities userId :=
  fun id other row twin hrow htwin howner htwinOwner _ _ =>
    h id other row twin hrow htwin howner htwinOwner

section Server

variable {env : Env} {entities next : Entities} {userId : Uuid} {mutation : Mutation} {serverSeq : Int}
  {now : Instant} {logged : Json}

/-- The index lets a row be written whose occurrence no other task has. -/
theorem Unrepeated.write (h : Unrepeated entities userId) {id : Uuid} {row : EntityRow TaskValues}
    (hfree : ∀ other twin, other ≠ id → entities.tasks.lookup other = some twin → twin.userId = userId →
      ∀ seriesId occurrenceKey, row.values.seriesId = some seriesId →
        row.values.occurrenceKey = some occurrenceKey → twin.values.seriesId = some seriesId →
        twin.values.occurrenceKey ≠ some occurrenceKey) :
    Unrepeated { entities with tasks := entities.tasks.insert id row } userId := by
  intro first second left right hleft hright hleftOwner hrightOwner seriesId occurrenceKey hleftSeries
    hleftKey hrightSeries hrightKey
  rw [Table.lookup_insert_eq_ite] at hleft hright
  by_cases hfirst : first = id
  · by_cases hsecond : second = id
    · rw [hfirst, hsecond]
    · rw [if_pos hfirst] at hleft
      rw [if_neg hsecond] at hright
      cases hleft
      exact absurd hrightKey (hfree second right hsecond hright hrightOwner seriesId occurrenceKey
        hleftSeries hleftKey hrightSeries)
  · rw [if_neg hfirst] at hleft
    by_cases hsecond : second = id
    · rw [if_pos hsecond] at hright
      cases hright
      exact absurd hleftKey (hfree first left hfirst hleft hleftOwner seriesId occurrenceKey
        hrightSeries hrightKey hleftSeries)
    · rw [if_neg hsecond] at hright
      exact h first second left right hleft hright hleftOwner hrightOwner seriesId occurrenceKey
        hleftSeries hleftKey hrightSeries hrightKey

/-- What the index does not refuse. -/
theorem free_of_kept (env : Env) {id : Uuid} {values : TaskValues}
    (hkept : (taskSpec env).violates entities userId id values = false) :
    ∀ other twin, other ≠ id → entities.tasks.lookup other = some twin → twin.userId = userId →
      ∀ seriesId occurrenceKey, values.seriesId = some seriesId →
        values.occurrenceKey = some occurrenceKey → twin.values.seriesId = some seriesId →
        twin.values.occurrenceKey ≠ some occurrenceKey := by
  intro other twin hother htwin howner seriesId occurrenceKey hseries hkey htwinSeries htwinKey
  have hfree : recurrenceTaken entities userId id values = false := (Bool.or_eq_false_iff.mp hkept).2
  rw [recurrenceTaken, hseries, hkey, Option.isSome_some, Option.isSome_some, Bool.true_and,
    Bool.true_and, Table.any_eq_false_iff] at hfree
  have htaken := hfree other twin htwin
  rw [htwinSeries, htwinKey, howner] at htaken
  simp [hother] at htaken

theorem Unrepeated.apply (h : Unrepeated entities userId)
    (happly : applyMutation env entities userId mutation serverSeq now = .ok (logged, next)) :
    Unrepeated next userId := by
  rw [applyMutation] at happly
  cases hentity : mutation.entity with
  | list =>
      rw [hentity] at happly
      obtain ⟨row, -, rfl⟩ := EntitySpec.apply_eq_ok happly
      exact h
  | step =>
      rw [hentity] at happly
      obtain ⟨row, -, rfl⟩ := EntitySpec.apply_eq_ok happly
      exact h
  | dayPlan =>
      rw [hentity] at happly
      obtain ⟨row, -, rfl⟩ := EntitySpec.apply_eq_ok happly
      exact h
  | task =>
      rw [hentity] at happly
      obtain ⟨row, houtcome, rfl⟩ := EntitySpec.apply_eq_ok happly
      apply h.write
      cases houtcome with
      | created values _ _ _ _ _ _ _ hkept => exact free_of_kept env hkept
      | patched row values _ _ _ _ _ _ _ hkept => exact free_of_kept env hkept
      | deleted row _ hrow howner =>
          intro other twin hother htwin htwinOwner seriesId occurrenceKey hseries hkey htwinSeries
            htwinKey
          exact hother (h other mutation.entityId twin row htwin hrow htwinOwner howner seriesId
            occurrenceKey htwinSeries htwinKey hseries hkey)
      | restored row values _ _ _ _ _ _ _ hkept => exact free_of_kept env hkept

theorem Unrepeated.result {clock : Clock} {auth : AuthUser} {body : SyncRequest} {db : Db}
    (h : Unrepeated db.entities auth.userId) (committed : Committed env clock auth body db) :
    Unrepeated committed.result.entities auth.userId := by
  rw [committed.result_entities]
  exact processOps_invariant (fun state _ => Unrepeated state.db.entities auth.userId)
    (fun state _ mutation next hstate houtcome => by
      cases houtcome with
      | known => exact hstate
      | old => exact hstate
      | rejected => exact hstate
      | applied patch entities _ happly => exact hstate.apply happly)
    body.ops committed.start committed.final [] committed.loop_eq_ok h

end Server

end ShishiTodo.Recurring
