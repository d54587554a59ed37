import ShishiTodo.Recurring.Identity

/-!
# The marks along a run

The marks are ghost state: a step may give a mark to a task that had none, and takes none back. What a household holds fits them, and a mark that names an occurrence is on record as inserted.
-/

namespace ShishiTodo.Recurring

open Lib Native Sync

/-! ### The marks -/

/-- The marks belong to identifiers that were drawn, and name inserted occurrences, no two the same. -/
structure Marked (env : Env) (past : List Occurrence) (drawn : List Uuid) (mark : String → Mark) : Prop where
  drawn : ∀ id, mark id ≠ .blank → ∃ task ∈ drawn, env.uuid.render task = id
  listed : ∀ id shared, (mark id).occurrence env = some shared → shared ∈ past
  apart : ∀ id other shared, (mark id).occurrence env = some shared →
    (mark other).occurrence env = some shared → id = other

/-- The mark with one more task. -/
def assign (mark : String → Mark) (id : String) (given : Mark) : String → Mark :=
  Function.update mark id given

section Marks

variable {env : Env} {past : List Occurrence} {drawn : List Uuid} {mark : String → Mark} {id : String}
  {given : Mark}

theorem assign_extends (given : Mark) (h : mark id = .blank) : Extends mark (assign mark id given) := by
  intro other
  by_cases hother : other = id
  · exact .inl (hother ▸ h)
  · right
    rw [assign, Function.update_of_ne hother]

theorem marked_start : Marked env [] [] (fun _ => .blank) where
  drawn _ hmark := absurd rfl hmark
  listed _ _ hshared := by cases hshared
  apart _ _ _ hshared := by cases hshared

theorem Marked.draw (h : Marked env past drawn mark) (task : Uuid) : Marked env past (task :: drawn) mark where
  drawn id hmark := by
    obtain ⟨found, hfound, hrender⟩ := h.drawn id hmark
    exact ⟨found, List.mem_cons_of_mem task hfound, hrender⟩
  listed := h.listed
  apart := h.apart

/-- An identifier that was not drawn has no mark. -/
theorem Marked.blank (h : Marked env past drawn mark) (huuid : env.uuid.RoundTrips) {task : Uuid}
    (htask : task ∉ drawn) : mark (env.uuid.render task) = .blank := by
  by_contra hmark
  obtain ⟨found, hfound, hrender⟩ := h.drawn _ hmark
  have hsame : found = task := by
    have hparse := huuid found
    rw [hrender, huuid task] at hparse
    exact (Option.some.inj hparse).symm
  exact htask (hsame ▸ hfound)

/-- A drawn task is given a mark whose occurrence was not inserted before. -/
theorem Marked.assign (h : Marked env past drawn mark) (given : Mark) (hid : ∃ task ∈ drawn, env.uuid.render task = id)
    (hfresh : ∀ shared, given.occurrence env = some shared → shared ∉ past) :
    Marked env (past ++ (given.occurrence env).toList) drawn (assign mark id given) where
  drawn other hmark := by
    by_cases hother : other = id
    · exact hother ▸ hid
    · rw [Recurring.assign, Function.update_of_ne hother] at hmark
      exact h.drawn other hmark
  listed other shared hshared := by
    rw [List.mem_append]
    by_cases hother : other = id
    · rw [hother, Recurring.assign, Function.update_self] at hshared
      exact .inr (by rw [hshared]; exact List.mem_singleton_self shared)
    · rw [Recurring.assign, Function.update_of_ne hother] at hshared
      exact .inl (h.listed other shared hshared)
  apart first second shared hfirst hsecond := by
    rw [Recurring.assign] at hfirst hsecond
    by_cases hleft : first = id <;> by_cases hright : second = id
    · rw [hleft, hright]
    · rw [hleft, Function.update_self] at hfirst
      rw [Function.update_of_ne hright] at hsecond
      exact absurd (h.listed second shared hsecond) (hfresh shared hfirst)
    · rw [Function.update_of_ne hleft] at hfirst
      rw [hright, Function.update_self] at hsecond
      exact absurd (h.listed first shared hfirst) (hfresh shared hsecond)
    · rw [Function.update_of_ne hleft] at hfirst
      rw [Function.update_of_ne hright] at hsecond
      exact h.apart first second shared hfirst hsecond

end Marks

/-! ### The household -/

/-- The next task that a call is about to insert was given a drawn identifier, and belongs to a series. -/
structure Awaits (env : Env) (mark : String → Mark) (drawn : List Uuid) (next : Task) : Prop where
  unmarked : mark next.id = .blank
  drawn : ∃ task ∈ drawn, env.uuid.render task = next.id
  series : ∃ series, next.seriesId = some (env.uuid.render series)

/-- What the household holds fits the marks. -/
structure Holds (env : Env) (texts : Texts) (userId : Uuid) (past : List Occurrence) (mark : String → Mark)
    (household : Household) : Prop where
  marked : Marked env past household.drawn mark
  stores : ∀ device, StoreBears env texts mark (household.stores device)
  log : LogBears env texts mark household.db
  requests : ∀ sent ∈ household.requests, ∀ op ∈ sent.2.ops, OpBears env texts mark op
  answers : ∀ answer ∈ household.answers, ∀ change ∈ answer.2.changes,
    PatchBears env texts mark change.entity change.entityId change.patch
  calls : ∀ called ∈ household.calls, ∀ next, called.2.next = some next →
    Awaits env mark household.drawn next
  distinct : (household.calls.filterMap fun called => called.2.next.map Task.id).Nodup
  unrepeated : Unrepeated household.db.entities userId

section

variable {env : Env} {texts : Texts} {userId : Uuid} {past : List Occurrence} {mark later : String → Mark}
  {household : Household} {device : Uuid}

theorem Extends.patchBears (h : Extends mark later) {entity : EntityType} {id : Uuid} {patch : Json}
    (hpatch : PatchBears env texts mark entity id patch) : PatchBears env texts later entity id patch :=
  fun hentity members hmembers => h.bears (hpatch hentity members hmembers)

theorem Awaits.draw {drawn : List Uuid} {next : Task} (h : Awaits env mark drawn next) (task : Uuid) :
    Awaits env mark (task :: drawn) next where
  unmarked := h.unmarked
  drawn := by
    obtain ⟨found, hfound, hrender⟩ := h.drawn
    exact ⟨found, List.mem_cons_of_mem task hfound, hrender⟩
  series := h.series

/-- Marks that come later change nothing but themselves and the calls that wait for them. -/
theorem Holds.extend (h : Holds env texts userId past mark household) {longer : List Occurrence}
    (hlater : Extends mark later) (hmarked : Marked env longer household.drawn later)
    (hcalls : ∀ called ∈ household.calls, ∀ next, called.2.next = some next → later next.id = .blank) :
    Holds env texts userId longer later household where
  marked := hmarked
  stores device := (h.stores device).extend hlater
  log row hrow := hlater.patchBears (h.log row hrow)
  requests sent hsent op hop hentity :=
    ⟨(h.requests sent hsent op hop hentity).1, hlater.bears (h.requests sent hsent op hop hentity).2⟩
  answers answer hanswer change hchange := hlater.patchBears (h.answers answer hanswer change hchange)
  calls called hcalled next hnext :=
    ⟨hcalls called hcalled next hnext, (h.calls called hcalled next hnext).drawn,
      (h.calls called hcalled next hnext).series⟩
  distinct := h.distinct
  unrepeated := h.unrepeated

theorem Holds.draw (h : Holds env texts userId past mark household) (task : Uuid) :
    Holds env texts userId past mark (household.draw task) :=
  { h with
    marked := h.marked.draw task
    calls := fun called hcalled next hnext => (h.calls called hcalled next hnext).draw task }

theorem Holds.withStore (h : Holds env texts userId past mark household) {store : Store}
    (hstore : StoreBears env texts mark store) :
    Holds env texts userId past mark (household.withStore device store) :=
  { h with
    stores := by
      intro other
      change StoreBears env texts mark (Function.update household.stores device store other)
      by_cases hother : other = device
      · rw [hother, Function.update_self]
        exact hstore
      · rw [Function.update_of_ne hother]
        exact h.stores other }

theorem Holds.commit (h : Holds env texts userId past mark household) {outcome : StoreResult Store}
    (houtcome : ∀ store, outcome = .ok store → StoreBears env texts mark store) :
    Holds env texts userId past mark (household.commit device outcome) := by
  cases outcome with
  | ok store => exact h.withStore (houtcome store rfl)
  | error => exact h

/-- A call of a drawn next task goes on. -/
theorem Holds.goOn (h : Holds env texts userId past mark household)
    {outcome : Except ServiceError (Option Call)}
    (hcall : ∀ call, outcome = .ok (some call) → ∀ next, call.next = some next →
      Awaits env mark household.drawn next ∧
        ∀ called ∈ household.calls, ∀ waiting, called.2.next = some waiting → waiting.id ≠ next.id) :
    Holds env texts userId past mark (household.goOn device outcome) := by
  cases outcome with
  | error => exact h
  | ok call =>
      cases call with
      | none => exact h
      | some call =>
          refine { h with calls := ?_, distinct := ?_ }
          · intro called hcalled next hnext
            rcases List.mem_append.mp hcalled with hold | hnew
            · exact h.calls called hold next hnext
            · cases List.mem_singleton.mp hnew
              exact (hcall call rfl next hnext).1
          · change ((household.calls ++ [(device, call)]).filterMap fun called =>
              called.2.next.map Task.id).Nodup
            rw [List.filterMap_append, List.nodup_append]
            refine ⟨h.distinct, ?_, ?_⟩
            · cases hnext : call.next <;> simp [hnext]
            · intro first hfirst second hsecond
              obtain ⟨called, hcalled, hwaiting⟩ := List.mem_filterMap.mp hfirst
              obtain ⟨waiting, hwaits, rfl⟩ := Option.map_eq_some_iff.mp hwaiting
              obtain ⟨added, hadded, hgiven⟩ := List.mem_filterMap.mp hsecond
              cases List.mem_singleton.mp hadded
              obtain ⟨next, hnext, rfl⟩ := Option.map_eq_some_iff.mp hgiven
              exact (hcall call rfl next hnext).2 called hcalled waiting hwaits

/-- A call that writes is no longer waiting. -/
theorem Holds.eraseCall (h : Holds env texts userId past mark household) (index : Nat) :
    Holds env texts userId past mark { household with calls := household.calls.eraseIdx index } :=
  { h with
    calls := fun called hcalled => h.calls called (List.mem_of_mem_eraseIdx hcalled)
    distinct := h.distinct.sublist ((List.eraseIdx_sublist household.calls index).filterMap _) }

theorem Holds.serve (h : Holds env texts userId past mark household) (huuid : env.uuid.RoundTrips)
    {body : SyncBody} (hbody : ∀ op ∈ body.ops, OpBears env texts mark op) (clock : Clock) :
    Holds env texts userId past mark (household.serve env userId device body clock) := by
  rw [Household.serve]
  cases hread : body.read env with
  | none => exact h
  | some request =>
      have hops : ∀ mutation ∈ request.ops,
          PatchBears env texts mark mutation.entity mutation.entityId mutation.patch := by
        obtain ⟨deviceId, -, hread⟩ := Option.bind_eq_some_iff.mp hread
        obtain ⟨ops, hmapped, hread⟩ := Option.bind_eq_some_iff.mp hread
        cases hread
        intro mutation hmutation
        obtain ⟨op, hop, hopRead⟩ := exists_of_mem_mapM hmapped mutation hmutation
        exact patchBears_of_read huuid (hbody op hop) hopRead
      simp only [serveSync]
      cases hsync : sync env clock ⟨userId, device⟩ request household.db with
      | error => exact h
      | ok answer =>
          obtain ⟨committed, hnext, hresponse⟩ := sync_eq_ok hsync
          have hlog := logBears_result huuid committed h.log hops
          have hunrepeated := h.unrepeated.result committed
          rw [← hnext] at hlog hunrepeated
          refine { h with log := hlog, unrepeated := hunrepeated, answers := ?_ }
          intro answered hanswered change hchange
          rcases List.mem_append.mp hanswered with hold | hnew
          · exact h.answers answered hold change hchange
          · cases List.mem_singleton.mp hnew
            rw [hresponse] at hchange
            exact response_bears committed (hnext ▸ hlog) change hchange

end

end ShishiTodo.Recurring
