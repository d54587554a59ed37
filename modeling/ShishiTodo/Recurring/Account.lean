import ShishiTodo.Recurring.Replies
import ShishiTodo.Server.ExactlyOnce
import ShishiTodo.Server.Columns
import ShishiTodo.Server.EntityOutcome
import ShishiTodo.Server.Retention

/-!
# What the server says of a task

The server takes operations that say of a task what its mark does, and logs nothing else; its answers are cut from the log. That no two of its tasks share an occurrence is a matter of its own index, whatever the devices send.
-/

namespace ShishiTodo.Recurring

open Lib Native Sync

variable {env : Env} {texts : Texts} {mark : String → Mark}

/-! ### Renamed members -/

theorem seriesName_of_serverFieldName {name : String} (h : SeriesName texts (serverFieldName name)) :
    SeriesName texts name := by
  unfold serverFieldName at h
  split at h
  case h_5 => exact seriesName_seriesId
  case h_6 => exact absurd h not_seriesName_occurrence_key
  case h_14 => exact h
  all_goals exact absurd h (not_seriesName (by decide))

theorem keyName_of_serverFieldName {name : String} (h : KeyName texts (serverFieldName name)) :
    KeyName texts name := by
  unfold serverFieldName at h
  split at h
  case h_5 => exact absurd h not_keyName_series_id
  case h_6 => exact keyName_occurrenceKey
  case h_14 => exact h
  all_goals exact absurd h (not_keyName (by decide))

theorem seriesName_of_domainFieldName {name : String} (h : SeriesName texts (domainFieldName name)) :
    SeriesName texts name := by
  unfold domainFieldName at h
  split at h
  case h_5 => exact .inl rfl
  case h_6 => exact absurd h not_seriesName_occurrenceKey
  case h_14 => exact h
  all_goals exact absurd h (not_seriesName (by decide))

theorem keyName_of_domainFieldName {name : String} (h : KeyName texts (domainFieldName name)) :
    KeyName texts name := by
  unfold domainFieldName at h
  split at h
  case h_5 => exact absurd h not_keyName_seriesId
  case h_6 => exact .inl rfl
  case h_14 => exact h
  all_goals exact absurd h (not_keyName (by decide))

theorem bears_toServerPatch {mark : Mark} {patch : Data} (h : Bears env (wire texts) mark patch)
    (kind : MutationKind) : Bears env (wire texts) mark (toServerPatch kind patch) := by
  have hcleaned : Bears env (wire texts) mark
      (patch.filter fun member => decide (kind = .delete) || !localOnlyFields.contains member.1) :=
    fun member hmember => h member (List.mem_of_mem_filter hmember)
  have hmapped := hcleaned.rename (fun _ => seriesName_of_serverFieldName)
    fun _ => keyName_of_serverFieldName
  rw [toServerPatch]
  split
  · exact fun member hmember => hmapped member (List.mem_of_mem_filter hmember)
  · exact hmapped

/-! ### A request -/

/-- An operation that says of a task what its mark does, on its way to the server. -/
def OpBears (env : Env) (texts : Texts) (mark : String → Mark) (op : SyncOp) : Prop :=
  op.entity = .task → Spelled env op.entityId ∧ Bears env (wire texts) (mark op.entityId) op.patch

/-- A patch that says of the task what its mark does. -/
def PatchBears (env : Env) (texts : Texts) (mark : String → Mark) (entity : EntityType) (id : Uuid)
    (patch : Json) : Prop :=
  entity = .task → ∀ members, patch = .obj members →
    Bears env (wire texts) (mark (env.uuid.render id)) members

theorem syncRequest_bears {store : Store} (h : StoreBears env texts mark store) (limit : Nat) :
    ∀ op ∈ (syncRequest store limit).ops, OpBears env texts mark op := by
  intro op hop
  obtain ⟨row, hrow, rfl⟩ := List.mem_map.mp hop
  have hstored : row ∈ store.outbox.values := by
    have hmem := List.mem_of_mem_take hrow
    rw [List.mem_insertionSort] at hmem
    exact List.mem_of_mem_filter hmem
  exact h.outbox row hstored

/-- The server reads the identifier that the device spelled. -/
theorem patchBears_of_read (huuid : env.uuid.RoundTrips) {op : SyncOp} {mutation : Mutation}
    (h : OpBears env texts mark op) (hread : op.read env = some mutation) :
    PatchBears env texts mark mutation.entity mutation.entityId mutation.patch := by
  obtain ⟨opId, -, hread⟩ := Option.bind_eq_some_iff.mp hread
  obtain ⟨entityId, hparse, hread⟩ := Option.bind_eq_some_iff.mp hread
  cases hread
  intro hentity members hmembers
  cases hmembers
  obtain ⟨⟨id, hid⟩, hpatch⟩ := h hentity
  rw [← hid, huuid id] at hparse
  cases hparse
  rw [hid]
  exact bears_toServerPatch hpatch op.kind

/-! ### What is logged -/

theorem str_of_coded {α : Type} {codec : Codec α} {value : Json} {decoded : α}
    (h : Decoder.coded codec value = some decoded) : ∃ text, value = .str text ∧ codec.parse text = some decoded := by
  cases value <;> try cases h
  exact ⟨_, rfl, h⟩

theorem str_of_string {value : Json} {decoded : String} (h : Decoder.string value = some decoded) :
    value = .str decoded := by
  cases value <;> cases h
  rfl

/-- The values of a new task name the series and the key of its mark, or none. -/
theorem created_says (huuid : env.uuid.RoundTrips) {mark : Mark} {members : Data} {values : TaskValues}
    (h : Bears env (wire texts) mark members) {today : NaiveDate}
    (hpatched : (taskSpec env).patched (.obj members) true ((taskSpec env).blank today) = .ok values) :
    (∀ seriesId, values.seriesId = some seriesId →
      mark.series.map env.uuid.render = some (env.uuid.render seriesId)) ∧
      ∀ occurrenceKey, values.occurrenceKey = some occurrenceKey → mark.key = some occurrenceKey := by
  simp only [taskSpec, parseTaskPatch, bind_eq_ok_iff] at hpatched
  obtain ⟨parsed, hparsed, happly⟩ := hpatched
  obtain ⟨found, hobject, hread⟩ := parsePatch_eq_ok hparsed
  cases hobject
  simp only [TaskPatch.read, bind_eq_ok_iff] at hread
  obtain ⟨_, -, _, -, _, -, _, -, _, -, _, -, _, -, _, -, _, -, _, -, _, -, series, hseries, key, hkey, _, -,
    _, -, hparsed⟩ := hread
  cases hparsed
  simp only [TaskPatch.apply, bind_eq_ok_iff] at happly
  obtain ⟨_, -, _, -, _, -, _, -, _, -, _, -, _, -, _, -, hvalues⟩ := happly
  cases hvalues
  constructor
  · intro seriesId hsome
    rcases readField_cases hseries with ⟨-, rfl⟩ | ⟨-, rfl⟩ | ⟨value, decoded, hlookup, -, hdecode, rfl⟩
    · cases hsome
    · cases hsome
    · cases hsome
      obtain ⟨text, rfl, hparse⟩ := str_of_coded hdecode
      have hmark := (h.lookup hlookup).series (.inl rfl) text rfl
      obtain ⟨spelled, hspelled, rfl⟩ := Option.map_eq_some_iff.mp hmark
      rw [huuid spelled] at hparse
      cases hparse
      exact hmark
  · intro occurrenceKey hsome
    rcases readField_cases hkey with ⟨-, rfl⟩ | ⟨-, rfl⟩ | ⟨value, decoded, hlookup, -, hdecode, rfl⟩
    · cases hsome
    · cases hsome
    · cases hsome
      have hstr := str_of_string hdecode
      exact (h.lookup hlookup).key (.inl rfl) _ hstr

theorem ofOption_eq_str {α : Type} {render : α → String} {value : Option α} {text : String}
    (h : Json.ofOption (.str ∘ render) value = .str text) : ∃ found, value = some found ∧ render found = text := by
  cases value with
  | none => cases h
  | some found => exact ⟨found, rfl, Json.str.inj h⟩

theorem bears_changePatch {mark : Mark} {values : TaskValues} {members : Data}
    (hseries : ∀ seriesId, values.seriesId = some seriesId →
      mark.series.map env.uuid.render = some (env.uuid.render seriesId))
    (hkey : ∀ occurrenceKey, values.occurrenceKey = some occurrenceKey → mark.key = some occurrenceKey)
    (hmembers : values.changePatch env = .obj members) : Bears env (wire texts) mark members := by
  cases hmembers
  intro member hmember
  by_cases hother : otherName member.1 = true
  · exact fits_of_otherName hother member.2
  · simp only [List.mem_cons, List.not_mem_nil, or_false] at hmember
    rcases hmember with rfl | rfl | rfl | rfl | rfl | rfl | rfl | rfl | rfl | rfl | rfl | rfl | rfl | rfl
    case inr.inr.inr.inr.inr.inr.inr.inr.inr.inr.inl =>
      refine ⟨fun _ text htext => ?_, fun hname => absurd hname not_keyName_series_id⟩
      obtain ⟨seriesId, hsome, rfl⟩ := ofOption_eq_str htext
      exact hseries seriesId hsome
    case inr.inr.inr.inr.inr.inr.inr.inr.inr.inr.inr.inl =>
      refine ⟨fun hname => absurd hname not_seriesName_occurrence_key, fun _ text htext => ?_⟩
      cases hsome : values.occurrenceKey with
      | none =>
          rw [hsome] at htext
          cases htext
      | some occurrenceKey =>
          rw [hsome] at htext
          cases htext
          exact hkey _ hsome
    all_goals
      exact absurd (by dsimp only; decide) hother

/-- What an applied operation logs says of a task what the operation did. -/
theorem logged_bears (huuid : env.uuid.RoundTrips) {entities next : Entities} {userId : Uuid}
    {mutation : Mutation} {serverSeq : Int} {now : Instant} {logged : Json}
    (h : PatchBears env texts mark mutation.entity mutation.entityId mutation.patch)
    (happly : applyMutation env entities userId mutation serverSeq now = .ok (logged, next)) :
    PatchBears env texts mark mutation.entity mutation.entityId logged := by
  intro hentity members hlogged
  rw [applyMutation, hentity] at happly
  obtain ⟨row, houtcome, -⟩ := EntitySpec.apply_eq_ok happly
  have hpatch : ∀ {patch : Json} {allowEmpty : Bool} {values values' : TaskValues},
      patch = mutation.patch → (taskSpec env).patched patch allowEmpty values = .ok values' →
      ∃ sent, patch = .obj sent ∧ Bears env (wire texts) (mark (env.uuid.render mutation.entityId)) sent := by
    intro patch allowEmpty values values' hsame hpatched
    obtain ⟨sent, hsent, -⟩ := taskSpec_patched hpatched
    exact ⟨sent, hsent, h hentity sent (hsame ▸ hsent)⟩
  have hchange : ∀ {values : TaskValues} {sent : Data}, taskPatchChange (.obj sent) values = .obj members →
      Bears env (wire texts) (mark (env.uuid.render mutation.entityId)) sent →
      Bears env (wire texts) (mark (env.uuid.render mutation.entityId)) members := by
    intro values sent hmembers hsent
    rw [taskPatchChange] at hmembers
    split at hmembers
    · cases hmembers
      exact hsent
    · cases hmembers
      exact hsent.put (fits_of_not_str fun _ => by simp)
  cases houtcome with
  | created values _ _ _ hpatched =>
      obtain ⟨sent, hsent, hbears⟩ := hpatch rfl hpatched
      rw [hsent] at hpatched
      obtain ⟨hseries, hkey⟩ := created_says huuid hbears hpatched
      exact bears_changePatch hseries hkey hlogged
  | patched row values _ _ _ _ hpatched =>
      obtain ⟨sent, hsent, hbears⟩ := hpatch rfl hpatched
      rw [hsent] at hlogged
      exact hchange hlogged hbears
  | deleted =>
      cases hlogged
      exact bears_nil
  | restored row values _ _ _ _ hpatched =>
      obtain ⟨sent, hsent, hbears⟩ := hpatch rfl hpatched
      rw [hsent] at hlogged
      exact hchange hlogged hbears

/-- The log says of each task what its mark does. -/
def LogBears (env : Env) (texts : Texts) (mark : String → Mark) (db : Db) : Prop :=
  ∀ row ∈ db.changeLog, PatchBears env texts mark row.entity row.entityId row.patch

section Request

variable {clock : Clock} {auth : AuthUser} {body : SyncRequest} {db : Db}

theorem logBears_result (huuid : env.uuid.RoundTrips) (committed : Committed env clock auth body db)
    (h : LogBears env texts mark db)
    (hops : ∀ mutation ∈ body.ops, PatchBears env texts mark mutation.entity mutation.entityId mutation.patch) :
    LogBears env texts mark committed.result := by
  intro row hrow
  rw [committed.result_changeLog, List.mem_append] at hrow
  rcases hrow with hold | hnew
  · exact h row hold
  · obtain ⟨step, hstep, hlogged⟩ := List.mem_flatMap.mp hnew
    have hmutation := hops step.mutation (mutation_mem_of_opSteps step hstep)
    obtain ⟨batch, mutation, before, after⟩ := step
    have houtcome : OpOutcome env batch before mutation after :=
      processOp_outcome (opSteps_processOp _ hstep)
    cases houtcome with
    | known => simp [OpStep.logged] at hlogged
    | old => simp [OpStep.logged] at hlogged
    | rejected => simp [OpStep.logged, rejectedState] at hlogged
    | applied patch entities _ happly =>
        have hrow : row = changeOf batch before mutation patch := by
          simpa [OpStep.logged, appliedState] using hlogged
        rw [hrow]
        exact logged_bears huuid hmutation happly

/-- A page of the log is made of its rows. -/
theorem response_bears (committed : Committed env clock auth body db)
    (h : LogBears env texts mark committed.result) :
    ∀ change ∈ committed.response.changes,
      PatchBears env texts mark change.entity change.entityId change.patch := by
  intro change hchange
  obtain ⟨row, hrow, rfl⟩ := List.mem_map.mp hchange
  have hmem := List.mem_of_mem_take (List.mem_of_mem_take hrow)
  rw [Db.changesAfter, List.mem_insertionSort] at hmem
  exact h row (List.mem_of_mem_filter hmem)

end Request

/-- On the device the change has the names of the repository. -/
theorem serverChange_bears {change : Change}
    (h : PatchBears env texts mark change.entity change.entityId change.patch) :
    ChangeBears env texts mark (serverChange env change) := by
  intro hentity
  refine ⟨⟨change.entityId, rfl⟩, fun members hmembers => ?_⟩
  change toDomainPatch change.patch = .obj members at hmembers
  cases hpatch : change.patch with
  | obj sent =>
      rw [hpatch] at hmembers
      cases hmembers
      exact (h hentity sent hpatch).rename (fun _ => seriesName_of_domainFieldName) fun _ =>
        keyName_of_domainFieldName
  | _ =>
      rw [hpatch] at hmembers
      cases hmembers

end ShishiTodo.Recurring
