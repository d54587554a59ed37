import ShishiTodo.Server.Entities

/-!
# Columns and patches

How a row's columns read as JSON, and what a patch does to them field by field: a field the patch does not list keeps its column, and a listed one takes the value its text denotes, at the column's precision. One theorem for each entity says so; the change log and the bootstrap are compared through them.
-/

namespace ShishiTodo

open Lib

/-! ### Printing values -/

/-- How identifiers, dates and instants are printed. -/
structure Printer where
  uuid : Uuid → String
  date : NaiveDate → String
  instant : Instant → String

/-- `serde_json`, in the patch a create logs. -/
def Env.serde (env : Env) : Printer where
  uuid := env.uuid.render
  date := env.date.render
  instant := env.instant.render

/-- `jsonb_build_object`, over the columns of a row. -/
def Env.jsonb (env : Env) : Printer where
  uuid := env.uuid.render
  date := env.dateColumn
  instant := env.instantColumn

/-- `jsonb_build_object` over values that have yet to be stored. -/
def Env.stored (env : Env) : Printer where
  uuid := env.uuid.render
  date := env.dateColumn
  instant instant := env.instantColumn instant.toColumn

def tagsJson (tags : List String) : Json := .arr (tags.map .str)

def ListValues.print (_ : Printer) (values : ListValues) : List (String × Json) :=
  [ ("name", .str values.name),
    ("color", .ofOption .str values.color),
    ("icon", .ofOption .str values.icon),
    ("rank", .str values.rank) ]

def TaskValues.print (printer : Printer) (values : TaskValues) : List (String × Json) :=
  [ ("list_id", .ofOption (.str ∘ printer.uuid) values.listId),
    ("title", .str values.title),
    ("note", .str values.note),
    ("status", .str values.status.asStr),
    ("important", .bool values.important),
    ("tags", tagsJson values.tags),
    ("due_on", .ofOption (.str ∘ printer.date) values.dueOn),
    ("remind_at", .ofOption (.str ∘ printer.instant) values.remindAt),
    ("remind_timezone", .ofOption .str values.remindTimezone),
    ("rank", .str values.rank),
    ("series_id", .ofOption (.str ∘ printer.uuid) values.seriesId),
    ("occurrence_key", .ofOption .str values.occurrenceKey),
    ("recurrence", .ofOption id values.recurrence),
    ("completed_at", .ofOption (.str ∘ printer.instant) values.completedAt) ]

def StepValues.print (printer : Printer) (values : StepValues) : List (String × Json) :=
  [ ("task_id", .str (printer.uuid values.taskId)),
    ("title", .str values.title),
    ("is_completed", .bool values.isCompleted),
    ("rank", .str values.rank) ]

def DayPlanValues.print (printer : Printer) (values : DayPlanValues) : List (String × Json) :=
  [ ("task_id", .str (printer.uuid values.taskId)),
    ("local_date", .str (printer.date values.localDate)),
    ("rank", .str values.rank) ]

/-! ### What a patch member becomes -/

/-- The JSON a member of a patch becomes once it was read and printed again. -/
def reread {α : Type} (decode : Decoder α) (render : α → Json) : Json → Json
  | .null => .null
  | value => (decode value).elim .null render

/-- Tags as the task keeps them. -/
def Decoder.tags (env : Env) : Decoder (List String) := fun value =>
  (Decoder.strings value).bind fun tags => (normalizeTags env tags).toOption

/-- A member of a list patch, read and printed again. -/
def listMember (_ : Printer) (field : String) : Json → Json :=
  match field with
  | "name" => reread .string .str
  | "color" => reread .string .str
  | "icon" => reread .string .str
  | "rank" => reread .string .str
  | _ => id

/-- A member of a task patch, read and printed again. -/
def taskMember (env : Env) (printer : Printer) (field : String) : Json → Json :=
  match field with
  | "list_id" => reread (.coded env.uuid) (.str ∘ printer.uuid)
  | "title" => reread .string .str
  | "note" => reread .string .str
  | "status" => reread .status (.str ∘ TaskStatus.asStr)
  | "important" => reread .bool .bool
  | "tags" => reread (.tags env) tagsJson
  | "due_on" => reread (.coded env.date) (.str ∘ printer.date)
  | "remind_at" => reread (.coded env.instant) (.str ∘ printer.instant)
  | "remind_timezone" => reread .string .str
  | "rank" => reread .string .str
  | "series_id" => reread (.coded env.uuid) (.str ∘ printer.uuid)
  | "occurrence_key" => reread .string .str
  | "recurrence" => reread .value id
  | "completed_at" => reread (.coded env.instant) (.str ∘ printer.instant)
  | _ => id

/-- A member of a step patch, read and printed again. -/
def stepMember (env : Env) (printer : Printer) (field : String) : Json → Json :=
  match field with
  | "task_id" => reread (.coded env.uuid) (.str ∘ printer.uuid)
  | "title" => reread .string .str
  | "is_completed" => reread .bool .bool
  | "rank" => reread .string .str
  | _ => id

/-- A member of a day plan patch, read and printed again. -/
def dayPlanMember (env : Env) (printer : Printer) (field : String) : Json → Json :=
  match field with
  | "task_id" => reread (.coded env.uuid) (.str ∘ printer.uuid)
  | "local_date" => reread (.coded env.date) (.str ∘ printer.date)
  | "rank" => reread .string .str
  | _ => id

/-- Printed values overwritten by the members of a patch. -/
def overwrite (reprint : String → Json → Json) (members : List (String × Json))
    (printed : List (String × Json)) : List (String × Json) :=
  printed.map fun entry => (entry.1, ((members.lookup entry.1).map (reprint entry.1)).getD entry.2)

theorem lookup_overwrite (reprint : String → Json → Json) (members printed : List (String × Json))
    (field : String) :
    (overwrite reprint members printed).lookup field =
      (printed.lookup field).map fun old => ((members.lookup field).map (reprint field)).getD old := by
  induction printed with
  | nil => rfl
  | cons entry rest ih =>
      obtain ⟨name, old⟩ := entry
      have hcons : overwrite reprint members ((name, old) :: rest) =
          (name, ((members.lookup name).map (reprint name)).getD old) ::
            overwrite reprint members rest := rfl
      rw [hcons, Json.lookup_cons_eq_ite, Json.lookup_cons_eq_ite, ih]
      by_cases hname : field = name
      · rw [if_pos hname, if_pos hname, hname]
        rfl
      · rw [if_neg hname, if_neg hname]

/-! ### One field -/

section Field

variable {α : Type} {members : List (String × Json)} {field : String} {decode : Decoder α}
  {given : PatchField α}

theorem readField_cases (h : readField members field decode = .ok given) :
    (members.lookup field = none ∧ given = none) ∨
      (members.lookup field = some .null ∧ given = some none) ∨
      ∃ value decoded, members.lookup field = some value ∧ value ≠ .null ∧
        decode value = some decoded ∧ given = some (some decoded) := by
  unfold readField at h
  split at h
  · rename_i hlookup
    exact .inl ⟨hlookup, (Except.ok.inj h).symm⟩
  · rename_i hlookup
    exact .inr (.inl ⟨hlookup, (Except.ok.inj h).symm⟩)
  · rename_i value hnull hlookup
    split at h
    · rename_i decoded hdecode
      exact .inr (.inr ⟨value, decoded, hlookup, hnull, hdecode, (Except.ok.inj h).symm⟩)
    · cases h

theorem reread_of_decode {render : α → Json} {value : Json} {decoded : α} (hnull : value ≠ .null)
    (hdecode : decode value = some decoded) : reread decode render value = render decoded := by
  cases value <;> simp_all [reread]

/-- A nullable column after a patch. -/
theorem ofOption_readField (h : readField members field decode = .ok given) (render : α → Json)
    (old : Option α) :
    Json.ofOption render (given.getD old) =
      ((members.lookup field).map (reread decode render)).getD (Json.ofOption render old) := by
  rcases readField_cases h with ⟨hlookup, rfl⟩ | ⟨hlookup, rfl⟩ |
    ⟨value, decoded, hlookup, hnull, hdecode, rfl⟩
  · simp [hlookup]
  · simp [hlookup, reread, Json.ofOption]
  · simp [hlookup, reread_of_decode hnull hdecode, Json.ofOption]

/-- A required column after a patch. -/
theorem render_requiredField {taken : Option α} (h : readField members field decode = .ok given)
    (hrequired : requiredField field given = .ok taken) (render : α → Json) (old : α) :
    render (taken.getD old) =
      ((members.lookup field).map (reread decode render)).getD (render old) := by
  rcases readField_cases h with ⟨hlookup, rfl⟩ | ⟨hlookup, rfl⟩ |
    ⟨value, decoded, hlookup, hnull, hdecode, rfl⟩
  · cases hrequired
    simp [hlookup]
  · cases hrequired
  · cases hrequired
    simp [hlookup, reread_of_decode hnull hdecode]

end Field

/-- The tags after a patch. -/
theorem tagsJson_applyTags {env : Env} {members : List (String × Json)}
    {given : PatchField (List String)} {taken : Option (List String)} {old tags : List String}
    (h : readField members "tags" .strings = .ok given)
    (hrequired : requiredField "tags" given = .ok taken)
    (htags : TaskPatch.applyTags env old taken = .ok tags) :
    tagsJson tags =
      ((members.lookup "tags").map (reread (.tags env) tagsJson)).getD (tagsJson old) := by
  rcases readField_cases h with ⟨hlookup, rfl⟩ | ⟨hlookup, rfl⟩ |
    ⟨value, decoded, hlookup, hnull, hdecode, rfl⟩
  · cases hrequired
    cases htags
    simp [hlookup]
  · cases hrequired
  · cases hrequired
    have hnormalized : normalizeTags env decoded = .ok tags := htags
    have hdecoded : Decoder.tags env value = some tags := by
      simp [Decoder.tags, hdecode, hnormalized, Except.toOption]
    simp [hlookup, reread_of_decode hnull hdecoded]

/-! ### One entity -/

theorem parsePatch_eq_ok {α : Type} {read : List (String × Json) → Checked α} {value : Json}
    {allowEmpty : Bool} {parsed : α} (h : parsePatch read value allowEmpty = .ok parsed) :
    ∃ members, value = .obj members ∧ read members = .ok parsed := by
  unfold parsePatch at h
  split at h
  · cases h
  · rename_i members hmembers
    rw [ite_error_eq_ok_iff] at h
    cases value <;> simp [Json.asObject] at hmembers
    subst hmembers
    exact ⟨_, rfl, h.2⟩

theorem requirePresentFields_eq_ok {members : List (String × Json)} {fields : List String} {done : Unit}
    (h : requirePresentFields (.obj members) fields = .ok done) {field : String}
    (hfield : field ∈ fields) : members.lookup field ≠ none := by
  unfold requirePresentFields at h
  simp only [Json.asObject] at h
  split at h
  · cases h
  · rename_i hfind
    have hpresent := List.find?_eq_none.mp hfind field hfield
    simpa using hpresent

theorem denyUnknownFields_eq_ok {known : List String} {members : List (String × Json)} {done : Unit}
    (h : denyUnknownFields known members = .ok done) {field : String}
    (hfield : field ∉ known) : members.lookup field = none := by
  unfold denyUnknownFields at h
  split at h
  · cases h
  · rename_i hfind
    rw [List.find?_eq_none] at hfind
    rw [List.lookup_eq_none_iff]
    intro member hmember
    have hknown := hfind member hmember
    simp only [Bool.not_eq_true', Bool.not_eq_false, List.contains_iff_mem] at hknown
    exact bne_iff_ne.mpr fun heq => hfield (heq ▸ hknown)

/-- What an accepted patch is: an object without unknown fields, whose members overwrite what is printed of the values. -/
structure PatchedBy {V : Type} (known : List String) (print : Printer → V → List (String × Json))
    (reprint : Printer → String → Json → Json) (members : List (String × Json))
    (values values' : V) : Prop where
  known : ∀ field, field ∉ known → members.lookup field = none
  printed : ∀ printer,
    print printer values' = overwrite (reprint printer) members (print printer values)

theorem listSpec_patched {patch : Json} {allowEmpty : Bool} {values values' : ListValues}
    (h : listSpec.patched patch allowEmpty values = .ok values') :
    ∃ members, patch = .obj members ∧
      PatchedBy ListPatch.fields ListValues.print listMember members values values' := by
  simp only [listSpec, parseListPatch, bind_eq_ok_iff] at h
  obtain ⟨parsed, hparsed, happly⟩ := h
  obtain ⟨members, hobject, hread⟩ := parsePatch_eq_ok hparsed
  simp only [ListPatch.read, bind_eq_ok_iff] at hread
  obtain ⟨_, hdeny, name, hname, color, hcolor, icon, hicon, rank, hrank, hresult⟩ := hread
  cases hresult
  simp only [ListPatch.apply, bind_eq_ok_iff] at happly
  obtain ⟨name', hname', rank', hrank', _, -, hvalues⟩ := happly
  cases hvalues
  refine ⟨members, hobject, fun field => denyUnknownFields_eq_ok hdeny, fun printer => ?_⟩
  simp only [ListValues.print, overwrite, List.map_cons, List.map_nil, listMember,
    render_requiredField hname hname', ofOption_readField hcolor, ofOption_readField hicon,
    render_requiredField hrank hrank']

theorem taskSpec_patched {env : Env} {patch : Json} {allowEmpty : Bool} {values values' : TaskValues}
    (h : (taskSpec env).patched patch allowEmpty values = .ok values') :
    ∃ members, patch = .obj members ∧
      PatchedBy TaskPatch.fields TaskValues.print (taskMember env) members values values' := by
  simp only [taskSpec, parseTaskPatch, bind_eq_ok_iff] at h
  obtain ⟨parsed, hparsed, happly⟩ := h
  obtain ⟨members, hobject, hread⟩ := parsePatch_eq_ok hparsed
  simp only [TaskPatch.read, bind_eq_ok_iff] at hread
  obtain ⟨_, hdeny, listId, hlistId, title, htitle, note, hnote, status, hstatus, important,
    himportant, tags, htags, dueOn, hdueOn, remindAt, hremindAt, remindTimezone, hremindTimezone,
    rank, hrank, seriesId, hseriesId, occurrenceKey, hoccurrenceKey, recurrence, hrecurrence,
    completedAt, hcompletedAt, hresult⟩ := hread
  cases hresult
  simp only [TaskPatch.apply, bind_eq_ok_iff] at happly
  obtain ⟨title', htitle', note', hnote', status', hstatus', important', himportant', taken, htaken,
    tags', htags', rank', hrank', _, -, hvalues⟩ := happly
  cases hvalues
  have hstatusPrinted :=
    render_requiredField hstatus hstatus' (.str ∘ TaskStatus.asStr) values.status
  simp only [Function.comp_apply] at hstatusPrinted
  refine ⟨members, hobject, fun field => denyUnknownFields_eq_ok hdeny, fun printer => ?_⟩
  simp only [TaskValues.print, overwrite, List.map_cons, List.map_nil, taskMember,
    ofOption_readField hlistId, render_requiredField htitle htitle',
    render_requiredField hnote hnote', hstatusPrinted,
    render_requiredField himportant himportant', tagsJson_applyTags htags htaken htags',
    ofOption_readField hdueOn, ofOption_readField hremindAt, ofOption_readField hremindTimezone,
    render_requiredField hrank hrank', ofOption_readField hseriesId,
    ofOption_readField hoccurrenceKey, ofOption_readField hrecurrence,
    ofOption_readField hcompletedAt]

theorem stepSpec_patched {env : Env} {patch : Json} {allowEmpty : Bool} {values values' : StepValues}
    (h : (stepSpec env).patched patch allowEmpty values = .ok values') :
    ∃ members, patch = .obj members ∧
      PatchedBy StepPatch.fields StepValues.print (stepMember env) members values values' := by
  simp only [stepSpec, parseStepPatch, bind_eq_ok_iff] at h
  obtain ⟨parsed, hparsed, happly⟩ := h
  obtain ⟨members, hobject, hread⟩ := parsePatch_eq_ok hparsed
  simp only [StepPatch.read, bind_eq_ok_iff] at hread
  obtain ⟨_, hdeny, taskId, htaskId, title, htitle, isCompleted, hisCompleted, rank, hrank,
    hresult⟩ := hread
  cases hresult
  simp only [StepPatch.apply, bind_eq_ok_iff] at happly
  obtain ⟨taskId', htaskId', title', htitle', isCompleted', hisCompleted', rank', hrank', _, -,
    hvalues⟩ := happly
  cases hvalues
  refine ⟨members, hobject, fun field => denyUnknownFields_eq_ok hdeny, fun printer => ?_⟩
  have htaskIdPrinted := render_requiredField htaskId htaskId' (.str ∘ printer.uuid) values.taskId
  simp only [Function.comp_apply] at htaskIdPrinted
  simp only [StepValues.print, overwrite, List.map_cons, List.map_nil, stepMember,
    htaskIdPrinted, render_requiredField htitle htitle',
    render_requiredField hisCompleted hisCompleted', render_requiredField hrank hrank']

theorem dayPlanSpec_patched {env : Env} {patch : Json} {allowEmpty : Bool}
    {values values' : DayPlanValues}
    (h : (dayPlanSpec env).patched patch allowEmpty values = .ok values') :
    ∃ members, patch = .obj members ∧
      PatchedBy DayPlanPatch.fields DayPlanValues.print (dayPlanMember env) members values
        values' := by
  simp only [dayPlanSpec, parseDayPlanPatch, bind_eq_ok_iff] at h
  obtain ⟨parsed, hparsed, happly⟩ := h
  obtain ⟨members, hobject, hread⟩ := parsePatch_eq_ok hparsed
  simp only [DayPlanPatch.read, bind_eq_ok_iff] at hread
  obtain ⟨_, hdeny, taskId, htaskId, localDate, hlocalDate, rank, hrank, hresult⟩ := hread
  cases hresult
  simp only [DayPlanPatch.apply, bind_eq_ok_iff] at happly
  obtain ⟨taskId', htaskId', localDate', hlocalDate', rank', hrank', _, -, hvalues⟩ := happly
  cases hvalues
  refine ⟨members, hobject, fun field => denyUnknownFields_eq_ok hdeny, fun printer => ?_⟩
  have htaskIdPrinted := render_requiredField htaskId htaskId' (.str ∘ printer.uuid) values.taskId
  have hlocalDatePrinted :=
    render_requiredField hlocalDate hlocalDate' (.str ∘ printer.date) values.localDate
  simp only [Function.comp_apply] at htaskIdPrinted hlocalDatePrinted
  simp only [DayPlanValues.print, overwrite, List.map_cons, List.map_nil, dayPlanMember,
    htaskIdPrinted, hlocalDatePrinted, render_requiredField hrank hrank']

/-! ### The four entities as one -/

/-- What the results about the log need to know of an entity: how it prints, and how its patches do. -/
structure EntityView (env : Env) {V : Type} (spec : EntitySpec V) where
  fields : List String
  print : Printer → V → List (String × Json)
  /-- A member of a patch, read and printed again. -/
  reprint : Printer → String → Json → Json
  /-- The fields a patch logs as they were stored. -/
  normalized : String → Bool
  print_fields : ∀ printer values, (print printer values).map Prod.fst = fields
  patched : ∀ patch allowEmpty values values', spec.patched patch allowEmpty values = .ok values' →
    ∃ members, patch = .obj members ∧ PatchedBy fields print reprint members values values'
  changePatch : ∀ values, spec.changePatch values = .obj (print env.serde values)
  print_stored : ∀ values, print env.jsonb (spec.stored values) = print env.stored values
  stored_stored : ∀ values, spec.stored (spec.stored values) = spec.stored values
  logged : ∀ patch allowEmpty values values', spec.patched patch allowEmpty values = .ok values' →
    ∀ field, (spec.logged patch values').get field = (patch.get field).map fun value =>
      if normalized field then reprint env.stored field value else value
  /-- A create without the field logs the default that the column holds. -/
  print_blank : ∀ today field, field ∉ spec.required →
    (print env.serde (spec.blank today)).lookup field =
      (print env.stored (spec.blank today)).lookup field
  table_withTable : ∀ entities table, spec.table (spec.withTable entities table) = table
  /-- No patch can name the columns that the server keeps. -/
  reserved : ∀ column ∈ ["id", "server_rev", "created_at", "updated_at", "deleted_at"],
    column ∉ fields

def listView (env : Env) : EntityView env listSpec where
  fields := ListPatch.fields
  print := ListValues.print
  reprint := listMember
  normalized _ := false
  print_fields _ _ := rfl
  patched _ _ _ _ := listSpec_patched
  changePatch _ := rfl
  print_stored _ := rfl
  stored_stored _ := rfl
  logged patch _ _ _ _ field := by simp [listSpec]
  print_blank _ _ _ := rfl
  table_withTable _ _ := rfl
  reserved := by decide

def stepView (env : Env) : EntityView env (stepSpec env) where
  fields := StepPatch.fields
  print := StepValues.print
  reprint := stepMember env
  normalized _ := false
  print_fields _ _ := rfl
  patched _ _ _ _ := stepSpec_patched
  changePatch _ := rfl
  print_stored _ := rfl
  stored_stored _ := rfl
  logged patch _ _ _ _ field := by simp [stepSpec]
  print_blank _ _ _ := rfl
  table_withTable _ _ := rfl
  reserved := by decide

def dayPlanView (env : Env) : EntityView env (dayPlanSpec env) where
  fields := DayPlanPatch.fields
  print := DayPlanValues.print
  reprint := dayPlanMember env
  normalized _ := false
  print_fields _ _ := rfl
  patched _ _ _ _ := dayPlanSpec_patched
  changePatch _ := rfl
  print_stored _ := rfl
  stored_stored _ := rfl
  logged patch _ _ _ _ field := by simp [dayPlanSpec]
  print_blank today field hfield := by
    have hdate : field ≠ "local_date" := fun h => hfield (by simp [dayPlanSpec, h])
    simp only [DayPlanValues.print, Json.lookup_cons_eq_ite, if_neg hdate]
    rfl
  table_withTable _ _ := rfl
  reserved := by decide

/-- A task patch logs its members as they came, and the tags as they were stored. -/
theorem taskPatchChange_get {env : Env} {patch : Json} {allowEmpty : Bool}
    {values values' : TaskValues} (h : (taskSpec env).patched patch allowEmpty values = .ok values')
    (field : String) :
    (taskPatchChange patch values').get field = (patch.get field).map fun value =>
      if field == "tags" then taskMember env env.stored field value else value := by
  obtain ⟨members, rfl, hpatched⟩ := taskSpec_patched h
  have htags := congrArg (List.lookup "tags") (hpatched.printed env.stored)
  rw [lookup_overwrite] at htags
  have hprinted : ∀ values : TaskValues,
      (values.print env.stored).lookup "tags" = some (tagsJson values.tags) := fun _ => rfl
  rw [hprinted, hprinted, Option.map_some, Option.some.injEq] at htags
  by_cases hfield : field = "tags"
  · subst hfield
    cases hlookup : members.lookup "tags" with
    | none => simp [taskPatchChange, hlookup]
    | some value =>
        rw [hlookup] at htags
        simp only [taskPatchChange, Json.get_obj, hlookup, Json.insert, Json.lookup_putMember,
          if_pos, Option.map_some, beq_self_eq_true]
        exact congrArg some htags
  · have hne : (field == "tags") = false := beq_false_of_ne hfield
    cases hlookup : members.lookup "tags" with
    | none => simp [taskPatchChange, hlookup, hne]
    | some value =>
        simp [taskPatchChange, hlookup, Json.insert, Json.lookup_putMember, hfield]

def taskView (env : Env) : EntityView env (taskSpec env) where
  fields := TaskPatch.fields
  print := TaskValues.print
  reprint := taskMember env
  normalized field := field == "tags"
  print_fields _ _ := rfl
  patched _ _ _ _ := taskSpec_patched
  changePatch _ := rfl
  print_stored values := by
    have hinstant : ∀ value : Option Instant,
        Json.ofOption (.str ∘ env.jsonb.instant) (value.map Instant.toColumn) =
          Json.ofOption (.str ∘ env.stored.instant) value := fun value => by
      cases value <;> rfl
    simp only [taskSpec, TaskValues.stored, TaskValues.print, hinstant]
    rfl
  stored_stored values := by
    have hinstant : ∀ value : Option Instant,
        (value.map Instant.toColumn).map Instant.toColumn = value.map Instant.toColumn :=
      fun value => by cases value <;> simp [Instant.toColumn_toColumn]
    simp only [taskSpec, TaskValues.stored, hinstant]
  logged _ _ _ _ h field := taskPatchChange_get h field
  print_blank _ _ _ := rfl
  table_withTable _ _ := rfl
  reserved := by decide

end ShishiTodo
