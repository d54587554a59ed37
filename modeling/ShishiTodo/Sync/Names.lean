import ShishiTodo.Sync.Transport
import ShishiTodo.Native.Sync

/-!
# The names of the fields

A field has one name in the stores and one in the API. The transport renames the members of an operation on the way out and those of a change on the way back; the native store renames a change by its underscores. The server's patch types take no other name than their own.
-/

namespace ShishiTodo.Sync

open Lib Native

/-! ### Renaming -/

def fieldNames (patch : Data) : List String := patch.map Prod.fst

/-- The fields of the patch type that the server reads for an entity. -/
def patchFields : EntityType → List String
  | .list => ShishiTodo.ListPatch.fields
  | .task => ShishiTodo.TaskPatch.fields
  | .step => ShishiTodo.StepPatch.fields
  | .dayPlan => ShishiTodo.DayPlanPatch.fields

def renamed (names : String → String) (patch : Data) : Data :=
  patch.map fun member => (names member.1, member.2)

/-- Without the fields that stay in the store. -/
def sendable (patch : Data) : Data := patch.filter fun member => !localOnlyFields.contains member.1

theorem putMember_of_fresh {key : String} {members : Data} (value : Json)
    (h : key ∉ fieldNames members) : Json.putMember key value members = members ++ [(key, value)] := by
  induction members with
  | nil => rfl
  | cons member rest ih =>
      rw [fieldNames, List.map_cons, List.mem_cons, not_or] at h
      rw [Json.putMember, if_neg (Ne.symm h.1), ih h.2, List.cons_append]

theorem mem_fieldNames_putMember {key name : String} {value : Json} {members : Data}
    (h : name ∈ fieldNames (Json.putMember key value members)) :
    name = key ∨ name ∈ fieldNames members := by
  induction members with
  | nil => exact .inl (List.mem_singleton.mp h)
  | cons member rest ih =>
      rw [Json.putMember] at h
      split at h
      · rcases List.mem_cons.mp h with hname | hrest
        · exact .inl hname
        · exact .inr (List.mem_cons_of_mem _ hrest)
      · rcases List.mem_cons.mp h with hname | hrest
        · exact .inr (hname ▸ List.mem_cons_self)
        · exact (ih hrest).imp_right (List.mem_cons_of_mem _)

/-- Members that get different names are renamed one by one. -/
theorem mapPatchKeys_eq {names : String → String} {patch : Data}
    (h : ((fieldNames patch).map names).Nodup) : mapPatchKeys names patch = renamed names patch := by
  suffices hfold : ∀ (rest done : Data), (fieldNames done ++ (fieldNames rest).map names).Nodup →
      rest.foldl (fun mapped member => Json.putMember (names member.1) member.2 mapped) done =
        done ++ renamed names rest from hfold patch [] h
  intro rest
  induction rest with
  | nil =>
      intro done _
      exact (List.append_nil done).symm
  | cons member rest ih =>
      intro done hnodup
      have hfresh : names member.1 ∉ fieldNames done := fun hmem =>
        List.disjoint_of_nodup_append hnodup hmem List.mem_cons_self
      rw [List.foldl_cons, putMember_of_fresh _ hfresh, ih, List.append_assoc]
      · rfl
      · simpa [fieldNames] using hnodup

theorem mem_fieldNames_mapPatchKeys {names : String → String} {patch : Data} {name : String}
    (h : name ∈ fieldNames (mapPatchKeys names patch)) : name ∈ (fieldNames patch).map names := by
  suffices hfold : ∀ (rest done : Data),
      name ∈ fieldNames (rest.foldl (fun mapped member =>
        Json.putMember (names member.1) member.2 mapped) done) →
      name ∈ fieldNames done ∨ name ∈ (fieldNames rest).map names by
    exact (hfold patch [] h).resolve_left List.not_mem_nil
  intro rest
  induction rest with
  | nil => exact fun done hdone => .inl hdone
  | cons member rest ih =>
      intro done hdone
      rcases ih _ hdone with hput | hrest
      · rcases mem_fieldNames_putMember hput with hname | hbefore
        · exact .inr (hname ▸ List.mem_cons_self)
        · exact .inl hbefore
      · exact .inr (List.mem_cons_of_mem _ hrest)

theorem fieldNames_renamed (names : String → String) (patch : Data) :
    fieldNames (renamed names patch) = (fieldNames patch).map names := by
  rw [fieldNames, renamed, fieldNames, List.map_map, List.map_map]
  rfl

theorem renamed_congr {names others : String → String} {patch : Data}
    (h : ∀ name ∈ fieldNames patch, names name = others name) :
    renamed names patch = renamed others patch := by
  apply List.map_congr_left
  intro member hmember
  rw [h member.1 (List.mem_map_of_mem hmember)]

theorem renamed_id {names : String → String} {patch : Data}
    (h : ∀ name ∈ fieldNames patch, names name = name) : renamed names patch = patch := by
  rw [renamed_congr h]
  exact List.map_id patch

theorem renamed_renamed (names others : String → String) (patch : Data) :
    renamed others (renamed names patch) = renamed (fun name => others (names name)) patch := by
  rw [renamed, renamed, renamed, List.map_map]
  rfl

/-- A field is found under its new name, when no other member gets that name. -/
theorem lookup_renamed {names back : String → String} {patch : Data} {field : String}
    (hback : ∀ name ∈ fieldNames patch, back (names name) = name) (hfield : back (names field) = field) :
    (renamed names patch).lookup (names field) = patch.lookup field := by
  induction patch with
  | nil => rfl
  | cons member rest ih =>
      have hmember : back (names member.1) = member.1 := hback member.1 List.mem_cons_self
      have hsame : names field = names member.1 ↔ field = member.1 :=
        ⟨fun h => by rw [← hfield, h, hmember], congrArg names⟩
      have hrest := ih fun name hname => hback name (List.mem_cons_of_mem _ hname)
      rw [renamed, List.map_cons, Json.lookup_cons_eq_ite, Json.lookup_cons_eq_ite]
      simp only [hsame]
      rw [← hrest, renamed]

theorem denyUnknownFields_ok_iff {known : List String} {members : Data} :
    denyUnknownFields known members = .ok () ↔ ∀ name ∈ fieldNames members, name ∈ known := by
  unfold denyUnknownFields
  constructor
  · intro h name hname
    obtain ⟨member, hmember, rfl⟩ := List.mem_map.mp hname
    by_contra hunknown
    split at h
    · cases h
    · rename_i hfind
      have := List.find?_eq_none.mp hfind member hmember
      simp [hunknown] at this
  · intro h
    have hfind : members.find? (fun member => !known.contains member.1) = none := by
      rw [List.find?_eq_none]
      intro member hmember
      simpa using h member.1 (List.mem_map_of_mem hmember)
    rw [hfind]

/-! ### The tables of names -/

section

variable {entity : EntityType} {field : String}

theorem serverFieldName_mem (h : field ∈ mutableFields entity) :
    serverFieldName field ∈ patchFields entity := by
  revert field
  cases entity <;> decide

theorem domainFieldName_mem (h : field ∈ patchFields entity) :
    domainFieldName field ∈ mutableFields entity := by
  revert field
  cases entity <;> decide

theorem domainFieldName_serverFieldName (h : field ∈ mutableFields entity) :
    domainFieldName (serverFieldName field) = field := by
  revert field
  cases entity <;> decide

theorem serverFieldName_domainFieldName (h : field ∈ patchFields entity) :
    serverFieldName (domainFieldName field) = field := by
  revert field
  cases entity <;> decide

theorem not_mem_localOnlyFields (h : field ∈ mutableFields entity) : field ∉ localOnlyFields := by
  revert field
  cases entity <;> decide

theorem not_mem_createdByServer (h : field ∈ patchFields entity) : field ∉ createdByServer := by
  revert field
  cases entity <;> decide

end

/-! ### Camel case -/

/-- Upper case of the small letters of ASCII, as Unicode has it. -/
def CapitalizesAscii (texts : Texts) : Prop :=
  ∀ c : Char, c.isLower = true → texts.toUppercase c = String.singleton c.toUpper

theorem camelizeObject_eq (texts : Texts) (object : Data) :
    camelizeObject texts object = mapPatchKeys (snakeToCamel texts) object := by
  rw [camelizeObject, mergeData, List.foldl_map]
  rfl

/-- Only what follows an underscore is turned into upper case. -/
theorem camelChars_congr {texts others : Texts} (chars : List Char) (uppercase : Bool)
    (h : ∀ c ∈ chars, c = '_' ∨ texts.toUppercase c = others.toUppercase c) :
    camelChars texts uppercase chars = camelChars others uppercase chars := by
  induction chars generalizing uppercase with
  | nil => rfl
  | cons c rest ih =>
      have hrest := fun uppercase => ih uppercase fun c hc => h c (List.mem_cons_of_mem _ hc)
      by_cases hline : c = '_'
      · rw [camelChars, camelChars, if_pos hline, if_pos hline, hrest]
      · have hupper := (h c List.mem_cons_self).resolve_left hline
        rw [camelChars, camelChars, if_neg hline, if_neg hline, hupper, hrest]

theorem snakeToCamel_patchFields {texts : Texts} (htexts : CapitalizesAscii texts) {entity : EntityType}
    {field : String} (h : field ∈ patchFields entity) : snakeToCamel texts field = domainFieldName field := by
  have hletters : ∀ field ∈ patchFields entity,
      field.toList.all (fun c => c = '_' || c.isLower) = true := by
    cases entity <;> decide
  have hutc : ∀ field ∈ patchFields entity, snakeToCamel Texts.utc field = domainFieldName field := by
    cases entity <;> decide
  rw [← hutc field h, snakeToCamel, snakeToCamel]
  congr 1
  apply camelChars_congr
  intro c hc
  have hletter := List.all_eq_true.mp (hletters field h) c hc
  rw [Bool.or_eq_true, decide_eq_true_iff] at hletter
  exact hletter.imp_right fun hlower => htexts c hlower

/-! ### A change on the way back -/

/-- A patch under the names of the server, each of them once. -/
structure ServerNamed (entity : EntityType) (change : Data) : Prop where
  known : ∀ name ∈ fieldNames change, name ∈ patchFields entity
  nodup : (fieldNames change).Nodup

/-- Both clients read the change under the names of the stores, with the values it has. -/
structure ReadBack (texts : Texts) (entity : EntityType) (change : Data) : Prop where
  named : ∀ name ∈ fieldNames (mapPatchKeys domainFieldName change), name ∈ mutableFields entity
  values : ∀ field ∈ mutableFields entity,
    (mapPatchKeys domainFieldName change).lookup field = change.lookup (serverFieldName field)
  camelized : camelizeObject texts change = mapPatchKeys domainFieldName change
  spelled : mapPatchKeys serverFieldName (mapPatchKeys domainFieldName change) = change

theorem nodup_map_of_inverse {names : List String} {rename back : String → String}
    (hnodup : names.Nodup) (hback : ∀ name ∈ names, back (rename name) = name) :
    (names.map rename).Nodup := by
  apply hnodup.map_on
  intro name hname other hother hsame
  rw [← hback name hname, hsame, hback other hother]

theorem mapPatchKeys_of_inverse {names back : String → String} {patch : Data}
    (hnodup : (fieldNames patch).Nodup) (hback : ∀ name ∈ fieldNames patch, back (names name) = name) :
    mapPatchKeys names patch = renamed names patch :=
  mapPatchKeys_eq (nodup_map_of_inverse hnodup hback)

theorem ServerNamed.readBack {texts : Texts} (htexts : CapitalizesAscii texts) {entity : EntityType}
    {change : Data} (h : ServerNamed entity change) : ReadBack texts entity change := by
  have hback : ∀ name ∈ fieldNames change, serverFieldName (domainFieldName name) = name :=
    fun name hname => serverFieldName_domainFieldName (h.known name hname)
  have hcamel : ∀ name ∈ fieldNames change, snakeToCamel texts name = domainFieldName name :=
    fun name hname => snakeToCamel_patchFields htexts (h.known name hname)
  have hdomain := mapPatchKeys_of_inverse h.nodup hback
  have hnames : ∀ name ∈ fieldNames (renamed domainFieldName change), name ∈ mutableFields entity := by
    intro name hname
    rw [fieldNames_renamed] at hname
    obtain ⟨server, hserver, rfl⟩ := List.mem_map.mp hname
    exact domainFieldName_mem (h.known server hserver)
  constructor
  · rw [hdomain]
    exact hnames
  · intro field hfield
    have hfound := lookup_renamed hback (serverFieldName_domainFieldName (serverFieldName_mem hfield))
    rwa [domainFieldName_serverFieldName hfield, ← hdomain] at hfound
  · have hcamelBack : ∀ name ∈ fieldNames change, serverFieldName (snakeToCamel texts name) = name :=
      fun name hname => by rw [hcamel name hname, hback name hname]
    rw [camelizeObject_eq, hdomain, mapPatchKeys_of_inverse h.nodup hcamelBack, renamed_congr hcamel]
  · have hnodup := nodup_map_of_inverse h.nodup hback
    rw [← fieldNames_renamed] at hnodup
    have hagain : ∀ name ∈ fieldNames (renamed domainFieldName change),
        domainFieldName (serverFieldName name) = name :=
      fun name hname => domainFieldName_serverFieldName (hnames name hname)
    rw [hdomain, mapPatchKeys_of_inverse hnodup hagain, renamed_renamed, renamed_id hback]

/-! ### An operation on the way out -/

/-- What the wire makes of an operation of the outbox. -/
structure WireFaithful (texts : Texts) (entity : EntityType) (kind : MutationKind) (patch : Data) : Prop where
  /-- The server knows every field. -/
  accepted : denyUnknownFields (patchFields entity) (toServerPatch kind patch) = .ok ()
  /-- No field is lost or changed. -/
  kept : ∀ field ∈ mutableFields entity,
    (toServerPatch kind patch).lookup (serverFieldName field) = patch.lookup field
  emptied : kind = .delete → toServerPatch kind patch = []
  /-- The transport gives the names and the values back. -/
  restored : mapPatchKeys domainFieldName (toServerPatch kind patch) = sendable patch
  /-- So does the native store. -/
  camelized : camelizeObject texts (toServerPatch kind patch) = sendable patch

/-- A patch that a store may log: each field once, none that is unknown, and nothing for a deletion. -/
structure Loggable (entity : EntityType) (kind : MutationKind) (patch : Data) : Prop where
  known : ∀ name ∈ fieldNames patch, name ∈ mutableFields entity ∨ name ∈ localOnlyFields
  nodup : (fieldNames patch).Nodup
  deleted : kind = .delete → patch = []

section

variable {texts : Texts} {entity : EntityType} {kind : MutationKind} {patch : Data}

theorem mem_fieldNames_sendable {name : String} :
    name ∈ fieldNames (sendable patch) ↔ name ∈ fieldNames patch ∧ name ∉ localOnlyFields := by
  simp only [fieldNames, sendable, List.mem_map, List.mem_filter]
  constructor
  · rintro ⟨member, ⟨hmember, hfield⟩, rfl⟩
    exact ⟨⟨member, hmember, rfl⟩, by simpa using hfield⟩
  · rintro ⟨⟨member, hmember, rfl⟩, hfield⟩
    exact ⟨member, ⟨hmember, by simpa using hfield⟩, rfl⟩

theorem lookup_sendable {field : String} (h : field ∉ localOnlyFields) :
    (sendable patch).lookup field = patch.lookup field := by
  induction patch with
  | nil => rfl
  | cons member rest ih =>
      rw [sendable, List.filter_cons]
      by_cases hlocal : member.1 ∈ localOnlyFields
      · have hne : field ≠ member.1 := fun hsame => h (hsame ▸ hlocal)
        rw [if_neg (by simpa using hlocal), Json.lookup_cons_eq_ite, if_neg hne]
        exact ih
      · rw [if_pos (by simpa using hlocal), Json.lookup_cons_eq_ite, Json.lookup_cons_eq_ite]
        rw [← ih, sendable]

/-- The fields of the entity go out under the server's names. -/
theorem toServerPatch_eq (hdelete : kind = .delete → patch = [])
    (hknown : ∀ name ∈ fieldNames (sendable patch), name ∈ mutableFields entity)
    (hnodup : (fieldNames (sendable patch)).Nodup) :
    toServerPatch kind patch = renamed serverFieldName (sendable patch) := by
  have hback : ∀ name ∈ fieldNames (sendable patch), domainFieldName (serverFieldName name) = name :=
    fun name hname => domainFieldName_serverFieldName (hknown name hname)
  have hmapped := mapPatchKeys_of_inverse hnodup hback
  have hcleaned : patch.filter (fun member => decide (kind = .delete) || !localOnlyFields.contains member.1) =
      sendable patch := by
    by_cases hkind : kind = .delete
    · rw [hdelete hkind]
      rfl
    · simp only [hkind, decide_false, Bool.false_or]
      rfl
  unfold toServerPatch
  rw [hcleaned]
  dsimp only
  rw [hmapped]
  split
  · apply List.filter_eq_self.mpr
    intro member hmember
    have hname : member.1 ∈ (fieldNames (sendable patch)).map serverFieldName := by
      rw [← fieldNames_renamed]
      exact List.mem_map_of_mem hmember
    obtain ⟨name, hname, hsame⟩ := List.mem_map.mp hname
    simpa [hsame] using not_mem_createdByServer (serverFieldName_mem (hknown name hname))
  · rfl

/-- An operation with the fields of its entity goes through the wire and back. -/
theorem Loggable.wireFaithful (htexts : CapitalizesAscii texts) (h : Loggable entity kind patch) :
    WireFaithful texts entity kind patch := by
  have hknown : ∀ name ∈ fieldNames (sendable patch), name ∈ mutableFields entity := by
    intro name hname
    obtain ⟨hpatch, hlocal⟩ := mem_fieldNames_sendable.mp hname
    exact (h.known name hpatch).resolve_right hlocal
  have hnodup : (fieldNames (sendable patch)).Nodup :=
    h.nodup.sublist (List.filter_sublist.map Prod.fst)
  have hback : ∀ name ∈ fieldNames (sendable patch), domainFieldName (serverFieldName name) = name :=
    fun name hname => domainFieldName_serverFieldName (hknown name hname)
  have hsent := toServerPatch_eq h.deleted hknown hnodup
  have hnamed : ServerNamed entity (toServerPatch kind patch) := by
    constructor
    · intro name hname
      rw [hsent, fieldNames_renamed] at hname
      obtain ⟨field, hfield, rfl⟩ := List.mem_map.mp hname
      exact serverFieldName_mem (hknown field hfield)
    · rw [hsent, fieldNames_renamed]
      exact nodup_map_of_inverse hnodup hback
  have hrestored : mapPatchKeys domainFieldName (toServerPatch kind patch) = sendable patch := by
    have hagain : ∀ name ∈ fieldNames (toServerPatch kind patch),
        serverFieldName (domainFieldName name) = name :=
      fun name hname => serverFieldName_domainFieldName (hnamed.known name hname)
    rw [mapPatchKeys_of_inverse hnamed.nodup hagain, hsent, renamed_renamed, renamed_id hback]
  constructor
  · exact denyUnknownFields_ok_iff.mpr hnamed.known
  · intro field hfield
    rw [hsent, lookup_renamed hback (domainFieldName_serverFieldName hfield),
      lookup_sendable (not_mem_localOnlyFields hfield)]
  · intro hkind
    rw [hsent, h.deleted hkind]
    rfl
  · exact hrestored
  · rw [(hnamed.readBack htexts).camelized, hrestored]

/-- A field that the server does not know shows in what comes back. -/
theorem WireFaithful.known (h : WireFaithful texts entity kind patch) :
    ∀ name ∈ fieldNames patch, name ∈ mutableFields entity ∨ name ∈ localOnlyFields := by
  intro name hname
  by_cases hlocal : name ∈ localOnlyFields
  · exact .inr hlocal
  · have hsent : name ∈ fieldNames (mapPatchKeys domainFieldName (toServerPatch kind patch)) := by
      rw [h.restored]
      exact mem_fieldNames_sendable.mpr ⟨hname, hlocal⟩
    obtain ⟨server, hserver, rfl⟩ := List.mem_map.mp (mem_fieldNames_mapPatchKeys hsent)
    exact .inl (domainFieldName_mem (denyUnknownFields_ok_iff.mp h.accepted server hserver))

end

end ShishiTodo.Sync
