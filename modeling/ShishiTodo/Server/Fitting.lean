import ShishiTodo.Server.ColumnTypes
import ShishiTodo.Server.Columns
import ShishiTodo.Server.EntityOutcome

/-!
# What fits the columns

The validators against the column types, field by field: values that were validated fit, whether a patch gave them or the row had them, and the patch that the log keeps is a `JSONB`.
-/

namespace ShishiTodo

open Lib

/-! ### Text without NUL -/

theorem membersContainNul_eq_false_iff {members : List (String × Json)} :
    membersContainNul members = false ↔
      ∀ member ∈ members, containsNul member.1 = false ∧ jsonContainsNul member.2 = false := by
  induction members with
  | nil => simp [membersContainNul]
  | cons member rest ih =>
      obtain ⟨key, value⟩ := member
      simp [membersContainNul, ih, and_assoc]

theorem itemsContainNul_strings {texts : List String} (h : texts.all fitsText = true) :
    itemsContainNul (texts.map .str) = false := by
  induction texts with
  | nil => rfl
  | cons text rest ih =>
      simp only [List.all_cons, Bool.and_eq_true, fitsText, Bool.not_eq_true'] at h
      simp only [List.map_cons, itemsContainNul, jsonContainsNul, h.1, Bool.false_or]
      exact ih h.2

theorem jsonContainsNul_ofOption {α : Type} {render : α → Json} {value : Option α}
    (h : ∀ found, value = some found → jsonContainsNul (render found) = false) :
    jsonContainsNul (.ofOption render value) = false := by
  cases value with
  | none => rfl
  | some found => exact h found rfl

/-- A member that is replaced, in an object that has it once. -/
theorem membersContainNul_putMember {members : List (String × Json)} {key : String} {value : Json}
    (hnodup : (members.map Prod.fst).Nodup)
    (hothers : ∀ member ∈ members, member.1 ≠ key →
      containsNul member.1 = false ∧ jsonContainsNul member.2 = false)
    (hkey : containsNul key = false) (hvalue : jsonContainsNul value = false) :
    membersContainNul (Json.putMember key value members) = false := by
  induction members with
  | nil => simp [Json.putMember, membersContainNul, hkey, hvalue]
  | cons member rest ih =>
      obtain ⟨name, old⟩ := member
      rw [List.map_cons, List.nodup_cons] at hnodup
      by_cases hname : name = key
      · rw [Json.putMember, if_pos hname, membersContainNul_eq_false_iff]
        intro other hother
        rcases List.mem_cons.mp hother with rfl | hrest
        · exact ⟨hkey, hvalue⟩
        · refine hothers other (List.mem_cons_of_mem _ hrest) fun hsame => hnodup.1 ?_
          exact List.mem_map.mpr ⟨other, hrest, hsame.trans hname.symm⟩
      · obtain ⟨hfirst, hold⟩ := hothers _ List.mem_cons_self hname
        have hrest := ih hnodup.2 fun other hother =>
          hothers other (List.mem_cons_of_mem _ hother)
        rw [Json.putMember, if_neg hname]
        simp only at hfirst hold
        simp [membersContainNul, hfirst, hold, hrest]

/-! ### Validators -/

theorem fitsVarchar_of_requiredText {field value : String} {maxChars : Nat} {done : Unit}
    (h : requiredText field value maxChars = .ok done) : fitsVarchar maxChars value = true := by
  simp only [requiredText, rejectNul, bind_eq_ok_iff, refuseIf_eq_ok_iff] at h
  obtain ⟨_, hnul, _, -, hlength⟩ := h
  simp only [fitsVarchar, fitsText, Bool.and_eq_true, Bool.not_eq_true', decide_eq_true_eq]
  exact ⟨by simpa using hnul, by omega⟩

theorem fitsText_of_fitsVarchar {value : String} {maxChars : Nat}
    (h : fitsVarchar maxChars value = true) : fitsText value = true :=
  (Bool.and_eq_true_iff.mp h).1

theorem fitsText_of_optionalText {field : String} {value : Option String} {maxChars : Nat}
    {done : Unit} (h : optionalText field value maxChars = .ok done) :
    value.all fitsText = true := by
  cases value with
  | none => rfl
  | some text =>
      simp only [optionalText, rejectNul, bind_eq_ok_iff, refuseIf_eq_ok_iff] at h
      obtain ⟨_, hnul, -⟩ := h
      simpa [fitsText] using hnul

theorem fitsText_of_normalizeTags {env : Env} {raw : List String} :
    ∀ {seen kept tags : List String}, normalizeTagsFrom env raw seen kept = .ok tags →
      kept.all fitsText = true → tags.all fitsText = true := by
  induction raw with
  | nil =>
      intro seen kept tags h hkept
      cases h
      exact hkept
  | cons first rest ih =>
      intro seen kept tags h hkept
      simp only [normalizeTagsFrom, bind_eq_ok_iff] at h
      obtain ⟨tag, htag, h⟩ := h
      simp only [checkTag, rejectNul, bind_eq_ok_iff, refuseIf_eq_ok_iff] at htag
      obtain ⟨_, hnul, _, -, _, -, hresult⟩ := htag
      rw [Except.ok.inj hresult] at hnul
      split at h
      · exact ih h hkept
      · rw [ite_error_eq_ok_iff] at h
        refine ih h.2 ?_
        rw [List.all_append, hkept]
        simpa [fitsText] using hnul

/-- No year from 4713 BC on lies before the first date of a column. -/
theorem days_ge_of_year_ge {date : NaiveDate} (h : minStorableYear ≤ date.year) :
    -2440588 ≤ date.days := by
  simp only [minStorableYear, NaiveDate.year] at h
  rw [Int.fdiv_eq_ediv_of_nonneg _ (by decide)] at h
  split at h <;> omega

theorem NaiveDate.beforeEnd_of_days {date : NaiveDate} (h : date.days ≤ chronoMaxDays) :
    date.beforeEnd = true := by
  simp only [chronoMaxDays] at h
  simp only [NaiveDate.beforeEnd, decide_eq_true_eq]
  omega

/-- The column cuts an instant off towards its epoch, so that it stays in range. -/
theorem Instant.beforeEnd_of_days {instant : Instant} (h : instant.dateNaive.days ≤ chronoMaxDays) :
    instant.beforeEnd = true := by
  simp only [Instant.dateNaive, Int.fdiv_eq_ediv_of_nonneg _ (show (0 : Int) ≤ 86400000000000 by
    decide), chronoMaxDays] at h
  have hsign : Int.sign 1000 = 1 := rfl
  simp only [Instant.beforeEnd, Instant.toColumn, Instant.columnEpoch, Int.tdiv_eq_ediv, hsign,
    decide_eq_true_eq]
  split <;> omega

theorem fitsDate_of_storableDate {field : String} {date : NaiveDate} {done : Unit}
    (h : storableDate field date = .ok done) (hend : date.beforeEnd = true) :
    fitsDate date = true := by
  have hyear : minStorableYear ≤ date.year := by simpa [storableDate] using h
  rw [fitsDate, hend, Bool.and_true, decide_eq_true_eq]
  exact days_ge_of_year_ge hyear

theorem fitsTimestamptz_of_storableDate {field : String} {instant : Instant} {done : Unit}
    (h : storableDate field instant.dateNaive = .ok done) (hend : instant.beforeEnd = true) :
    fitsTimestamptz instant = true := by
  have hyear : minStorableYear ≤ instant.dateNaive.year := by simpa [storableDate] using h
  have hmin := days_ge_of_year_ge hyear
  simp only [Instant.dateNaive, Int.fdiv_eq_ediv_of_nonneg _ (show (0 : Int) ≤ 86400000000000 by
    decide)] at hmin
  have hsign : Int.sign 1000 = 1 := rfl
  rw [fitsTimestamptz, hend, Bool.and_true]
  refine decide_eq_true ?_
  simp only [Instant.toColumn, Instant.columnEpoch, Int.tdiv_eq_ediv, hsign]
  split <;> omega

theorem fitsTimestamptz_of_storableTimestamp {field : String} {value : Option Instant} {done : Unit}
    (h : storableTimestamp field value = .ok done) (hend : value.all Instant.beforeEnd = true) :
    value.all fitsTimestamptz = true := by
  cases value with
  | none => rfl
  | some instant => exact fitsTimestamptz_of_storableDate h hend

/-! ### One field of a patch -/

section Field

variable {α : Type} {members : List (String × Json)} {field : String} {decode : Decoder α}
  {given : PatchField α}

/-- A nullable column after a patch. -/
theorem all_readField {holds : α → Bool} {old : Option α}
    (h : readField members field decode = .ok given) (hold : old.all holds = true)
    (hdecode : ∀ value decoded, decode value = some decoded → holds decoded = true) :
    (given.getD old).all holds = true := by
  rcases readField_cases h with ⟨-, rfl⟩ | ⟨-, rfl⟩ | ⟨value, decoded, -, -, hvalue, rfl⟩
  · exact hold
  · rfl
  · exact hdecode value decoded hvalue

/-- A required column after a patch; the old value counts only where the patch has none. -/
theorem holds_requiredField {holds : α → Bool} {old : α} {taken : Option α}
    (h : readField members field decode = .ok given)
    (hrequired : requiredField field given = .ok taken)
    (hold : members.lookup field = none → holds old = true)
    (hdecode : ∀ value decoded, decode value = some decoded → holds decoded = true) :
    holds (taken.getD old) = true := by
  rcases readField_cases h with ⟨hlookup, rfl⟩ | ⟨-, rfl⟩ | ⟨value, decoded, -, -, hvalue, rfl⟩
  · cases hrequired
    exact hold hlookup
  · cases hrequired
  · cases hrequired
    exact hdecode value decoded hvalue

/-- The member under the field has no NUL. -/
def CleanAt (members : List (String × Json)) (field : String) : Prop :=
  ∀ value, members.lookup field = some value → jsonContainsNul value = false

theorem cleanAt_of_decode (h : readField members field decode = .ok given)
    (hclean : ∀ value decoded, decode value = some decoded → given = some (some decoded) →
      jsonContainsNul value = false) : CleanAt members field := by
  intro found hfound
  rcases readField_cases h with ⟨hlookup, -⟩ | ⟨hlookup, -⟩ |
    ⟨value, decoded, hlookup, -, hvalue, hgiven⟩
  · rw [hlookup] at hfound
    cases hfound
  · rw [hlookup, Option.some.injEq] at hfound
    subst hfound
    rfl
  · rw [hlookup, Option.some.injEq] at hfound
    subst hfound
    exact hclean _ decoded hvalue hgiven

theorem eq_str_of_string {value : Json} {text : String} (h : Decoder.string value = some text) :
    value = .str text := by
  cases value <;> simp_all [Decoder.string]

theorem cleanAt_requiredText {given : PatchField String} {taken : Option String} {old : String}
    (h : readField members field .string = .ok given)
    (hrequired : requiredField field given = .ok taken)
    (htext : fitsText (taken.getD old) = true) : CleanAt members field := by
  refine cleanAt_of_decode h ?_
  rintro value text hvalue rfl
  cases hrequired
  rw [eq_str_of_string hvalue]
  simpa [fitsText, jsonContainsNul] using htext

theorem cleanAt_text {given : PatchField String} {old : Option String}
    (h : readField members field .string = .ok given)
    (htext : (given.getD old).all fitsText = true) : CleanAt members field := by
  refine cleanAt_of_decode h ?_
  rintro value text hvalue rfl
  rw [eq_str_of_string hvalue]
  simpa [fitsText, jsonContainsNul] using htext

theorem cleanAt_coded {codec : Codec α}
    (htext : ∀ text value, codec.parse text = some value → containsNul text = false)
    (h : readField members field (.coded codec) = .ok given) : CleanAt members field := by
  refine cleanAt_of_decode h ?_
  intro value decoded hvalue _
  cases value with
  | str text => exact htext text decoded hvalue
  | _ => simp [Decoder.coded] at hvalue

theorem cleanAt_bool {given : PatchField Bool} (h : readField members field .bool = .ok given) :
    CleanAt members field := by
  refine cleanAt_of_decode h ?_
  intro value decoded hvalue _
  cases value with
  | bool value => rfl
  | _ => simp [Decoder.bool] at hvalue

theorem fitsText_of_status {text : String} {status : TaskStatus}
    (h : TaskStatus.parse text = some status) : containsNul text = false := by
  unfold TaskStatus.parse at h
  split at h
  · decide
  · decide
  · cases h

theorem cleanAt_status {given : PatchField TaskStatus}
    (h : readField members field .status = .ok given) : CleanAt members field := by
  refine cleanAt_of_decode h ?_
  intro value decoded hvalue _
  unfold Decoder.status at hvalue
  split at hvalue
  · exact fitsText_of_status hvalue
  · rename_i name
    simp [jsonContainsNul, membersContainNul, fitsText_of_status hvalue]
  · cases hvalue

theorem cleanAt_jsonb {given : PatchField Json} {old : Option Json}
    (h : readField members field .value = .ok given)
    (hjson : (given.getD old).all fitsJsonb = true) : CleanAt members field := by
  refine cleanAt_of_decode h ?_
  rintro value decoded hvalue rfl
  cases hvalue
  simpa [fitsJsonb] using hjson

end Field

theorem lookup_of_mem {members : List (String × Json)} (hnodup : (members.map Prod.fst).Nodup)
    {member : String × Json} (hmem : member ∈ members) :
    members.lookup member.1 = some member.2 := by
  induction members with
  | nil => cases hmem
  | cons first rest ih =>
      rw [List.map_cons, List.nodup_cons] at hnodup
      rw [show first = (first.1, first.2) from rfl, Json.lookup_cons_eq_ite]
      rcases List.mem_cons.mp hmem with rfl | hrest
      · exact if_pos rfl
      · have hne : member.1 ≠ first.1 := fun hsame =>
          hnodup.1 (List.mem_map.mpr ⟨member, hrest, hsame⟩)
        rw [if_neg hne]
        exact ih hnodup.2 hrest

/-- The members of a patch, but for one that is left out. -/
theorem clean_members {known : List String} {members : List (String × Json)} {done : Unit}
    (left : String → Prop) (hdeny : denyUnknownFields known members = .ok done)
    (hknown : known.all fitsText = true) (hnodup : (members.map Prod.fst).Nodup)
    (hclean : ∀ field ∈ known, ¬ left field → CleanAt members field) :
    ∀ member ∈ members, ¬ left member.1 →
      containsNul member.1 = false ∧ jsonContainsNul member.2 = false := by
  intro member hmem hleft
  have hlookup := lookup_of_mem hnodup hmem
  have hfield : member.1 ∈ known := by
    by_contra hunknown
    rw [denyUnknownFields_eq_ok hdeny hunknown] at hlookup
    cases hlookup
  refine ⟨?_, hclean member.1 hfield hleft member.2 hlookup⟩
  have htext := List.all_eq_true.mp hknown member.1 hfield
  simpa [fitsText] using htext

theorem fitsJsonb_obj {known : List String} {members : List (String × Json)} {done : Unit}
    (hdeny : denyUnknownFields known members = .ok done) (hknown : known.all fitsText = true)
    (hdistinct : (Json.obj members).Distinct) (hclean : ∀ field ∈ known, CleanAt members field) :
    fitsJsonb (.obj members) = true := by
  have hmembers := clean_members (fun _ => False) hdeny hknown (hdistinct members rfl)
    (fun field hfield _ => hclean field hfield)
  have hnul : membersContainNul members = false :=
    membersContainNul_eq_false_iff.mpr fun member hmem => hmembers member hmem (fun h => h)
  simp [fitsJsonb, jsonContainsNul, hnul]

/-! ### What validated values fit -/

theorem ListValues.fits_of_validate {values : ListValues} {done : Unit}
    (h : values.validate = .ok done) : values.fits = true := by
  simp only [ListValues.validate, bind_eq_ok_iff] at h
  obtain ⟨_, hname, _, hcolor, _, hicon, hrank⟩ := h
  simp [ListValues.fits, fitsVarchar_of_requiredText hname, fitsText_of_optionalText hcolor,
    fitsText_of_optionalText hicon, fitsVarchar_of_requiredText hrank]

theorem StepValues.fits_of_validate {values : StepValues} {done : Unit}
    (h : values.validate = .ok done) : values.fits = true := by
  simp only [StepValues.validate, bind_eq_ok_iff] at h
  obtain ⟨_, htitle, hrank⟩ := h
  simp [StepValues.fits, fitsVarchar_of_requiredText htitle, fitsVarchar_of_requiredText hrank]

theorem DayPlanValues.fits_of_validate {values : DayPlanValues} {done : Unit}
    (h : values.validate = .ok done) (hend : values.localDate.beforeEnd = true) :
    values.fits = true := by
  simp only [DayPlanValues.validate, bind_eq_ok_iff] at h
  obtain ⟨_, hdate, hrank⟩ := h
  simp [DayPlanValues.fits, fitsDate_of_storableDate hdate hend, fitsVarchar_of_requiredText hrank]

theorem fitsVarchar_status (status : TaskStatus) : fitsVarchar 12 status.asStr = true := by
  cases status <;> decide

theorem fitsText_of_validateTags {env : Env} {tags : List String} {done : Unit}
    (h : TaskValues.validateTags env tags = .ok done) : tags.all fitsText = true := by
  simp only [TaskValues.validateTags, bind_eq_ok_iff, refuseIf_eq_ok_iff, not_not] at h
  obtain ⟨normalized, hnormalized, rfl⟩ := h
  exact fitsText_of_normalizeTags hnormalized rfl

theorem fitsText_of_validateTimezone {env : Env} {timezone : Option String} {done : Unit}
    (h : TaskValues.validateTimezone env timezone = .ok done) : timezone.all fitsText = true := by
  cases timezone with
  | none => rfl
  | some text =>
      simp only [TaskValues.validateTimezone, bind_eq_ok_iff] at h
      obtain ⟨_, htext, -⟩ := h
      exact fitsText_of_fitsVarchar (fitsVarchar_of_requiredText htext)

theorem fitsVarchar_of_validateOccurrenceKey {key : Option String} {done : Unit}
    (h : TaskValues.validateOccurrenceKey key = .ok done) : key.all (fitsVarchar 64) = true := by
  cases key with
  | none => rfl
  | some text => exact fitsVarchar_of_requiredText h

theorem fitsJsonb_of_validateRecurrence {recurrence : Option Json} {done : Unit}
    (h : TaskValues.validateRecurrence recurrence = .ok done) :
    recurrence.all fitsJsonb = true := by
  cases recurrence with
  | none => rfl
  | some json =>
      simp only [TaskValues.validateRecurrence, bind_eq_ok_iff, refuseIf_eq_ok_iff] at h
      obtain ⟨_, -, _, -, hnul⟩ := h
      simpa [fitsJsonb] using hnul

theorem fitsDate_of_validateDueOn {dueOn : Option NaiveDate} {done : Unit}
    (h : TaskValues.validateDueOn dueOn = .ok done)
    (hend : dueOn.all NaiveDate.beforeEnd = true) : dueOn.all fitsDate = true := by
  cases dueOn with
  | none => rfl
  | some date => exact fitsDate_of_storableDate h hend

theorem TaskValues.fits_of_validate {env : Env} {values : TaskValues} {done : Unit}
    (h : values.validate env = .ok done) (hdue : values.dueOn.all NaiveDate.beforeEnd = true)
    (hremind : values.remindAt.all Instant.beforeEnd = true)
    (hcompleted : values.completedAt.all Instant.beforeEnd = true) : values.fits = true := by
  simp only [TaskValues.validate, bind_eq_ok_iff] at h
  obtain ⟨_, htitle, _, hnote, _, hrank, _, htags, _, htimezone, _, hkey, _, hrecurrence, _, hdueOn,
    _, hremindAt, hcompletedAt⟩ := h
  have hnote' : fitsText values.note = true := fitsText_of_optionalText hnote
  simp [TaskValues.fits, fitsVarchar_of_requiredText htitle, hnote', fitsVarchar_status,
    fitsText_of_validateTags htags, fitsDate_of_validateDueOn hdueOn hdue,
    fitsTimestamptz_of_storableTimestamp hremindAt hremind, fitsText_of_validateTimezone htimezone,
    fitsVarchar_of_requiredText hrank, fitsVarchar_of_validateOccurrenceKey hkey,
    fitsJsonb_of_validateRecurrence hrecurrence,
    fitsTimestamptz_of_storableTimestamp hcompletedAt hcompleted]

/-! ### The four entities -/

/-- What an operation writes fits the columns, and what it logs is a `JSONB`. -/
structure TypedView {V : Type} (spec : EntitySpec V) (fits : V → Bool) : Prop where
  created : ∀ patch today values, requirePresentFields patch spec.required = .ok () →
    spec.patched patch true (spec.blank today) = .ok values → spec.validate values = .ok () →
    fits values = true
  updated : ∀ patch allowEmpty old values, fits old = true →
    spec.patched patch allowEmpty old = .ok values → spec.validate values = .ok () →
    fits values = true
  stored : ∀ values, fits values = true → fits (spec.stored values) = true
  changePatch : ∀ values, fits values = true → fitsJsonb (spec.changePatch values) = true
  logged : ∀ patch allowEmpty old values, patch.Distinct →
    spec.patched patch allowEmpty old = .ok values → fits values = true →
    fitsJsonb (spec.logged patch values) = true

theorem fitsJsonb_print {members : List (String × Json)} {fields : List String}
    (hfields : members.map Prod.fst = fields) (htext : fields.all fitsText = true)
    (hclean : ∀ member ∈ members, jsonContainsNul member.2 = false) :
    fitsJsonb (.obj members) = true := by
  have hnul : membersContainNul members = false := by
    rw [membersContainNul_eq_false_iff]
    intro member hmem
    refine ⟨?_, hclean member hmem⟩
    have hkey := List.all_eq_true.mp htext member.1 (hfields ▸ List.mem_map_of_mem hmem)
    simpa [fitsText] using hkey
  simp [fitsJsonb, jsonContainsNul, hnul]

theorem jsonContainsNul_print {text : String} (h : containsNul text = false) :
    jsonContainsNul (.str text) = false := by
  simpa [jsonContainsNul] using h

theorem jsonContainsNul_str {text : String} (h : fitsText text = true) :
    jsonContainsNul (.str text) = false :=
  jsonContainsNul_print (by simpa [fitsText] using h)

theorem jsonContainsNul_text {value : Option String} (h : value.all fitsText = true) :
    jsonContainsNul (.ofOption .str value) = false := by
  refine jsonContainsNul_ofOption ?_
  rintro text rfl
  exact jsonContainsNul_str h

theorem listTyped : TypedView listSpec ListValues.fits where
  created _ _ _ _ _ hvalid := ListValues.fits_of_validate hvalid
  updated _ _ _ _ _ _ hvalid := ListValues.fits_of_validate hvalid
  stored _ h := h
  changePatch values h := by
    have hkeys : ListPatch.fields.all fitsText = true := by decide
    simp only [ListValues.fits, Bool.and_eq_true] at h
    obtain ⟨⟨⟨hname, hcolor⟩, hicon⟩, hrank⟩ := h
    refine fitsJsonb_print (show _ = ListPatch.fields from rfl) hkeys ?_
    simp only [List.forall_mem_cons]
    exact ⟨jsonContainsNul_str (fitsText_of_fitsVarchar hname), jsonContainsNul_text hcolor,
      jsonContainsNul_text hicon, jsonContainsNul_str (fitsText_of_fitsVarchar hrank),
      fun _ h => absurd h List.not_mem_nil⟩
  logged patch allowEmpty old values hdistinct h hfits := by
    have hkeys : ListPatch.fields.all fitsText = true := by decide
    simp only [ListValues.fits, Bool.and_eq_true] at hfits
    obtain ⟨⟨⟨hname', hcolor'⟩, hicon'⟩, hrank'⟩ := hfits
    simp only [listSpec, parseListPatch, bind_eq_ok_iff] at h
    obtain ⟨parsed, hparsed, happly⟩ := h
    obtain ⟨members, rfl, hread⟩ := parsePatch_eq_ok hparsed
    simp only [ListPatch.read, bind_eq_ok_iff] at hread
    obtain ⟨_, hdeny, name, hname, color, hcolor, icon, hicon, rank, hrank, hresult⟩ := hread
    cases hresult
    simp only [ListPatch.apply, bind_eq_ok_iff] at happly
    obtain ⟨name', hname'', rank', hrank'', _, -, hvalues⟩ := happly
    cases hvalues
    refine fitsJsonb_obj hdeny hkeys hdistinct ?_
    simp only [ListPatch.fields, List.forall_mem_cons]
    exact ⟨cleanAt_requiredText hname hname'' (fitsText_of_fitsVarchar hname'),
      cleanAt_text hcolor hcolor', cleanAt_text hicon hicon',
      cleanAt_requiredText hrank hrank'' (fitsText_of_fitsVarchar hrank'), fun _ h => absurd h List.not_mem_nil⟩

theorem jsonContainsNul_coded {α : Type} {render : α → String} {value : Option α}
    (h : ∀ found, containsNul (render found) = false) :
    jsonContainsNul (.ofOption (.str ∘ render) value) = false :=
  jsonContainsNul_ofOption fun found _ => jsonContainsNul_print (h found)

theorem all_beforeEnd_of_fitsDate {value : Option NaiveDate} (h : value.all fitsDate = true) :
    value.all NaiveDate.beforeEnd = true := by
  cases value with
  | none => rfl
  | some date => exact (Bool.and_eq_true_iff.mp h).2

theorem all_beforeEnd_of_fitsTimestamptz {value : Option Instant}
    (h : value.all fitsTimestamptz = true) : value.all Instant.beforeEnd = true := by
  cases value with
  | none => rfl
  | some instant => exact (Bool.and_eq_true_iff.mp h).2

theorem all_fitsText_of_fitsVarchar {value : Option String} {maxChars : Nat}
    (h : value.all (fitsVarchar maxChars) = true) : value.all fitsText = true := by
  cases value with
  | none => rfl
  | some text => exact fitsText_of_fitsVarchar h

/-- A column reads back what it holds. -/
theorem all_fitsTimestamptz_stored {value : Option Instant} (h : value.all fitsTimestamptz = true) :
    (value.map Instant.toColumn).all fitsTimestamptz = true := by
  cases value with
  | none => rfl
  | some instant =>
      simp only [Option.map_some, Option.all_some, fitsTimestamptz, Instant.beforeEnd,
        Instant.toColumn_toColumn]
      exact h

theorem fitsJsonb_taskPatchChange {members : List (String × Json)} {values : TaskValues}
    {done : Unit} (hdeny : denyUnknownFields TaskPatch.fields members = .ok done)
    (hdistinct : (Json.obj members).Distinct)
    (hclean : ∀ field ∈ TaskPatch.fields, ¬ field = "tags" → CleanAt members field)
    (htags : values.tags.all fitsText = true) :
    fitsJsonb (taskPatchChange (.obj members) values) = true := by
  have hkeys : TaskPatch.fields.all fitsText = true := by decide
  have hmembers := clean_members (fun field => field = "tags") hdeny hkeys (hdistinct members rfl)
    hclean
  have hnul : jsonContainsNul (taskPatchChange (.obj members) values) = false := by
    unfold taskPatchChange
    split
    · rename_i hnone
      rw [jsonContainsNul, membersContainNul_eq_false_iff]
      intro member hmem
      refine hmembers member hmem fun hsame => ?_
      have hlookup := lookup_of_mem (hdistinct members rfl) hmem
      rw [hsame] at hlookup
      rw [Json.get_obj, hlookup] at hnone
      cases hnone
    · rw [Json.insert, jsonContainsNul]
      refine membersContainNul_putMember (hdistinct members rfl) hmembers (by decide) ?_
      rw [jsonContainsNul]
      exact itemsContainNul_strings htags
  simp [fitsJsonb, hnul]

section Crates

variable {env : Env}

include env

theorem stepTyped (hcrates : env.Crates) : TypedView (stepSpec env) StepValues.fits where
  created _ _ _ _ _ hvalid := StepValues.fits_of_validate hvalid
  updated _ _ _ _ _ _ hvalid := StepValues.fits_of_validate hvalid
  stored _ h := h
  changePatch values h := by
    have hkeys : StepPatch.fields.all fitsText = true := by decide
    simp only [StepValues.fits, Bool.and_eq_true] at h
    refine fitsJsonb_print (show _ = StepPatch.fields from rfl) hkeys ?_
    simp only [List.forall_mem_cons]
    exact ⟨jsonContainsNul_print (hcrates.uuidPrint values.taskId),
      jsonContainsNul_str (fitsText_of_fitsVarchar h.1), rfl,
      jsonContainsNul_str (fitsText_of_fitsVarchar h.2), fun _ h => absurd h List.not_mem_nil⟩
  logged patch allowEmpty old values hdistinct h hfits := by
    have hkeys : StepPatch.fields.all fitsText = true := by decide
    simp only [StepValues.fits, Bool.and_eq_true] at hfits
    simp only [stepSpec, parseStepPatch, bind_eq_ok_iff] at h
    obtain ⟨parsed, hparsed, happly⟩ := h
    obtain ⟨members, rfl, hread⟩ := parsePatch_eq_ok hparsed
    simp only [StepPatch.read, bind_eq_ok_iff] at hread
    obtain ⟨_, hdeny, taskId, htaskId, title, htitle, isCompleted, hisCompleted, rank, hrank,
      hresult⟩ := hread
    cases hresult
    simp only [StepPatch.apply, bind_eq_ok_iff] at happly
    obtain ⟨taskId', -, title', htitle', isCompleted', -, rank', hrank', _, -, hvalues⟩ := happly
    cases hvalues
    refine fitsJsonb_obj hdeny hkeys hdistinct ?_
    simp only [StepPatch.fields, List.forall_mem_cons]
    exact ⟨cleanAt_coded hcrates.uuidText htaskId,
      cleanAt_requiredText htitle htitle' (fitsText_of_fitsVarchar hfits.1),
      cleanAt_bool hisCompleted,
      cleanAt_requiredText hrank hrank' (fitsText_of_fitsVarchar hfits.2), fun _ h => absurd h List.not_mem_nil⟩

theorem Env.Crates.dateEnd (hcrates : env.Crates) (value : Json) (date : NaiveDate)
    (h : Decoder.coded env.date value = some date) : date.beforeEnd = true := by
  cases value with
  | str text => exact NaiveDate.beforeEnd_of_days (hcrates.dateMax text date h)
  | _ => simp [Decoder.coded] at h

theorem Env.Crates.instantEnd (hcrates : env.Crates) (value : Json) (instant : Instant)
    (h : Decoder.coded env.instant value = some instant) : instant.beforeEnd = true := by
  cases value with
  | str text => exact Instant.beforeEnd_of_days (hcrates.instantMax text instant h)
  | _ => simp [Decoder.coded] at h

/-- A day plan's date is the one of the patch, or the old one. -/
theorem dayPlan_beforeEnd (hcrates : env.Crates) {members : List (String × Json)} {allowEmpty : Bool}
    {old values : DayPlanValues}
    (h : (dayPlanSpec env).patched (.obj members) allowEmpty old = .ok values)
    (hold : members.lookup "local_date" = none → old.localDate.beforeEnd = true) :
    values.localDate.beforeEnd = true := by
  simp only [dayPlanSpec, parseDayPlanPatch, bind_eq_ok_iff] at h
  obtain ⟨parsed, hparsed, happly⟩ := h
  obtain ⟨_, hobject, hread⟩ := parsePatch_eq_ok hparsed
  cases hobject
  simp only [DayPlanPatch.read, bind_eq_ok_iff] at hread
  obtain ⟨_, -, taskId, -, localDate, hlocalDate, rank, -, hresult⟩ := hread
  cases hresult
  simp only [DayPlanPatch.apply, bind_eq_ok_iff] at happly
  obtain ⟨taskId', -, localDate', hlocalDate', rank', -, _, -, hvalues⟩ := happly
  cases hvalues
  exact holds_requiredField hlocalDate hlocalDate' hold hcrates.dateEnd

theorem dayPlanTyped (hcrates : env.Crates) : TypedView (dayPlanSpec env) DayPlanValues.fits where
  created patch today values hrequired h hvalid := by
    obtain ⟨members, rfl, -⟩ := dayPlanSpec_patched h
    refine DayPlanValues.fits_of_validate hvalid (dayPlan_beforeEnd hcrates h fun hnone => ?_)
    -- The date of the clock never stands: a create must carry its own.
    have hfield : "local_date" ∈ (dayPlanSpec env).required := by simp [dayPlanSpec]
    exact absurd hnone (requirePresentFields_eq_ok hrequired hfield)
  updated patch allowEmpty old values hfits h hvalid := by
    obtain ⟨members, rfl, -⟩ := dayPlanSpec_patched h
    simp only [DayPlanValues.fits, fitsDate, Bool.and_eq_true] at hfits
    exact DayPlanValues.fits_of_validate hvalid (dayPlan_beforeEnd hcrates h fun _ => hfits.1.2)
  stored _ h := h
  changePatch values h := by
    have hkeys : DayPlanPatch.fields.all fitsText = true := by decide
    simp only [DayPlanValues.fits, Bool.and_eq_true] at h
    refine fitsJsonb_print (show _ = DayPlanPatch.fields from rfl) hkeys ?_
    simp only [List.forall_mem_cons]
    exact ⟨jsonContainsNul_print (hcrates.uuidPrint values.taskId),
      jsonContainsNul_print (hcrates.datePrint values.localDate),
      jsonContainsNul_str (fitsText_of_fitsVarchar h.2), fun _ h => absurd h List.not_mem_nil⟩
  logged patch allowEmpty old values hdistinct h hfits := by
    have hkeys : DayPlanPatch.fields.all fitsText = true := by decide
    simp only [DayPlanValues.fits, Bool.and_eq_true] at hfits
    simp only [dayPlanSpec, parseDayPlanPatch, bind_eq_ok_iff] at h
    obtain ⟨parsed, hparsed, happly⟩ := h
    obtain ⟨members, rfl, hread⟩ := parsePatch_eq_ok hparsed
    simp only [DayPlanPatch.read, bind_eq_ok_iff] at hread
    obtain ⟨_, hdeny, taskId, htaskId, localDate, hlocalDate, rank, hrank, hresult⟩ := hread
    cases hresult
    simp only [DayPlanPatch.apply, bind_eq_ok_iff] at happly
    obtain ⟨taskId', -, localDate', -, rank', hrank', _, -, hvalues⟩ := happly
    cases hvalues
    refine fitsJsonb_obj hdeny hkeys hdistinct ?_
    simp only [DayPlanPatch.fields, List.forall_mem_cons]
    exact ⟨cleanAt_coded hcrates.uuidText htaskId, cleanAt_coded hcrates.dateText hlocalDate,
      cleanAt_requiredText hrank hrank' (fitsText_of_fitsVarchar hfits.2), fun _ h => absurd h List.not_mem_nil⟩

/-- The task after a patch, from a task whose columns hold it. -/
theorem task_fits (hcrates : env.Crates) {patch : Json} {allowEmpty : Bool}
    {old values : TaskValues} (hfits : old.fits = true)
    (h : (taskSpec env).patched patch allowEmpty old = .ok values)
    (hvalid : values.validate env = .ok ()) : values.fits = true := by
  simp only [TaskValues.fits, Bool.and_eq_true] at hfits
  obtain ⟨⟨⟨⟨⟨⟨⟨-, hdue⟩, hremind⟩, -⟩, -⟩, -⟩, -⟩, hcompleted⟩ := hfits
  simp only [taskSpec, parseTaskPatch, bind_eq_ok_iff] at h
  obtain ⟨parsed, hparsed, happly⟩ := h
  obtain ⟨members, hobject, hread⟩ := parsePatch_eq_ok hparsed
  simp only [TaskPatch.read, bind_eq_ok_iff] at hread
  obtain ⟨_, -, listId, -, title, -, note, -, status, -, important, -, tags, -, dueOn, hdueOn,
    remindAt, hremindAt, remindTimezone, -, rank, -, seriesId, -, occurrenceKey, -, recurrence, -,
    completedAt, hcompletedAt, hresult⟩ := hread
  cases hresult
  simp only [TaskPatch.apply, bind_eq_ok_iff] at happly
  obtain ⟨title', -, note', -, status', -, important', -, taken, -, tags', -, rank', -, _, -,
    hvalues⟩ := happly
  cases hvalues
  exact TaskValues.fits_of_validate hvalid
    (all_readField hdueOn (all_beforeEnd_of_fitsDate hdue) hcrates.dateEnd)
    (all_readField hremindAt (all_beforeEnd_of_fitsTimestamptz hremind) hcrates.instantEnd)
    (all_readField hcompletedAt (all_beforeEnd_of_fitsTimestamptz hcompleted) hcrates.instantEnd)

/-- A task patch is logged as it came, but for its tags. -/
theorem task_logged (hcrates : env.Crates) {patch : Json} {allowEmpty : Bool}
    {old values : TaskValues} (hdistinct : patch.Distinct)
    (h : (taskSpec env).patched patch allowEmpty old = .ok values) (hfits : values.fits = true) :
    fitsJsonb (taskPatchChange patch values) = true := by
  simp only [TaskValues.fits, Bool.and_eq_true] at hfits
  obtain ⟨⟨⟨⟨⟨⟨⟨⟨⟨⟨htitle, hnote⟩, -⟩, htags⟩, -⟩, -⟩, htimezone⟩, hrank⟩, hkey⟩, hrecurrence⟩, -⟩ := hfits
  simp only [taskSpec, parseTaskPatch, bind_eq_ok_iff] at h
  obtain ⟨parsed, hparsed, happly⟩ := h
  obtain ⟨members, rfl, hread⟩ := parsePatch_eq_ok hparsed
  simp only [TaskPatch.read, bind_eq_ok_iff] at hread
  obtain ⟨_, hdeny, listId, rlistId, title, rtitle, note, rnote, status, rstatus, important,
    rimportant, tags, rtags, dueOn, rdueOn, remindAt, rremindAt, remindTimezone, rremindTimezone,
    rank, rrank, seriesId, rseriesId, occurrenceKey, roccurrenceKey, recurrence, rrecurrence,
    completedAt, rcompletedAt, hresult⟩ := hread
  cases hresult
  simp only [TaskPatch.apply, bind_eq_ok_iff] at happly
  obtain ⟨title', atitle, note', anote, status', -, important', -, taken, -, tags', -, rank', arank,
    _, -, hvalues⟩ := happly
  cases hvalues
  have hkey' := all_fitsText_of_fitsVarchar hkey
  have hclean : ∀ field ∈ TaskPatch.fields, ¬ field = "tags" → CleanAt members field := by
    simp only [TaskPatch.fields, List.forall_mem_cons]
    exact ⟨fun _ => cleanAt_coded hcrates.uuidText rlistId,
      fun _ => cleanAt_requiredText rtitle atitle (fitsText_of_fitsVarchar htitle),
      fun _ => cleanAt_requiredText rnote anote hnote, fun _ => cleanAt_status rstatus,
      fun _ => cleanAt_bool rimportant, fun hne => absurd trivial hne,
      fun _ => cleanAt_coded hcrates.dateText rdueOn,
      fun _ => cleanAt_coded hcrates.instantText rremindAt,
      fun _ => cleanAt_text rremindTimezone htimezone,
      fun _ => cleanAt_requiredText rrank arank (fitsText_of_fitsVarchar hrank),
      fun _ => cleanAt_coded hcrates.uuidText rseriesId,
      fun _ => cleanAt_text roccurrenceKey hkey',
      fun _ => cleanAt_jsonb rrecurrence hrecurrence,
      fun _ => cleanAt_coded hcrates.instantText rcompletedAt, fun _ h => absurd h List.not_mem_nil⟩
  exact fitsJsonb_taskPatchChange hdeny hdistinct hclean htags

theorem taskTyped (hcrates : env.Crates) : TypedView (taskSpec env) TaskValues.fits where
  created _ _ _ _ h hvalid :=
    task_fits hcrates (show TaskValues.empty.fits = true by decide) h hvalid
  updated _ _ _ _ hfits h hvalid := task_fits hcrates hfits h hvalid
  stored values h := by
    simp only [taskSpec, TaskValues.stored, TaskValues.fits, Bool.and_eq_true] at h ⊢
    obtain ⟨⟨⟨⟨⟨⟨hfirst, hremind⟩, htimezone⟩, hrank⟩, hkey⟩, hrecurrence⟩, hcompleted⟩ := h
    exact ⟨⟨⟨⟨⟨⟨hfirst, all_fitsTimestamptz_stored hremind⟩, htimezone⟩, hrank⟩, hkey⟩, hrecurrence⟩,
      all_fitsTimestamptz_stored hcompleted⟩
  changePatch values h := by
    have hkeys : TaskPatch.fields.all fitsText = true := by decide
    simp only [TaskValues.fits, Bool.and_eq_true] at h
    obtain ⟨⟨⟨⟨⟨⟨⟨⟨⟨⟨htitle, hnote⟩, hstatus⟩, htags⟩, -⟩, -⟩, htimezone⟩, hrank⟩, hkey⟩, hrecurrence⟩, -⟩ := h
    refine fitsJsonb_print (show _ = TaskPatch.fields from rfl) hkeys ?_
    simp only [List.forall_mem_cons]
    refine ⟨jsonContainsNul_coded hcrates.uuidPrint,
      jsonContainsNul_str (fitsText_of_fitsVarchar htitle), jsonContainsNul_str hnote,
      jsonContainsNul_str (fitsText_of_fitsVarchar hstatus), rfl, ?_,
      jsonContainsNul_coded hcrates.datePrint, jsonContainsNul_coded hcrates.instantPrint,
      jsonContainsNul_text htimezone, jsonContainsNul_str (fitsText_of_fitsVarchar hrank),
      jsonContainsNul_coded hcrates.uuidPrint,
      jsonContainsNul_text (all_fitsText_of_fitsVarchar hkey), ?_,
      jsonContainsNul_coded hcrates.instantPrint, fun _ h => absurd h List.not_mem_nil⟩
    · rw [jsonContainsNul]
      exact itemsContainNul_strings htags
    · refine jsonContainsNul_ofOption ?_
      intro json hjson
      rw [hjson] at hrecurrence
      simpa [fitsJsonb] using hrecurrence
  logged _ _ _ _ hdistinct h hfits := task_logged hcrates hdistinct h hfits

end Crates

/-! ### Operations -/

/-- Every row of the table fits the columns. -/
def RowsFit {V : Type} (spec : EntitySpec V) (fits : V → Bool) (entities : Entities) : Prop :=
  ∀ id row, (spec.table entities).lookup id = some row → fits row.values = true

section Apply

variable {V : Type} {spec : EntitySpec V} {fits : V → Bool} {entities next : Entities}
  {userId : Uuid} {mutation : Mutation} {serverSeq : Int} {now : Instant} {logged : Json}

/-- The statement is reached through the same checks. -/
theorem EntitySpec.bound_failsWith :
    FailsWith (spec.bound entities userId mutation now)
      (spec.apply entities userId mutation serverSeq now) := by
  unfold EntitySpec.bound EntitySpec.apply
  cases mutation.kind with
  | create =>
      refine FailsWith.bind_same _ fun _ => FailsWith.bind_same _ fun _ =>
        FailsWith.bind_same _ fun values => FailsWith.bind_same _ fun _ =>
          FailsWith.bind_same _ fun _ => FailsWith.bind_same _ fun _ => ?_
      exact failsWith_ok _ _
  | patch =>
      show FailsWith _ (spec.patch entities userId mutation serverSeq now)
      unfold EntitySpec.patch
      cases spec.selectRow entities userId mutation.entityId with
      | none => exact failsWith_error _
      | some row =>
          refine FailsWith.bind_same _ fun _ => FailsWith.bind_same _ fun values =>
            FailsWith.bind_same _ fun _ => FailsWith.bind_same _ fun _ => ?_
          exact failsWith_ok _ _
  | delete => exact failsWith_ok _ _
  | restore =>
      show FailsWith _ (spec.restore entities userId mutation serverSeq now)
      unfold EntitySpec.restore
      cases spec.selectRow entities userId mutation.entityId with
      | none => exact failsWith_error _
      | some row =>
          refine FailsWith.bind_same _ fun _ => FailsWith.bind_same _ fun values =>
            FailsWith.bind_same _ fun _ => FailsWith.bind_same _ fun _ => ?_
          exact failsWith_ok _ _

/-- A statement binds only values that fit. -/
theorem TypedView.bound_fits (view : TypedView spec fits) (hrows : RowsFit spec fits entities)
    {values : V} (h : spec.bound entities userId mutation now = .ok (some values)) :
    fits values = true := by
  unfold EntitySpec.bound at h
  split at h
  · simp only [bind_eq_ok_iff, orReject_eq_ok_iff] at h
    obtain ⟨_, hrequired, _, -, found, hpatched, _, -, _, hvalid, _, -, hresult⟩ := h
    cases hresult
    exact view.created mutation.patch now.dateNaive values hrequired hpatched hvalid
  · split at h
    · cases h
    · rename_i row hselect
      have hrow := hrows mutation.entityId row (EntitySpec.selectRow_eq_some_iff.mp hselect).1
      simp only [bind_eq_ok_iff, orReject_eq_ok_iff] at h
      obtain ⟨_, -, found, hpatched, _, hvalid, _, -, hresult⟩ := h
      cases hresult
      exact view.updated mutation.patch false row.values values hrow hpatched hvalid
  · cases h
  · split at h
    · cases h
    · rename_i row hselect
      have hrow := hrows mutation.entityId row (EntitySpec.selectRow_eq_some_iff.mp hselect).1
      simp only [bind_eq_ok_iff, orReject_eq_ok_iff] at h
      obtain ⟨_, -, found, hpatched, _, hvalid, _, -, hresult⟩ := h
      cases hresult
      exact view.updated mutation.patch true row.values values hrow hpatched hvalid

/-- Over rows that fit, no statement fails for a type. -/
theorem TypedView.typedApply_eq (view : TypedView spec fits) (hrows : RowsFit spec fits entities) :
    spec.typedApply fits entities userId mutation serverSeq now =
      spec.apply entities userId mutation serverSeq now := by
  unfold EntitySpec.typedApply
  cases hbound : spec.bound entities userId mutation now with
  | error error => exact (EntitySpec.bound_failsWith error hbound).symm
  | ok values =>
      have hfits : (values.any fun values => !fits values) = false := by
        cases values with
        | none => rfl
        | some values => simp [view.bound_fits hrows hbound]
      show (refuseIf _ _ >>= fun _ => _) = _
      rw [hfits]
      rfl

/-- An applied operation writes a row that fits, and logs a `JSONB`. -/
theorem TypedView.written (view : TypedView spec fits) (hrows : RowsFit spec fits entities)
    (h : spec.apply entities userId mutation serverSeq now = .ok (logged, next)) :
    (∃ row, next = spec.write entities mutation.entityId row ∧ fits row.values = true) ∧
      (mutation.patch.Distinct → fitsJsonb logged = true) := by
  obtain ⟨row, houtcome, rfl⟩ := EntitySpec.apply_eq_ok h
  cases houtcome with
  | created values _ hrequired _ hpatched _ hvalid =>
      have hfits := view.created mutation.patch now.dateNaive values hrequired hpatched hvalid
      exact ⟨⟨_, rfl, view.stored values hfits⟩, fun _ => view.changePatch values hfits⟩
  | patched old values _ hrow _ _ hpatched hvalid =>
      have hfits := view.updated mutation.patch false old.values values
        (hrows mutation.entityId old hrow) hpatched hvalid
      exact ⟨⟨_, rfl, view.stored values hfits⟩, fun hdistinct =>
        view.logged mutation.patch false old.values values hdistinct hpatched hfits⟩
  | deleted old _ hrow => exact ⟨⟨_, rfl, hrows mutation.entityId old hrow⟩, fun _ => rfl⟩
  | restored old values _ hrow _ _ hpatched hvalid =>
      have hfits := view.updated mutation.patch true old.values values
        (hrows mutation.entityId old hrow) hpatched hvalid
      exact ⟨⟨_, rfl, view.stored values hfits⟩, fun hdistinct =>
        view.logged mutation.patch true old.values values hdistinct hpatched hfits⟩

end Apply

/-- Every row of the four tables fits the columns. -/
structure Entities.Fits (env : Env) (entities : Entities) : Prop where
  lists : RowsFit listSpec ListValues.fits entities
  tasks : RowsFit (taskSpec env) TaskValues.fits entities
  steps : RowsFit (stepSpec env) StepValues.fits entities
  dayPlans : RowsFit (dayPlanSpec env) DayPlanValues.fits entities

theorem Entities.fits_empty (env : Env) : Entities.empty.Fits env where
  lists _ _ h := by cases h
  tasks _ _ h := by cases h
  steps _ _ h := by cases h
  dayPlans _ _ h := by cases h

theorem rowsFit_insert {V : Type} {fits : V → Bool} {table : Table Uuid (EntityRow V)} {id : Uuid}
    {row : EntityRow V} (h : ∀ id row, table.lookup id = some row → fits row.values = true)
    (hrow : fits row.values = true) :
    ∀ other found, (table.insert id row).lookup other = some found → fits found.values = true := by
  intro other found hfound
  rw [Table.lookup_insert_eq_ite] at hfound
  split at hfound
  · cases hfound
    exact hrow
  · exact h other found hfound

section Mutations

variable {env : Env} {entities next : Entities} {userId : Uuid} {mutation : Mutation}
  {serverSeq : Int} {now : Instant} {logged : Json}

theorem typedApplyMutation_eq (hcrates : env.Crates) (hrows : entities.Fits env) :
    typedApplyMutation env entities userId mutation serverSeq now =
      applyMutation env entities userId mutation serverSeq now := by
  unfold typedApplyMutation applyMutation
  cases mutation.entity with
  | list => exact listTyped.typedApply_eq hrows.lists
  | task => exact (taskTyped hcrates).typedApply_eq hrows.tasks
  | step => exact (stepTyped hcrates).typedApply_eq hrows.steps
  | dayPlan => exact (dayPlanTyped hcrates).typedApply_eq hrows.dayPlans

/-- The step: the tables still fit, and the log gets a `JSONB`. -/
theorem applyMutation_fits (hcrates : env.Crates) (hrows : entities.Fits env)
    (h : applyMutation env entities userId mutation serverSeq now = .ok (logged, next)) :
    next.Fits env ∧ (mutation.patch.Distinct → fitsJsonb logged = true) := by
  unfold applyMutation at h
  split at h
  · obtain ⟨⟨row, rfl, hrow⟩, hlogged⟩ := listTyped.written hrows.lists h
    exact ⟨{ hrows with lists := rowsFit_insert hrows.lists hrow }, hlogged⟩
  · obtain ⟨⟨row, rfl, hrow⟩, hlogged⟩ := (taskTyped hcrates).written hrows.tasks h
    exact ⟨{ hrows with tasks := rowsFit_insert hrows.tasks hrow }, hlogged⟩
  · obtain ⟨⟨row, rfl, hrow⟩, hlogged⟩ := (stepTyped hcrates).written hrows.steps h
    exact ⟨{ hrows with steps := rowsFit_insert hrows.steps hrow }, hlogged⟩
  · obtain ⟨⟨row, rfl, hrow⟩, hlogged⟩ := (dayPlanTyped hcrates).written hrows.dayPlans h
    exact ⟨{ hrows with dayPlans := rowsFit_insert hrows.dayPlans hrow }, hlogged⟩

end Mutations

end ShishiTodo
