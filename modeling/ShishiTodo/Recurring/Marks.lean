import ShishiTodo.Recurring.Household
import ShishiTodo.Native.ServerResult
import ShishiTodo.Native.Members

/-!
# What a task says of its occurrence

A task has one series and one occurrence key for good, or none: its mark. A copy of the task may leave them out, in a row, in a patch, in the log or on the way, but none of them says anything else. Each operation of the store is shown to keep that.
-/

namespace ShishiTodo.Recurring

open Lib Native Sync

/-- The series and the key that the copies of a task may name. -/
structure Mark where
  series : Option Uuid
  key : Option String
  deriving DecidableEq, Repr

def Mark.blank : Mark := ⟨none, none⟩

/-- The occurrence that a mark names in full. -/
def Mark.occurrence (env : Env) (mark : Mark) : Option Occurrence := do
  let seriesId ← mark.series
  let occurrenceKey ← mark.key
  return (env.uuid.render seriesId, occurrenceKey)

/-! ### Names of members -/

section Names

variable (texts : Texts)

/-- A member that comes to `seriesId` on a device, by either table of names. -/
def SeriesName (name : String) : Prop := name = "series_id" ∨ snakeToCamel texts name = "seriesId"

/-- A member that comes to `occurrenceKey` on a device. -/
def KeyName (name : String) : Prop :=
  name = "occurrence_key" ∨ snakeToCamel texts name = "occurrenceKey"

/-- A name that comes to neither, whatever the letters become: it has no underscore, or it begins with another letter. -/
def otherName (name : String) : Bool :=
  name ≠ "seriesId" && name ≠ "occurrenceKey" && name.toList.all (· ≠ '_') ||
    name.toList.head?.any fun c => c ≠ '_' && c ≠ 's' && c ≠ 'o'

variable {texts} {name : String}

theorem camelChars_of_plain {chars : List Char} (h : ∀ c ∈ chars, c ≠ '_') :
    camelChars texts false chars = chars := by
  induction chars with
  | nil => rfl
  | cons c rest ih =>
      have hrest := ih fun other hother => h other (List.mem_cons_of_mem c hother)
      rw [camelChars, if_neg (h c List.mem_cons_self), hrest]
      rfl

theorem snakeToCamel_of_plain (h : name.toList.all (· ≠ '_') = true) :
    snakeToCamel texts name = name := by
  have hplain : ∀ c ∈ name.toList, c ≠ '_' := fun c hc => of_decide_eq_true (List.all_eq_true.mp h c hc)
  rw [snakeToCamel, camelChars_of_plain hplain, String.ofList_toList]

theorem head_snakeToCamel (texts : Texts) (name : String) {c : Char} (hhead : name.toList.head? = some c) (hc : c ≠ '_') :
    (snakeToCamel texts name).toList.head? = some c := by
  rw [snakeToCamel, String.toList_ofList]
  cases hchars : name.toList with
  | nil =>
      rw [hchars] at hhead
      cases hhead
  | cons first rest =>
      rw [hchars] at hhead
      cases hhead
      rw [camelChars, if_neg hc]
      rfl

theorem snakeToCamel_ne_of_otherName (h : otherName name = true) :
    snakeToCamel texts name ≠ "seriesId" ∧ snakeToCamel texts name ≠ "occurrenceKey" := by
  rw [otherName, Bool.or_eq_true] at h
  rcases h with hplain | hletter
  · simp only [Bool.and_eq_true, decide_eq_true_eq] at hplain
    obtain ⟨⟨hseries, hkey⟩, hplain⟩ := hplain
    rw [snakeToCamel_of_plain hplain]
    exact ⟨hseries, hkey⟩
  · obtain ⟨c, hhead, hc⟩ := (Option.any_eq_true _ _).mp hletter
    simp only [Bool.and_eq_true, decide_eq_true_eq] at hc
    obtain ⟨⟨hplain, hs⟩, ho⟩ := hc
    have hcamel := head_snakeToCamel texts name hhead hplain
    refine ⟨fun heq => hs ?_, fun heq => ho ?_⟩
    · rw [heq] at hcamel
      exact (Option.some.inj hcamel).symm
    · rw [heq] at hcamel
      exact (Option.some.inj hcamel).symm

theorem not_seriesName (h : otherName name = true) : ¬ SeriesName texts name := by
  rintro (rfl | hcamel)
  · revert h
    decide
  · exact (snakeToCamel_ne_of_otherName h).1 hcamel

theorem not_keyName (h : otherName name = true) : ¬ KeyName texts name := by
  rintro (rfl | hcamel)
  · revert h
    decide
  · exact (snakeToCamel_ne_of_otherName h).2 hcamel

theorem seriesName_seriesId : SeriesName texts "seriesId" :=
  .inr (snakeToCamel_of_plain (by decide))

theorem keyName_occurrenceKey : KeyName texts "occurrenceKey" :=
  .inr (snakeToCamel_of_plain (by decide))

theorem not_keyName_seriesId : ¬ KeyName texts "seriesId" := by
  rintro (heq | hcamel)
  · revert heq
    decide
  · rw [snakeToCamel_of_plain (by decide)] at hcamel
    revert hcamel
    decide

theorem not_seriesName_occurrenceKey : ¬ SeriesName texts "occurrenceKey" := by
  rintro (heq | hcamel)
  · revert heq
    decide
  · rw [snakeToCamel_of_plain (by decide)] at hcamel
    revert hcamel
    decide

theorem not_keyName_series_id : ¬ KeyName texts "series_id" := by
  have hhead := head_snakeToCamel texts "series_id" rfl (by decide)
  rintro (heq | hcamel)
  · revert heq
    decide
  · rw [hcamel] at hhead
    revert hhead
    decide

theorem not_seriesName_occurrence_key : ¬ SeriesName texts "occurrence_key" := by
  have hhead := head_snakeToCamel texts "occurrence_key" rfl (by decide)
  rintro (heq | hcamel)
  · revert heq
    decide
  · rw [hcamel] at hhead
    revert hhead
    decide

end Names

/-! ### Members and rows -/

section Members

/-- Which members are about the series, and which about the key. -/
structure Names where
  series : String → Prop
  key : String → Prop

/-- The members of a patch that may yet be renamed. -/
def wire (texts : Texts) : Names := ⟨SeriesName texts, KeyName texts⟩

/-- The members that a row is read from. -/
def columns : Names := ⟨fun name => name = "seriesId", fun name => name = "occurrenceKey"⟩

variable (env : Env) (names : Names) (mark : Mark)

/-- The member says of the occurrence what the mark does, if it says anything. -/
structure Fits (name : String) (value : Json) : Prop where
  series : names.series name → ∀ text, value = .str text → mark.series.map env.uuid.render = some text
  key : names.key name → ∀ text, value = .str text → mark.key = some text

/-- Every member of the data does. -/
def Bears (data : Data) : Prop := ∀ member ∈ data, Fits env names mark member.1 member.2

/-- The columns of a row say what the mark does, or nothing. -/
structure RowBears (task : Task) : Prop where
  series : ∀ text, task.seriesId = some text → mark.series.map env.uuid.render = some text
  key : ∀ text, task.occurrenceKey = some text → mark.key = some text

variable {env names mark} {texts : Texts} {name : String} {value : Json} {data : Data}

theorem fits_of_otherName (h : otherName name = true) (value : Json) :
    Fits env (wire texts) mark name value where
  series hname := absurd hname (not_seriesName h)
  key hname := absurd hname (not_keyName h)

/-- Only a text says anything. -/
theorem fits_of_not_str (h : ∀ text, value ≠ .str text) : Fits env names mark name value where
  series _ text htext := absurd htext (h text)
  key _ text htext := absurd htext (h text)

theorem bears_of_otherNames (h : ∀ member ∈ data, otherName member.1 = true) :
    Bears env (wire texts) mark data :=
  fun member hmember => fits_of_otherName (h member hmember) member.2

theorem Bears.put (h : Bears env names mark data) (hvalue : Fits env names mark name value) :
    Bears env names mark (Json.putMember name value data) :=
  Each.put h hvalue

theorem Bears.lookup (h : Bears env names mark data) (hlookup : data.lookup name = some value) :
    Fits env names mark name value :=
  Each.lookup h hlookup

theorem bears_nil : Bears env names mark [] := each_nil

theorem Bears.merge {patch : Data} (hpatch : Bears env names mark patch) (h : Bears env names mark data) :
    Bears env names mark (mergeData patch data) :=
  Each.merge hpatch h

/-- Renaming, when the names that become those of the occurrence were about it before. -/
theorem Bears.rename {rename : String → String}
    (hseries : ∀ name, SeriesName texts (rename name) → SeriesName texts name)
    (hkey : ∀ name, KeyName texts (rename name) → KeyName texts name)
    (h : Bears env (wire texts) mark data) : Bears env (wire texts) mark (mapPatchKeys rename data) := by
  rw [mapPatchKeys]
  refine Each.foldl_put each_nil fun member hmember => ?_
  have hfits := h member hmember
  exact ⟨fun hname => hfits.series (hseries _ hname), fun hname => hfits.key (hkey _ hname)⟩

theorem Fits.columns (h : Fits env (wire texts) mark name value) : Fits env columns mark name value where
  series hname := h.series (hname ▸ seriesName_seriesId)
  key hname := h.key (hname ▸ keyName_occurrenceKey)

theorem Bears.columns (h : Bears env (wire texts) mark data) : Bears env columns mark data :=
  fun member hmember => (h member hmember).columns

/-- A blank mark leaves nothing to say, so that a mark given later contradicts nothing. -/
theorem Fits.of_blank {other : Mark} (h : Fits env names .blank name value) :
    Fits env names other name value where
  series hname text htext := by
    have hnone := h.series hname text htext
    cases hnone
  key hname text htext := by
    have hnone := h.key hname text htext
    cases hnone

theorem RowBears.of_blank {other : Mark} {task : Task} (h : RowBears env .blank task) :
    RowBears env other task where
  series text htext := by
    have hnone := h.series text htext
    cases hnone
  key text htext := by
    have hnone := h.key text htext
    cases hnone

/-- The row carries the occurrence of its mark. -/
theorem RowBears.occurrence {task : Task} {shared : Occurrence} (h : RowBears env mark task)
    (hshared : occurrence task = some shared) : mark.occurrence env = some shared := by
  obtain ⟨seriesId, hseries, hrest⟩ := Option.bind_eq_some_iff.mp hshared
  obtain ⟨occurrenceKey, hkey, hpair⟩ := Option.bind_eq_some_iff.mp hrest
  obtain ⟨series, hmark, hrender⟩ := Option.map_eq_some_iff.mp (h.series _ hseries)
  rw [Mark.occurrence, hmark, h.key _ hkey]
  rw [← hrender] at hpair
  exact hpair

/-! ### Reading and writing data -/

theorem textJson_eq_str {text : Option String} {spelled : String} (h : textJson text = .str spelled) :
    text = some spelled := by
  cases text with
  | none => cases h
  | some text =>
      cases h
      rfl

theorem RowBears.bears {task : Task} (h : RowBears env mark task) :
    Bears env (wire texts) mark task.data := by
  have hseries : Fits env (wire texts) mark "seriesId" (textJson task.seriesId) :=
    ⟨fun _ text htext => h.series text (textJson_eq_str htext),
      fun hname => absurd hname not_keyName_seriesId⟩
  have hkey : Fits env (wire texts) mark "occurrenceKey" (textJson task.occurrenceKey) :=
    ⟨fun hname => absurd hname not_seriesName_occurrenceKey,
      fun _ text htext => h.key text (textJson_eq_str htext)⟩
  intro member hmember
  by_cases hother : otherName member.1 = true
  · exact fits_of_otherName hother member.2
  · simp only [Task.data, List.mem_cons, List.not_mem_nil, or_false] at hmember
    rcases hmember with rfl | rfl | rfl | rfl | rfl | rfl | rfl | rfl | rfl | rfl | rfl | rfl | rfl |
      rfl | rfl | rfl | rfl | rfl
    case inr.inr.inr.inr.inr.inr.inr.inr.inr.inr.inr.inl => exact hseries
    case inr.inr.inr.inr.inr.inr.inr.inr.inr.inr.inr.inr.inl => exact hkey
    all_goals
      exact absurd (by dsimp only; decide) hother

theorem nullableString_eq_some {text : String} (h : nullableString data name = some text) :
    data.lookup name = some (.str text) := by
  obtain ⟨hfield, -⟩ := Option.filter_eq_some_iff.mp h
  obtain ⟨value, hlookup, hstr⟩ := Option.bind_eq_some_iff.mp hfield
  cases value <;> cases hstr
  exact hlookup

theorem rowBears_taskFromData {id now : String} (h : Bears env columns mark data) :
    RowBears env mark (taskFromData texts id data now) where
  series text htext := (h.lookup (nullableString_eq_some htext)).series rfl text rfl
  key text htext := (h.lookup (nullableString_eq_some htext)).key rfl text rfl

theorem optionalTextValue_eq_some {value : Option Json} {text : String}
    (h : optionalTextValue value = .ok (some text)) : value = some (.str text) := by
  cases value with
  | none => cases h
  | some value =>
      cases value <;> cases h
      rfl

theorem rowBears_createdTask {id now : String} {task : Task} (h : Bears env columns mark data)
    (hcreated : createdTask id data now = .ok task) : RowBears env mark task := by
  simp only [createdTask, bind_eq_ok_iff] at hcreated
  obtain ⟨_, -, _, -, _, -, seriesId, hseries, occurrenceKey, hkey, _, -, _, -, _, -, htask⟩ := hcreated
  cases htask
  constructor
  · intro text htext
    cases htext
    exact (h.lookup (optionalTextValue_eq_some hseries)).series rfl text rfl
  · intro text htext
    cases htext
    exact (h.lookup (optionalTextValue_eq_some hkey)).key rfl text rfl

/-- A column that is set to a text was given that text. -/
theorem mem_serverAssignments {entity : EntityType} {patch : Data} {assignments : List (String × SqlValue)}
    (h : serverAssignments entity patch = .ok assignments) {text : String}
    (hmem : (name, .text text) ∈ assignments) : (name, .str text) ∈ patch := by
  induction patch generalizing assignments with
  | nil =>
      cases h
      cases hmem
  | cons member rest ih =>
      obtain ⟨field, value⟩ := member
      rw [serverAssignments] at h
      split at h
      · exact List.mem_cons_of_mem _ (ih h hmem)
      · rename_i kind _
        obtain ⟨sql, hsql, h⟩ := bind_eq_ok_iff.mp h
        obtain ⟨later, hlater, h⟩ := bind_eq_ok_iff.mp h
        cases h
        rcases List.mem_cons.mp hmem with heq | hrest
        · cases heq
          have hstr : value = .str text := by
            cases kind with
            | text =>
                obtain ⟨found, hfound, helim⟩ := map_eq_ok_iff.mp hsql
                cases found with
                | none => cases helim
                | some spelled =>
                    cases helim
                    exact Option.some.inj (optionalTextValue_eq_some hfound)
            | bool => cases hbool : boolValue (some value) <;> rw [sqlValue, hbool] at hsql <;> cases hsql
            | json =>
                rw [sqlValue] at hsql
                split at hsql <;> cases hsql
          exact hstr ▸ List.mem_cons_self
        · exact List.mem_cons_of_mem _ (ih hlater hrest)

/-- Setting a column keeps the row true to its mark. -/
theorem RowBears.set {task next : Task} {assignment : String × SqlValue} (h : RowBears env mark task)
    (hassignment : ∀ text, assignment.2 = .text text → Fits env columns mark assignment.1 (.str text))
    (hset : Native.setTask task assignment = .ok next) : RowBears env mark next ∧ next.id = task.id := by
  have htext : ∀ {value : SqlValue} {text : String}, nullableText value = some text →
      value = .text text := by
    intro value text hvalue
    cases value <;> cases hvalue
    rfl
  unfold Native.setTask at hset
  split at hset
  case h_11 value =>
    cases hset
    exact ⟨⟨fun text hsome => (hassignment text (htext hsome)).series rfl text rfl,
      h.key⟩, rfl⟩
  case h_12 value =>
    cases hset
    exact ⟨⟨h.series, fun text hsome =>
      (hassignment text (htext hsome)).key rfl text rfl⟩, rfl⟩
  all_goals
    first
    | (cases hset; exact ⟨⟨h.series, h.key⟩, rfl⟩)
    | (obtain ⟨_, -, hset⟩ := bind_eq_ok_iff.mp hset; cases hset; exact ⟨⟨h.series, h.key⟩, rfl⟩)

end Members

end ShishiTodo.Recurring
