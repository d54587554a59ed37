import ShishiTodo.JsText
import ShishiTodo.Lib.Chars
import ShishiTodo.Lib.Firsts
import ShishiTodo.Lib.Runs
import ShishiTodo.Recurring.Dates

/-!
# The text fields of a task

The web takes a title, a note and tags through a chain of replacements and cuts. A tag that came out of the chain comes out of it unchanged: nothing in it is left to joinRuns, to strip or to cut. The list of tags holds the first of all that differ in case alone, twenty at most.
-/

namespace ShishiTodo.Tasks

open Lib Recurring

def MAX_TITLE_LENGTH : Nat := 1000
def MAX_NOTE_LENGTH : Nat := 20000
def MAX_TAGS : Nat := 20
def MAX_TAG_LENGTH : Nat := 32

/-- `[\r\n\t]`. -/
def isControl (unit : Nat) : Bool := unit == 0x0D || unit == 0x0A || unit == 0x09

def cleanSingleLine (value : JsText) : JsText :=
  (JsText.trim (joinRuns JsText.isSpace 2 0x20 (joinRuns isControl 1 0x20 value))).take MAX_TITLE_LENGTH

/-- `.replace(/\r\n/g, '\n')`. -/
def withoutReturns : JsText → JsText
  | [] => []
  | unit :: rest =>
    if unit = 0x0D ∧ rest.head? = some 0x0A then withoutReturns rest else unit :: withoutReturns rest

def cleanNote (value : JsText) : JsText := (withoutReturns value).take MAX_NOTE_LENGTH

def assertTitle (title : JsText) : Thrown JsText :=
  let cleaned := cleanSingleLine title
  if cleaned = [] then .error ⟨"VALIDATION_FAILED", "任务标题不能为空"⟩ else .ok cleaned

def isHashOrSpace (unit : Nat) : Bool := unit == 0x23 || JsText.isSpace unit

/-- `.replace(/^(?:#+\s*)+/, '')`. -/
def withoutHashes (text : JsText) : JsText :=
  if text.head? = some 0x23 then text.dropWhile isHashOrSpace else text

def cleanTag (raw : JsText) : JsText :=
  JsText.trim ((JsText.trim (withoutHashes (cleanSingleLine raw))).take MAX_TAG_LENGTH)

section

variable (toLowerCase : JsText → JsText)

def normalizeTagsFrom : List JsText → List JsText → List JsText → List JsText
  | [], _, result => result
  | raw :: rest, seen, result =>
    let tag := cleanTag raw
    if tag = [] then normalizeTagsFrom rest seen result
    else
      let key := toLowerCase tag
      if key ∈ seen then normalizeTagsFrom rest seen result
      else
        let result := result ++ [tag]
        if MAX_TAGS ≤ result.length then result else normalizeTagsFrom rest (seen ++ [key]) result

def normalizeTags (tags : Option (List JsText)) : List JsText :=
  normalizeTagsFrom toLowerCase (tags.getD []) [] []

end

/-! ### One tag -/

/-- A text that the first four passes have nothing to do in. -/
structure SingleLine (text : JsText) : Prop where
  plain : ∀ unit ∈ text, isControl unit = false
  parted : Parted JsText.isSpace text

namespace SingleLine

theorem part {text part : JsText} (h : SingleLine text) (hpart : part <:+: text) : SingleLine part :=
  ⟨fun unit hunit => h.plain unit (hpart.subset hunit), h.parted.part hpart⟩

end SingleLine

theorem trim_part (text : JsText) : JsText.trim text <:+: text :=
  (List.rdropWhile_prefix _ _).isInfix.trans (List.dropWhile_suffix _).isInfix

theorem trim_of_begins {text : JsText} (hbegins : text.dropWhile JsText.isSpace = text) :
    JsText.trim text = text.rdropWhile JsText.isSpace := by
  rw [JsText.trim, hbegins]

theorem trim_trim (text : JsText) : JsText.trim (JsText.trim text) = JsText.trim text :=
  stripped_stripped _ _

theorem singleLine_cleanSingleLine (value : JsText) : SingleLine (cleanSingleLine value) := by
  have hjoined : SingleLine (joinRuns JsText.isSpace 2 0x20 (joinRuns isControl 1 0x20 value)) := by
    refine ⟨fun unit hunit => ?_, parted_joinRuns⟩
    rcases mem_joinRuns hunit with rfl | hunit
    · rfl
    · rcases mem_joinRuns_one hunit with rfl | hplain
      · rfl
      · exact hplain
  exact (hjoined.part (trim_part _)).part (List.take_prefix _ _).isInfix

theorem cleanSingleLine_begins (value : JsText) :
    (cleanSingleLine value).dropWhile JsText.isSpace = cleanSingleLine value :=
  dropWhile_of_begins (List.take_prefix _ _) (dropWhile_stripped _ _)

theorem cleanSingleLine_of_singleLine {text : JsText} (h : SingleLine text) (htrim : JsText.trim text = text)
    (hlength : text.length ≤ MAX_TITLE_LENGTH) : cleanSingleLine text = text := by
  rw [cleanSingleLine, joinRuns_one_of_clear h.plain, joinRuns_two_of_parted h.parted, htrim,
    List.take_of_length_le hlength]

theorem withoutHashes_suffix (text : JsText) : withoutHashes text <:+ text := by
  unfold withoutHashes
  split
  · exact List.dropWhile_suffix _
  · exact List.suffix_rfl

/-- Neither a hash nor white space stands first in what is left. -/
theorem withoutHashes_begins {text : JsText} (hbegins : text.dropWhile JsText.isSpace = text) :
    (withoutHashes text).dropWhile isHashOrSpace = withoutHashes text := by
  unfold withoutHashes
  split
  · exact List.dropWhile_idempotent _ _
  · rename_i hhead
    rw [List.dropWhile_eq_self_iff] at hbegins ⊢
    intro hsome hfirst
    have hspace := hbegins hsome
    rw [List.head?_eq_getElem?, List.getElem?_eq_getElem hsome] at hhead
    simp only [isHashOrSpace, Bool.or_eq_true, beq_iff_eq] at hfirst
    rcases hfirst with hhash | hfirst
    · exact hhead (congrArg some hhash)
    · exact hspace hfirst

theorem begins_of_isHashOrSpace {text : JsText} (h : text.dropWhile isHashOrSpace = text) :
    text.dropWhile JsText.isSpace = text := by
  rw [List.dropWhile_eq_self_iff] at h ⊢
  intro hsome hfirst
  exact h hsome (by simp [isHashOrSpace, hfirst])

theorem withoutHashes_of_begins {text : JsText} (h : text.dropWhile isHashOrSpace = text) :
    withoutHashes text = text := by
  unfold withoutHashes
  split
  · exact h
  · rfl

/-- Once its hashes are gone a tag is only cut at its end. -/
theorem cleanTag_cut (raw : JsText) : cleanTag raw <+: withoutHashes (cleanSingleLine raw) := by
  have hbegins := begins_of_isHashOrSpace (withoutHashes_begins (cleanSingleLine_begins raw))
  have hfirst := List.rdropWhile_prefix JsText.isSpace (withoutHashes (cleanSingleLine raw))
  have hcut := (List.take_prefix MAX_TAG_LENGTH _).trans hfirst
  rw [cleanTag, trim_of_begins hbegins, trim_of_begins (dropWhile_of_begins hcut hbegins)]
  exact (List.rdropWhile_prefix _ _).trans hcut

/-- What a kept tag is like. -/
structure CleanTag (tag : JsText) : Prop where
  singleLine : SingleLine tag
  begins : tag.dropWhile isHashOrSpace = tag
  trimmed : JsText.trim tag = tag
  bounded : tag.length ≤ MAX_TAG_LENGTH

theorem cleanTag_clean (raw : JsText) : CleanTag (cleanTag raw) where
  singleLine :=
    (singleLine_cleanSingleLine raw).part
      ((cleanTag_cut raw).isInfix.trans (withoutHashes_suffix _).isInfix)
  begins := dropWhile_of_begins (cleanTag_cut raw) (withoutHashes_begins (cleanSingleLine_begins raw))
  trimmed := trim_trim _
  bounded := (trim_part _).length_le.trans (List.length_take_le _ _)

theorem CleanTag.fixed {tag : JsText} (h : CleanTag tag) : cleanTag tag = tag := by
  have hshort : tag.length ≤ MAX_TITLE_LENGTH := h.bounded.trans (by decide)
  rw [cleanTag, cleanSingleLine_of_singleLine h.singleLine h.trimmed hshort,
    withoutHashes_of_begins h.begins, h.trimmed, List.take_of_length_le h.bounded, h.trimmed]

theorem CleanTag.head_ne_hash {tag : JsText} (h : CleanTag tag) : tag.head? ≠ some 0x23 := by
  intro hhash
  cases tag with
  | nil => cases hhash
  | cons first rest =>
    obtain rfl : first = 0x23 := Option.some.inj hhash
    have hshorter := congrArg List.length h.begins
    rw [List.dropWhile_cons_of_pos rfl] at hshorter
    have := List.length_dropWhile_le isHashOrSpace rest
    simp only [List.length_cons] at hshorter
    omega

/-! ### The list of tags -/

section

variable {toLowerCase : JsText → JsText}

/-- The tags that the list is taken from. -/
def cleanTags (tags : List JsText) : List JsText := (tags.map cleanTag).filter (· ≠ [])

theorem cleanTags_cons (raw : JsText) (rest : List JsText) :
    cleanTags (raw :: rest) = if cleanTag raw = [] then cleanTags rest else cleanTag raw :: cleanTags rest := by
  by_cases hnone : cleanTag raw = [] <;> simp [cleanTags, hnone]

theorem normalizeTagsFrom_eq {tags seen result : List JsText} (hroom : result.length < MAX_TAGS) :
    normalizeTagsFrom toLowerCase tags seen result =
      (result ++ firstsOutside toLowerCase seen (cleanTags tags)).take MAX_TAGS := by
  induction tags generalizing seen result with
  | nil =>
    simp only [normalizeTagsFrom, cleanTags, List.map_nil, List.filter_nil, firstsOutside, firstsBy,
      List.eraseDupsBy_nil, List.append_nil]
    rw [List.take_of_length_le hroom.le]
  | cons raw rest ih =>
    rw [normalizeTagsFrom, cleanTags_cons]
    by_cases hnone : cleanTag raw = []
    · rw [if_pos hnone, if_pos hnone, ih hroom]
    · rw [if_neg hnone, if_neg hnone]
      by_cases hseen : toLowerCase (cleanTag raw) ∈ seen
      · rw [if_pos hseen, firstsOutside_cons_seen hseen, ih hroom]
      · rw [if_neg hseen, firstsOutside_cons_new hseen, List.append_cons _ _ (firstsOutside _ _ _)]
        dsimp only
        by_cases hfull : MAX_TAGS ≤ (result ++ [cleanTag raw]).length
        · have hexact : MAX_TAGS = (result ++ [cleanTag raw]).length := by
            simp only [List.length_append, List.length_singleton] at hfull ⊢
            omega
          rw [if_pos hfull, hexact, List.take_left]
        · rw [if_neg hfull, ih (by omega)]

/-- The list holds the first of all tags that differ in case alone, until it is full. -/
theorem normalizeTags_eq (tags : Option (List JsText)) :
    normalizeTags toLowerCase tags = (firstsBy toLowerCase (cleanTags (tags.getD []))).take MAX_TAGS := by
  rw [normalizeTags, normalizeTagsFrom_eq (by decide), firstsOutside_nil, List.nil_append]

theorem cleanTags_of_clean {tags : List JsText} (hclean : ∀ tag ∈ tags, CleanTag tag)
    (hsome : ∀ tag ∈ tags, tag ≠ []) : cleanTags tags = tags := by
  have hfixed : tags.map cleanTag = tags :=
    List.map_congr_left (fun tag htag => (hclean tag htag).fixed) |>.trans (List.map_id _)
  rw [cleanTags, hfixed, List.filter_eq_self]
  intro tag htag
  exact decide_eq_true (hsome tag htag)

theorem mem_cleanTags {tags : List JsText} {tag : JsText} (h : tag ∈ cleanTags tags) :
    CleanTag tag ∧ tag ≠ [] := by
  obtain ⟨hmem, hsome⟩ := List.mem_filter.mp h
  obtain ⟨raw, -, rfl⟩ := List.mem_map.mp hmem
  exact ⟨cleanTag_clean raw, of_decide_eq_true hsome⟩

theorem mem_normalizeTags {tags : Option (List JsText)} {tag : JsText}
    (h : tag ∈ normalizeTags toLowerCase tags) : CleanTag tag ∧ tag ≠ [] := by
  rw [normalizeTags_eq] at h
  exact mem_cleanTags (mem_of_mem_firstsBy (List.mem_of_mem_take h))

theorem nodup_keys_normalizeTags (tags : Option (List JsText)) :
    ((normalizeTags toLowerCase tags).map toLowerCase).Nodup := by
  rw [normalizeTags_eq, List.map_take]
  exact nodup_keys_firstsBy.sublist (List.take_sublist _ _)

theorem length_normalizeTags_le (tags : Option (List JsText)) :
    (normalizeTags toLowerCase tags).length ≤ MAX_TAGS := by
  rw [normalizeTags_eq]
  exact List.length_take_le _ _

theorem normalizeTags_idempotent (tags : Option (List JsText)) :
    normalizeTags toLowerCase (some (normalizeTags toLowerCase tags)) = normalizeTags toLowerCase tags := by
  rw [normalizeTags_eq (some _), Option.getD_some,
    cleanTags_of_clean (fun tag htag => (mem_normalizeTags htag).1) fun tag htag => (mem_normalizeTags htag).2,
    firstsBy_of_nodup (nodup_keys_normalizeTags tags),
    List.take_of_length_le (length_normalizeTags_le tags)]

end

/-- The tags of a task, once normalized, stay as they are; they are a bounded list of bounded tags, each stripped and the first of all that differ from it in case alone. -/
theorem tags_normalized (toLowerCase : JsText → JsText) (tags : Option (List JsText)) :
    normalizeTags toLowerCase (some (normalizeTags toLowerCase tags)) = normalizeTags toLowerCase tags ∧
      (normalizeTags toLowerCase tags).length ≤ 20 ∧
      (∀ tag ∈ normalizeTags toLowerCase tags,
        tag ≠ [] ∧ tag.length ≤ 32 ∧ tag.head? ≠ some 0x23 ∧ JsText.trim tag = tag) ∧
      ((normalizeTags toLowerCase tags).map toLowerCase).Nodup ∧
      normalizeTags toLowerCase tags = (firstsBy toLowerCase (cleanTags (tags.getD []))).take 20 := by
  refine ⟨normalizeTags_idempotent tags, length_normalizeTags_le tags, fun tag htag => ?_,
    nodup_keys_normalizeTags tags, normalizeTags_eq tags⟩
  obtain ⟨hclean, hsome⟩ := mem_normalizeTags htag
  exact ⟨hsome, hclean.bounded, hclean.head_ne_hash, hclean.trimmed⟩

end ShishiTodo.Tasks
