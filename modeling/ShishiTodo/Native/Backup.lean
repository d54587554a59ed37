import ShishiTodo.Native.Bundles
import ShishiTodo.Native.Merge
import ShishiTodo.Lib.Chars
import Mathlib.Data.List.SplitBy
import Mathlib.Logic.Equiv.List

/-!
# Export and import of a whole store

What `export_data` hands out is taken by `import_data` over an empty store exactly when the rows would pass the checks of an import as they are: the names and titles are not blank, and the tags are normal already. Most operations see to it; the task that follows a completed one comes with tags that nothing looks at.
-/

namespace ShishiTodo.Native

open Lib

/-! ### Blank texts -/

def Blank (text : String) : Prop := ∀ c ∈ text.toList, isWhitespace c = true

instance (text : String) : Decidable (Blank text) :=
  decidable_of_iff (text.toList.all isWhitespace = true) List.all_eq_true

theorem trimChars_eq_nil_iff (chars : List Char) : trimChars chars = [] ↔ ∀ c ∈ chars, isWhitespace c = true := by
  rw [trimChars, List.reverse_eq_nil_iff, List.dropWhile_eq_nil_iff]
  constructor
  · intro h c hc
    rw [← List.takeWhile_append_dropWhile (p := isWhitespace) (l := chars), List.mem_append] at hc
    rcases hc with htaken | hdropped
    · exact List.mem_takeWhile_imp htaken
    · exact h c (List.mem_reverse.mpr hdropped)
  · intro h c hc
    exact h c ((List.dropWhile_sublist _).subset (List.mem_reverse.mp hc))

theorem trim_isEmpty_iff (text : String) : (trim text).isEmpty = true ↔ Blank text := by
  rw [String.isEmpty_iff, trim, Blank, ← trimChars_eq_nil_iff]
  exact String.ofList_eq_empty_iff

/-- Splitting leaves words unless every character splits. -/
theorem splitOnP_words_eq_nil_iff (chars : List Char) :
    ((chars.splitOnP isWhitespace).filter fun word => !word.isEmpty) = [] ↔
      ∀ c ∈ chars, isWhitespace c = true := by
  induction chars with
  | nil => simp
  | cons c rest ih =>
      rw [List.splitOnP_cons_eq_if_modifyHead]
      by_cases hc : isWhitespace c = true
      · rw [if_pos hc]
        simpa [hc] using ih
      · rw [if_neg hc]
        obtain ⟨word, words, hsplit⟩ := List.exists_cons_of_ne_nil (List.splitOnP_ne_nil isWhitespace rest)
        rw [hsplit]
        simp [hc]

theorem intercalate_eq_nil_iff {words : List (List Char)} (h : ∀ word ∈ words, word ≠ []) :
    List.intercalate [' '] words = [] ↔ words = [] := by
  cases words with
  | nil => exact iff_of_true rfl rfl
  | cons word rest =>
      refine iff_of_false (fun hnil => h word List.mem_cons_self ?_) (List.cons_ne_nil word rest)
      cases rest with
      | nil => simpa [List.intercalate] using hnil
      | cons other others =>
          rw [List.intercalate_cons_cons, List.append_eq_nil_iff, List.append_eq_nil_iff] at hnil
          exact hnil.1.1

/-- Nothing is left of a text exactly when it is blank. -/
theorem cleanSingleLine_isEmpty_iff (value : String) {maxChars : Nat} (hmax : 0 < maxChars) :
    (cleanSingleLine value maxChars).isEmpty = true ↔ Blank value := by
  have hword : ∀ chars : List Char, ∀ word ∈ (chars.splitOnP isWhitespace).filter fun word => !word.isEmpty,
      word ≠ [] := by
    intro chars word hmem hnil
    have hkept := (List.mem_filter.mp hmem).2
    rw [hnil] at hkept
    cases hkept
  have hspace : ∀ c : Char, isWhitespace (if c == '\r' || c == '\n' || c == '\t' then ' ' else c) = isWhitespace c := by
    intro c
    split
    · rename_i hbreak
      simp only [Bool.or_eq_true, beq_iff_eq] at hbreak
      rcases hbreak with (rfl | rfl) | rfl <;> rfl
    · rfl
  rw [String.isEmpty_iff, cleanSingleLine, Blank]
  rw [String.ofList_eq_empty_iff, List.take_eq_nil_iff, or_iff_right (by omega),
    intercalate_eq_nil_iff (hword _), splitOnP_words_eq_nil_iff]
  simp only [List.forall_mem_map, hspace]

/-- No word has a character that splits. -/
theorem not_split_of_mem_word (test : Char → Bool) (chars : List Char) :
    ∀ word ∈ chars.splitOnP test, ∀ c ∈ word, test c = false := by
  induction chars with
  | nil => simp
  | cons c rest ih =>
      rw [List.splitOnP_cons_eq_if_modifyHead]
      by_cases hc : test c = true
      · rw [if_pos hc]
        simpa using ih
      · rw [if_neg hc]
        obtain ⟨word, words, hsplit⟩ := List.exists_cons_of_ne_nil (List.splitOnP_ne_nil test rest)
        rw [hsplit] at ih ⊢
        rw [List.modifyHead_cons, List.forall_mem_cons]
        refine ⟨List.forall_mem_cons.mpr ⟨Bool.eq_false_iff.mpr hc, ih word List.mem_cons_self⟩, ?_⟩
        exact fun later hlater => ih later (List.mem_cons_of_mem word hlater)

/-- What is left of a text begins with a word. -/
theorem not_blank_cleanSingleLine {value : String} {maxChars : Nat}
    (h : ¬ (cleanSingleLine value maxChars).isEmpty = true) : ¬ Blank (cleanSingleLine value maxChars) := by
  rw [String.isEmpty_iff, cleanSingleLine, String.ofList_eq_empty_iff, List.take_eq_nil_iff, not_or] at h
  obtain ⟨hmax, hfilled⟩ := h
  rw [cleanSingleLine, Blank, String.toList_ofList]
  have hchars := not_split_of_mem_word isWhitespace
    (value.toList.map fun c => if c == '\r' || c == '\n' || c == '\t' then ' ' else c)
  generalize List.splitOnP isWhitespace _ = words at hchars hfilled
  cases hwords : words.filter fun word => !word.isEmpty with
  | nil =>
      rw [hwords] at hfilled
      exact absurd rfl hfilled
  | cons word rest =>
      obtain ⟨hmem, hsome⟩ := List.mem_filter.mp (hwords ▸ List.mem_cons_self : word ∈ words.filter _)
      have hword : word ≠ [] := by
        rintro rfl
        cases hsome
      obtain ⟨c, others, rfl⟩ := List.exists_cons_of_ne_nil hword
      obtain ⟨later, hjoined⟩ : ∃ later, List.intercalate [' '] ((c :: others) :: rest) = c :: later := by
        cases rest with
        | nil => exact ⟨others, by simp [List.intercalate]⟩
        | cons other rest => exact ⟨_, by rw [List.intercalate_cons_cons]; rfl⟩
      obtain ⟨size, hsize⟩ := Nat.exists_eq_succ_of_ne_zero hmax
      intro hblank
      rw [hjoined, hsize, List.take_succ_cons] at hblank
      have hspace := hblank c List.mem_cons_self
      rw [hchars _ hmem c List.mem_cons_self] at hspace
      cases hspace

theorem cleanTitle_succeeds_iff {value : String} : (∃ title, cleanTitle value = .ok title) ↔ ¬ Blank value := by
  rw [← cleanSingleLine_isEmpty_iff value (show 0 < 1000 by decide), cleanTitle]
  by_cases hblank : (cleanSingleLine value 1000).isEmpty = true <;> simp [refuseIf, hblank, bind, Except.bind, pure, Except.pure]

theorem cleanListName_succeeds_iff {value : String} :
    (∃ name, cleanListName value = .ok name) ↔ ¬ Blank value := by
  rw [← cleanSingleLine_isEmpty_iff value (show 0 < 120 by decide), cleanListName]
  by_cases hblank : (cleanSingleLine value 120).isEmpty = true <;> simp [refuseIf, hblank, bind, Except.bind, pure, Except.pure]

theorem not_blank_of_cleanTitle {value title : String} (h : cleanTitle value = .ok title) : ¬ Blank title := by
  obtain ⟨_, hfilled, h⟩ := bind_eq_ok_iff.mp h
  cases h
  exact not_blank_cleanSingleLine (refuseIf_eq_ok_iff.mp hfilled)

theorem not_blank_of_cleanListName {value name : String} (h : cleanListName value = .ok name) : ¬ Blank name := by
  obtain ⟨_, hfilled, h⟩ := bind_eq_ok_iff.mp h
  cases h
  exact not_blank_cleanSingleLine (refuseIf_eq_ok_iff.mp hfilled)

/-! ### Tags -/

theorem mapM_self {check : String → StoreResult String} {items : List String}
    (h : ∀ item ∈ items, check item = .ok item) : items.mapM check = .ok items := by
  induction items with
  | nil => rfl
  | cons item rest ih =>
      rw [List.mapM_cons, h item List.mem_cons_self, ok_bind, ih fun other hother =>
        h other (List.mem_cons_of_mem item hother)]
      rfl

theorem trim_trim (text : String) : trim (trim text) = trim text := by
  rw [trim, trim, String.toList_ofList]
  exact congrArg String.ofList (stripped_stripped isWhitespace text.toList)

theorem cleanTag_ok_iff {raw tag : String} :
    cleanTag raw = .ok tag ↔ tag = trim raw ∧ 0 < tag.length ∧ tag.length ≤ 32 := by
  rw [cleanTag, bind_eq_ok_iff]
  simp only [refuseIf_eq_ok_iff, not_or, pure, Except.pure, Except.ok.injEq, exists_const]
  constructor
  · rintro ⟨⟨hpos, hle⟩, rfl⟩
    exact ⟨rfl, by omega, by omega⟩
  · rintro ⟨rfl, hpos, hle⟩
    exact ⟨⟨by omega, by omega⟩, rfl⟩

/-- A tag that was cleaned stays. -/
theorem cleanTag_again {raw tag : String} (h : cleanTag raw = .ok tag) : cleanTag tag = .ok tag := by
  obtain ⟨rfl, hlength⟩ := cleanTag_ok_iff.mp h
  exact cleanTag_ok_iff.mpr ⟨(trim_trim raw).symm, hlength⟩

section

variable (texts : Texts)

/-- The first spellings are among the tags, under keys of their own that were not seen. -/
theorem firstSpellings_spec (seen tags : List String) :
    (firstSpellings texts seen tags).Sublist tags ∧
      ((firstSpellings texts seen tags).map texts.toLowercase).Nodup ∧
      ∀ tag ∈ firstSpellings texts seen tags, texts.toLowercase tag ∉ seen := by
  induction tags generalizing seen with
  | nil => simp [firstSpellings]
  | cons tag rest ih =>
      rw [firstSpellings]
      split
      · obtain ⟨hsub, hnodup, hfresh⟩ := ih seen
        exact ⟨hsub.cons tag, hnodup, hfresh⟩
      · rename_i hseen
        obtain ⟨hsub, hnodup, hfresh⟩ := ih (texts.toLowercase tag :: seen)
        refine ⟨hsub.cons_cons tag, ?_, ?_⟩
        · rw [List.map_cons, List.nodup_cons]
          refine ⟨fun hmem => ?_, hnodup⟩
          obtain ⟨other, hother, hkey⟩ := List.mem_map.mp hmem
          exact hfresh other hother (hkey ▸ List.mem_cons_self)
        · intro other hother
          rcases List.mem_cons.mp hother with rfl | hlater
          · exact hseen
          · exact fun hmem => hfresh other hlater (List.mem_cons_of_mem _ hmem)

variable {texts}

/-- Tags under keys of their own are all first spellings. -/
theorem firstSpellings_self {seen tags : List String} (hnodup : (tags.map texts.toLowercase).Nodup)
    (hfresh : ∀ tag ∈ tags, texts.toLowercase tag ∉ seen) : firstSpellings texts seen tags = tags := by
  induction tags generalizing seen with
  | nil => rfl
  | cons tag rest ih =>
      rw [List.map_cons, List.nodup_cons] at hnodup
      rw [firstSpellings, if_neg (hfresh tag List.mem_cons_self), ih hnodup.2]
      intro other hother hmem
      rcases List.mem_cons.mp hmem with hkey | hseen
      · exact hnodup.1 (List.mem_map.mpr ⟨other, hother, hkey⟩)
      · exact hfresh other (List.mem_cons_of_mem tag hother) hseen

/-- Tags that were normalized stay as they are. -/
theorem normalizeTags_again {tags normalized : List String} (h : normalizeTags texts tags = .ok normalized) :
    normalizeTags texts normalized = .ok normalized := by
  obtain ⟨cleaned, hcleaned, h⟩ := bind_eq_ok_iff.mp h
  obtain ⟨_, hmany, h⟩ := bind_eq_ok_iff.mp h
  cases h
  obtain ⟨hsub, hnodup, -⟩ := firstSpellings_spec texts [] cleaned
  have hclean : ∀ tag ∈ cleaned, cleanTag tag = .ok tag := by
    intro tag htag
    obtain ⟨raw, -, hraw⟩ := exists_of_forall₂ (mapM_ok hcleaned).flip tag htag
    exact cleanTag_again hraw
  have hself := mapM_self fun tag htag => hclean tag (hsub.subset htag)
  have hfirst : firstSpellings texts [] (firstSpellings texts [] cleaned) = firstSpellings texts [] cleaned :=
    firstSpellings_self hnodup fun _ _ => List.not_mem_nil
  rw [normalizeTags, hself, ok_bind]
  dsimp only
  rw [hfirst, bind_eq_ok_iff]
  exact ⟨(), hmany, rfl⟩

end

/-! ### Rows that an import takes as they are -/

/-- A name and a title that say something, and tags that are normal. -/
def TidyRow (texts : Texts) : Row → Prop
  | .list list => ¬ Blank list.name
  | .task task => ¬ Blank task.title ∧ normalizeTags texts task.tags = .ok task.tags
  | .step _ => True
  | .dayPlan _ => True

def Tables.Tidy (texts : Texts) (tables : Tables) : Prop :=
  ∀ key row, tables.find key = some row → TidyRow texts row

/-- The bundle of the store, imported over any other, leaves exactly the rows of the store. -/
def RoundTrips (texts : Texts) (store : Store) : Prop :=
  ∀ (supply : Supply) (other : Store), Function.Injective supply.opId →
    ∃ tx, importData texts supply other (exportData store) .replace = .ok tx ∧
      ∀ key, tx.store.find key = store.find key

/-- There are identifiers enough for every sequence. -/
theorem exists_opIds : ∃ opId : Int → String, Function.Injective opId := by
  refine ⟨fun seq => String.ofList (List.replicate (Encodable.encode seq) '1'), fun left right h => ?_⟩
  have hlength := congrArg List.length (String.ofList_injective h)
  rw [List.length_replicate, List.length_replicate] at hlength
  exact Encodable.encode_injective hlength

theorem mem_export_rows {store : Store} {row : Row} :
    row ∈ (exportData store).rows ↔ store.find row.key = some row := by
  rw [Store.find, ← Tables.mem_rows store.rows.property.keyed]
  simp only [ExportBundle.rows, exportData, Tables.rows, List.mem_append, List.mem_map, List.mem_insertionSort]

section

variable {texts : Texts} {supply : Supply} {store : Store} {tx : Tx}

theorem storedRow_self {row : Row} (h : TidyRow texts row) : storedRow texts row = .ok row := by
  cases row with
  | task task =>
      rw [storedRow, h.2]
      rfl
  | list list => rfl
  | step step => rfl
  | dayPlan plan => rfl

/-- An export that comes back shows that its rows are tidy. -/
theorem RoundTrips.tidy (h : RoundTrips texts store) : store.rows.val.Tidy texts := by
  obtain ⟨opId, hfresh⟩ := exists_opIds
  obtain ⟨tx, himport, hsame⟩ := h ⟨"", "", "", opId⟩ store hfresh
  obtain ⟨hsound, -⟩ := importData_ok_iff.mp himport
  obtain ⟨hstored, -⟩ := importData_find himport
  intro key row hfind
  have hkey := store.rows.property.keyed key row hfind
  have hmem : row ∈ (exportData store).rows := mem_export_rows.mpr (hkey.symm ▸ hfind)
  obtain ⟨stored, hrelated, hfound⟩ := hstored row hmem
  have hself : storedRow texts row = .ok row := by
    rw [hsame, mem_export_rows.mp hmem] at hfound
    rwa [← Option.some.inj hfound] at hrelated
  cases row with
  | list list =>
      have hlist : list ∈ (exportData store).lists := by simpa [ExportBundle.rows] using hmem
      exact cleanListName_succeeds_iff.mp (hsound.names list hlist)
  | task task =>
      have htask : task ∈ (exportData store).tasks := by simpa [ExportBundle.rows] using hmem
      refine ⟨cleanTitle_succeeds_iff.mp (hsound.titles task htask), ?_⟩
      obtain ⟨tags, htags, hdone⟩ := bind_eq_ok_iff.mp hself
      have hsame : tags = task.tags := congrArg Task.tags (Row.task.inj (Except.ok.inj hdone))
      rwa [hsame] at htags
  | step step => trivial
  | dayPlan plan => trivial

/-! ### Tidy rows are taken as they are -/

theorem importRow_eq (hfresh : Function.Injective supply.opId) {row : Row} (hnumbered : Numbered supply tx)
    (haccepts : tx.tables.Accepts row) : ∃ after, importRow supply tx row = .ok after ∧
      Numbered supply after ∧ after.tables = tx.tables.put row := by
  have hnumbered : Numbered supply (tx.withRows ⟨_, tx.store.rows.property.put haccepts⟩) := hnumbered
  refine ⟨_, ?_, hnumbered.withMutation row.key (if (tx.tables.find row.key).isSome then .patch else .create)
    row.data, rfl⟩
  rw [importRow, Tx.save, write_ok_of_accepts haccepts, ok_bind, Tx.appendMutation]
  simp only [hnumbered.mutation_fresh hfresh, Option.isSome_none, refuseIf]
  rfl

theorem nodup_ids {α : Type} {table : Table String α} {idOf : α → String}
    (h : ∀ id value, table.lookup id = some value → idOf value = id) : (table.values.map idOf).Nodup := by
  have hkeys : table.values.map idOf = table.keys := by
    rw [Table.values, AList.keys, List.keys, List.map_map]
    apply List.map_congr_left
    rintro ⟨id, value⟩ hmem
    exact h id value (Table.mem_entries_iff.mp hmem)
  rw [hkeys]
  exact table.nodupKeys

/-- An export passes the checks of an import where its names and titles are not blank. -/
theorem sound_export (h : store.rows.val.Tidy texts) : (exportData store).Sound where
  format := ⟨rfl, rfl⟩
  names list hlist := by
    have hmem : Row.list list ∈ (exportData store).rows := by simpa [ExportBundle.rows] using hlist
    exact cleanListName_succeeds_iff.mpr (h _ _ (mem_export_rows.mp hmem))
  titles task htask := by
    have hmem : Row.task task ∈ (exportData store).rows := by simpa [ExportBundle.rows] using htask
    exact cleanTitle_succeeds_iff.mpr (h _ _ (mem_export_rows.mp hmem)).1
  listIds := by
    refine ((List.perm_insertionSort _ _).map _).nodup_iff.mpr (nodup_ids fun id value hlookup => ?_)
    exact congrArg Prod.snd (store.rows.property.keyed (.list, id) (.list value) (by rw [Tables.find, hlookup]; rfl))
  taskIds := by
    refine ((List.perm_insertionSort _ _).map _).nodup_iff.mpr (nodup_ids fun id value hlookup => ?_)
    exact congrArg Prod.snd (store.rows.property.keyed (.task, id) (.task value) (by rw [Tables.find, hlookup]; rfl))
  stepIds := by
    refine ((List.perm_insertionSort _ _).map _).nodup_iff.mpr (nodup_ids fun id value hlookup => ?_)
    exact congrArg Prod.snd (store.rows.property.keyed (.step, id) (.step value) (by rw [Tables.find, hlookup]; rfl))
  planIds := by
    refine ((List.perm_insertionSort _ _).map _).nodup_iff.mpr (nodup_ids fun id value hlookup => ?_)
    exact congrArg Prod.snd
      (store.rows.property.keyed (.dayPlan, id) (.dayPlan value) (by rw [Tables.find, hlookup]; rfl))

/-- The rows of an export are taken one after another, each after its parents. -/
theorem importItems_succeed (h : store.rows.val.Tidy texts) (hfresh : Function.Injective supply.opId) :
    ∀ {rest done : List Row} {tx : Tx}, (exportData store).rows = done ++ rest →
      Written store.rows.val done tx.tables → Numbered supply tx →
      ∃ after, rest.foldlM (importItem texts supply) tx = .ok after
  | [], _, tx, _, _, _ => ⟨tx, rfl⟩
  | row :: rest, done, tx, hrows, hwritten, hnumbered => by
      have hconsistent := store.rows.property
      have hsame := hconsistent.materialized_eq
      have hfind : store.find row.key = some row :=
        mem_export_rows.mp (hrows ▸ List.mem_append_right _ List.mem_cons_self)
      have hpreceded : Preceded store.rows.val done row :=
        (ordered_rows _ _ _ _).preceded (fun parent => mem_export_rows.mpr) hrows
      have hself : store.rows.val.materialized.find row.key = some row := hsame.symm ▸ hfind
      have haccepts := hwritten.accepts hconsistent.keyed hpreceded (hsame.symm ▸ hconsistent) hself
      obtain ⟨next, hnext, hmore, htables⟩ := importRow_eq hfresh hnumbered haccepts
      have hput := hwritten.put hconsistent.keyed hself
      obtain ⟨after, hafter⟩ := importItems_succeed h hfresh (by rw [hrows, List.append_cons]) (htables ▸ hput) hmore
      refine ⟨after, ?_⟩
      rw [List.foldlM_cons, importItem, storedRow_self (h _ row hfind), ok_bind, hnext]
      exact hafter

/-- A backup comes back exactly when every row is tidy. -/
theorem roundTrips_iff : RoundTrips texts store ↔ store.rows.val.Tidy texts := by
  refine ⟨RoundTrips.tidy, fun h supply other hfresh => ?_⟩
  have hrows : (exportData store).rows = [] ++ (exportData store).rows := rfl
  have hempty : Written store.rows.val [] (importStart other .replace).begin.tables := by
    intro key row
    refine iff_of_false (fun hfind => ?_) fun hdone => List.not_mem_nil hdone.2
    cases (Tables.find_empty key).symm.trans hfind
  have hnumbered : Numbered supply (importStart other .replace).begin := fun opId row hlookup => nomatch hlookup
  obtain ⟨tx, hloop⟩ := importItems_succeed h hfresh hrows hempty hnumbered
  have himport := importData_ok_iff.mpr ⟨sound_export h, hloop⟩
  obtain ⟨hstored, hkept⟩ := importData_find himport
  refine ⟨tx, himport, fun key => ?_⟩
  by_cases hnamed : key ∈ (exportData store).rows.map Row.key
  · obtain ⟨row, hrow, rfl⟩ := List.mem_map.mp hnamed
    have hfind := mem_export_rows.mp hrow
    obtain ⟨stored, hrelated, hfound⟩ := hstored row hrow
    rw [storedRow_self (h _ row hfind)] at hrelated
    rw [hfound, hfind, Except.ok.inj hrelated]
  · rw [hkept key hnamed]
    symm
    cases hfind : store.find key with
    | none => simp [importStart, Store.clear, Store.find, Rows.empty]
    | some row =>
        have hkey := store.key_of_find hfind
        exact absurd (List.mem_map.mpr ⟨row, mem_export_rows.mpr (hkey ▸ hfind), hkey⟩) hnamed

end

end ShishiTodo.Native
