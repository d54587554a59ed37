import ShishiTodo.Lib.Chars
import Mathlib.Data.List.DropRight
import Mathlib.Data.List.SplitBy
import Mathlib.Data.Nat.Find

/-!
# Texts of the web's language

`trim`, the collapsing of white space and `replace` with a text for its pattern. What separates words may change under the first two, the number of words does not.
-/

namespace Lib

def trimText (chars : List Char) : List Char := (chars.dropWhile isSpace).rdropWhile isSpace

/-- `.replace(/\s{2,}/g, ' ')`. -/
def collapse (chars : List Char) : List Char :=
  (chars.splitBy fun left right => isSpace left && isSpace right).flatMap fun run =>
    if 2 ≤ run.length then [' '] else run

/-- `.replace(pattern, ' ')`, for a pattern that is a text. -/
def replaceFirst (pattern : List Char) : List Char → List Char
  | [] => if pattern = [] then [' '] else []
  | c :: rest =>
      if pattern.isPrefixOf (c :: rest) then ' ' :: (c :: rest).drop pattern.length
      else c :: replaceFirst pattern rest

/-- The words of a text; the flag tells that a word would begin here. -/
def wordCount : Bool → List Char → Nat
  | _, [] => 0
  | fresh, c :: rest =>
      if isSpace c then wordCount true rest
      else (if fresh then 1 else 0) + wordCount false rest

/-! ### Words -/

theorem wordCount_spaces {spaces : List Char} (h : ∀ c ∈ spaces, isSpace c = true) (fresh : Bool) :
    wordCount fresh spaces = 0 := by
  induction spaces generalizing fresh with
  | nil => rfl
  | cons c rest ih =>
      rw [wordCount, if_pos (h c List.mem_cons_self)]
      exact ih (fun d hd => h d (List.mem_cons_of_mem c hd)) true

theorem wordCount_spaces_append {spaces : List Char} (hsome : spaces ≠ [])
    (h : ∀ c ∈ spaces, isSpace c = true) (fresh : Bool) (rest : List Char) :
    wordCount fresh (spaces ++ rest) = wordCount true rest := by
  induction spaces generalizing fresh with
  | nil => exact absurd rfl hsome
  | cons c spaces ih =>
      rw [List.cons_append, wordCount, if_pos (h c List.mem_cons_self)]
      cases spaces with
      | nil => rfl
      | cons d spaces =>
          exact ih (List.cons_ne_nil d spaces) (fun e he => h e (List.mem_cons_of_mem c he)) true

theorem wordCount_append_spaces (chars : List Char) {spaces : List Char}
    (h : ∀ c ∈ spaces, isSpace c = true) (fresh : Bool) :
    wordCount fresh (chars ++ spaces) = wordCount fresh chars := by
  induction chars generalizing fresh with
  | nil => exact wordCount_spaces h fresh
  | cons c chars ih => rw [List.cons_append, wordCount, wordCount, ih, ih]

theorem wordCount_cons {c : Char} (hc : isSpace c = false) (fresh : Bool) (rest : List Char) :
    wordCount fresh (c :: rest) = (if fresh then 1 else 0) + wordCount false rest := by
  rw [wordCount, if_neg (by rw [hc]; decide)]

/-- A word of which no part is white space counts once. -/
theorem wordCount_word {word : List Char} (hsome : word ≠ []) (h : ∀ c ∈ word, isSpace c = false)
    (fresh : Bool) (rest : List Char) :
    wordCount fresh (word ++ rest) = (if fresh then 1 else 0) + wordCount false rest := by
  induction word generalizing fresh with
  | nil => exact absurd rfl hsome
  | cons c word ih =>
      rw [List.cons_append, wordCount_cons (h c List.mem_cons_self)]
      cases word with
      | nil => rfl
      | cons d word =>
          rw [ih (List.cons_ne_nil d word) (fun e he => h e (List.mem_cons_of_mem c he)) false]
          simp

/-- What follows a white space is counted for itself. -/
theorem wordCount_append_space (before : List Char) {c : Char} (hc : isSpace c = true) (fresh : Bool)
    (rest : List Char) :
    wordCount fresh (before ++ c :: rest) = wordCount fresh before + wordCount true rest := by
  induction before generalizing fresh with
  | nil => simp [wordCount, hc]
  | cons d before ih =>
      rw [List.cons_append, wordCount, wordCount]
      split
      · exact ih true
      · rw [ih false, Nat.add_assoc]

theorem wordCount_trimText (chars : List Char) : wordCount true (trimText chars) = wordCount true chars := by
  have hfront : wordCount true (chars.dropWhile isSpace) = wordCount true chars := by
    induction chars with
    | nil => rfl
    | cons c rest ih =>
        rw [List.dropWhile_cons]
        split
        · rename_i hc
          rw [ih, wordCount, if_pos hc]
        · rfl
  have hend : (chars.dropWhile isSpace).rdropWhile isSpace ++ (chars.dropWhile isSpace).rtakeWhile isSpace
      = chars.dropWhile isSpace := List.rdropWhile_append_rtakeWhile
  rw [← hfront, trimText]
  conv_rhs => rw [← hend]
  exact (wordCount_append_spaces _ (fun c hc => List.mem_rtakeWhile_imp hc) true).symm

/-- Two neighbours in a run are white space, so that all of a longer run is. -/
theorem run_spaces {run : List Char}
    (hchain : run.IsChain fun left right => (isSpace left && isSpace right) = true)
    (hlong : 2 ≤ run.length) : ∀ c ∈ run, isSpace c = true := by
  induction run with
  | nil => exact fun c hc => nomatch hc
  | cons c run ih =>
      cases run with
      | nil => exact absurd hlong (by simp)
      | cons d run =>
          obtain ⟨hboth, hrest⟩ := List.isChain_cons_cons.mp hchain
          obtain ⟨hc, hd⟩ := Bool.and_eq_true_iff.mp hboth
          intro e he
          rcases List.mem_cons.mp he with rfl | he
          · exact hc
          · cases run with
            | nil => exact List.mem_singleton.mp he ▸ hd
            | cons f run => exact ih hrest (by simp) e he

theorem wordCount_runs {runs : List (List Char)}
    (h : ∀ run ∈ runs, 2 ≤ run.length → ∀ c ∈ run, isSpace c = true) (fresh : Bool) :
    wordCount fresh (runs.flatMap fun run => if 2 ≤ run.length then [' '] else run) =
      wordCount fresh runs.flatten := by
  induction runs generalizing fresh with
  | nil => rfl
  | cons run runs ih =>
      have ih := ih fun other hother => h other (List.mem_cons_of_mem run hother)
      rw [List.flatMap_cons, List.flatten_cons]
      by_cases hlong : 2 ≤ run.length
      · have hspaces := h run List.mem_cons_self hlong
        have hsome : run ≠ [] := fun hnone => by simp [hnone] at hlong
        rw [if_pos hlong, wordCount_spaces_append hsome hspaces, ← ih true]
        rfl
      · rw [if_neg hlong]
        match run, hlong with
        | [], _ => exact ih fresh
        | [c], _ =>
            rw [List.singleton_append, List.singleton_append, wordCount, wordCount, ih, ih]
        | _ :: _ :: _, hlong => exact absurd (by simp) hlong

theorem wordCount_collapse (chars : List Char) (fresh : Bool) :
    wordCount fresh (collapse chars) = wordCount fresh chars := by
  rw [collapse, wordCount_runs, List.flatten_splitBy]
  exact fun run hrun => run_spaces (List.isChain_of_mem_splitBy hrun)

/-- White space runs collapsed, and none at the ends. -/
def tidy (chars : List Char) : List Char := trimText (collapse chars)

theorem wordCount_tidy (chars : List Char) : wordCount true (tidy chars) = wordCount true chars := by
  rw [tidy, wordCount_trimText, wordCount_collapse]

/-! ### The first occurrence -/

theorem replaceFirst_eq {pattern before after : List Char} (hsome : pattern ≠ [])
    (hfirst : ∀ earlier rest, before ++ pattern ++ after = earlier ++ pattern ++ rest →
      before.length ≤ earlier.length) :
    replaceFirst pattern (before ++ pattern ++ after) = before ++ ' ' :: after := by
  induction before with
  | nil =>
      obtain ⟨c, pattern, rfl⟩ := List.exists_cons_of_ne_nil hsome
      have hprefix : (c :: pattern).isPrefixOf (c :: (pattern ++ after)) = true :=
        List.isPrefixOf_iff_prefix.mpr ⟨after, rfl⟩
      rw [List.nil_append, List.cons_append, replaceFirst, if_pos hprefix, List.nil_append,
        ← List.cons_append, List.drop_left]
  | cons c before ih =>
      have hnot : ¬ pattern.isPrefixOf (c :: (before ++ pattern ++ after)) = true := fun h => by
        obtain ⟨rest, hrest⟩ := List.isPrefixOf_iff_prefix.mp h
        have := hfirst [] rest hrest.symm
        simp at this
      rw [List.cons_append, List.cons_append, replaceFirst, if_neg hnot, ih]
      · rfl
      · intro earlier rest h
        have := hfirst (c :: earlier) rest (congrArg (List.cons c) h)
        simpa using this

/-- A text that occurs has a first occurrence. -/
theorem exists_first {pattern before after : List Char} :
    ∃ earlier rest, before ++ pattern ++ after = earlier ++ pattern ++ rest ∧
      earlier.length ≤ before.length ∧
      ∀ other others, before ++ pattern ++ after = other ++ pattern ++ others →
        earlier.length ≤ other.length := by
  have hsome : ∃ n earlier rest, before ++ pattern ++ after = earlier ++ pattern ++ rest ∧
      earlier.length = n := ⟨_, before, after, rfl, rfl⟩
  classical
  obtain ⟨earlier, rest, hsplit, hlength⟩ := Nat.find_spec hsome
  refine ⟨earlier, rest, hsplit, ?_, ?_⟩
  · rw [hlength]
    exact Nat.find_min' hsome ⟨before, after, rfl, rfl⟩
  · intro other others hother
    rw [hlength]
    exact Nat.find_min' hsome ⟨other, others, hother, rfl⟩

end Lib
