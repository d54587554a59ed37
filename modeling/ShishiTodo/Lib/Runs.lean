import Mathlib.Data.List.Chain
import Mathlib.Data.List.DropRight
import Mathlib.Data.List.Infix

/-!
# Runs

Every run of items that pass a test, when it is long enough, becomes one mark: what a global replacement of `[…]{n,}` does. Where a run of one is replaced no tested item stays; where a run of two is replaced no two of them stand together, and what has no such pair is left as it is.
-/

namespace Lib

variable {α : Type*}

/-- What becomes of one run. -/
def squeeze (mark : α) (atLeast : Nat) (run : List α) : List α :=
  if atLeast ≤ run.length then [mark] else run

/-- `run` is the run that ends where the list begins. -/
def joinRunsFrom (test : α → Bool) (atLeast : Nat) (mark : α) (run : List α) : List α → List α
  | [] => squeeze mark atLeast run
  | item :: rest =>
    if test item then joinRunsFrom test atLeast mark (run ++ [item]) rest
    else squeeze mark atLeast run ++ item :: joinRunsFrom test atLeast mark [] rest

def joinRuns (test : α → Bool) (atLeast : Nat) (mark : α) (items : List α) : List α :=
  joinRunsFrom test atLeast mark [] items

/-- No two items that pass the test stand together. -/
def Parted (test : α → Bool) (items : List α) : Prop :=
  items.IsChain fun first second => test first = true → test second = false

variable {test : α → Bool} {mark : α} {items : List α}

theorem mem_squeeze {atLeast : Nat} {run : List α} {item : α} (h : item ∈ squeeze mark atLeast run) :
    item = mark ∨ item ∈ run := by
  unfold squeeze at h
  split at h
  · exact .inl (List.mem_singleton.mp h)
  · exact .inr h

theorem mem_joinRunsFrom {atLeast : Nat} {run : List α} {item : α}
    (h : item ∈ joinRunsFrom test atLeast mark run items) : item = mark ∨ item ∈ run ++ items := by
  induction items generalizing run with
  | nil => simpa using mem_squeeze h
  | cons next rest ih =>
    rw [joinRunsFrom] at h
    split at h
    · simpa using ih h
    · rcases List.mem_append.mp h with hrun | hrest
      · rcases mem_squeeze hrun with hmark | hrun
        · exact .inl hmark
        · exact .inr (List.mem_append_left _ hrun)
      · rcases List.mem_cons.mp hrest with hnext | hlater
        · simp [hnext]
        · rcases ih hlater with hmark | hlater
          · exact .inl hmark
          · simp only [List.nil_append] at hlater
            simp [hlater]

theorem mem_joinRuns {atLeast : Nat} {item : α} (h : item ∈ joinRuns test atLeast mark items) :
    item = mark ∨ item ∈ items :=
  mem_joinRunsFrom h

theorem squeeze_one (run : List α) : squeeze mark 1 run = if run = [] then [] else [mark] := by
  cases run <;> simp [squeeze]

/-- Where a run of one is replaced, nothing that passes the test stays but the mark. -/
theorem mem_joinRunsFrom_one {run : List α} {item : α}
    (h : item ∈ joinRunsFrom test 1 mark run items) : item = mark ∨ test item = false := by
  have hsqueezed {run : List α} (h : item ∈ squeeze mark 1 run) : item = mark := by
    rw [squeeze_one] at h
    split at h
    · simp at h
    · exact List.mem_singleton.mp h
  induction items generalizing run with
  | nil => exact .inl (hsqueezed h)
  | cons next rest ih =>
    rw [joinRunsFrom] at h
    split at h
    · exact ih h
    · rename_i hnext
      rcases List.mem_append.mp h with hrun | hrest
      · exact .inl (hsqueezed hrun)
      · rcases List.mem_cons.mp hrest with heq | hlater
        · exact .inr (by simpa [heq] using hnext)
        · exact ih hlater

theorem mem_joinRuns_one {item : α} (h : item ∈ joinRuns test 1 mark items) :
    item = mark ∨ test item = false :=
  mem_joinRunsFrom_one h

theorem Parted.part {part : List α} (hparted : Parted test items) (hpart : part <:+: items) :
    Parted test part := by
  obtain ⟨before, after, rfl⟩ := hpart
  exact (List.IsChain.left_of_append hparted).right_of_append

/-- What stands before an item that fails the test does not matter to what follows it. -/
theorem parted_append_cons {front rest : List α} {item : α} (hitem : test item = false)
    (hfront : Parted test front) (hrest : Parted test rest) : Parted test (front ++ item :: rest) := by
  refine hfront.append (List.isChain_cons.mpr ⟨?_, hrest⟩) ?_
  · intro next _ htest
    simp [hitem] at htest
  · intro last _ first hfirst _
    rw [List.head?_cons, Option.mem_some_iff] at hfirst
    rw [← hfirst]
    exact hitem

theorem parted_squeeze (run : List α) : Parted test (squeeze mark 2 run) := by
  match run with
  | [] => simp [squeeze, Parted]
  | [_] => simp [squeeze, Parted]
  | _ :: _ :: _ => simp [squeeze, Parted]

theorem parted_joinRunsFrom (run : List α) : Parted test (joinRunsFrom test 2 mark run items) := by
  induction items generalizing run with
  | nil => exact parted_squeeze run
  | cons next rest ih =>
    rw [joinRunsFrom]
    split
    · exact ih _
    · rename_i hnext
      exact parted_append_cons (by simpa using hnext) (parted_squeeze run) (ih [])

theorem parted_joinRuns : Parted test (joinRuns test 2 mark items) :=
  parted_joinRunsFrom []

theorem joinRuns_one_of_clear (hclear : ∀ item ∈ items, test item = false) :
    joinRuns test 1 mark items = items := by
  unfold joinRuns
  induction items with
  | nil => rfl
  | cons next rest ih =>
    rw [joinRunsFrom, if_neg (by simp [hclear next List.mem_cons_self]),
      ih fun item hitem => hclear item (List.mem_cons_of_mem _ hitem)]
    rfl

/-- A run of one is left alone, and there is no longer one. -/
theorem joinRunsFrom_of_parted {run : List α} (hrun : ∀ item ∈ run, test item = true)
    (hparted : Parted test (run ++ items)) : joinRunsFrom test 2 mark run items = run ++ items := by
  have hshort {run items : List α} (hrun : ∀ item ∈ run, test item = true)
      (hparted : Parted test (run ++ items)) : run.length < 2 := by
    match run with
    | [] => simp
    | [_] => simp
    | first :: second :: more =>
      have hsecond := (List.isChain_cons_cons.mp hparted).1 (hrun first (by simp))
      rw [hrun second (by simp)] at hsecond
      exact absurd hsecond (by simp)
  have hkept {run items : List α} (hrun : ∀ item ∈ run, test item = true)
      (hparted : Parted test (run ++ items)) : squeeze mark 2 run = run := by
    have := hshort hrun hparted
    rw [squeeze, if_neg (by omega)]
  induction items generalizing run with
  | nil => rw [joinRunsFrom, hkept hrun hparted, List.append_nil]
  | cons next rest ih =>
    rw [joinRunsFrom]
    split
    · rename_i hnext
      rw [ih _ (by simpa using hparted), List.append_assoc, List.singleton_append]
      intro item hitem
      rcases List.mem_append.mp hitem with hbefore | hlast
      · exact hrun item hbefore
      · rw [List.mem_singleton.mp hlast]
        exact hnext
    · have hrest : Parted test rest := hparted.part ⟨run ++ [next], [], by simp⟩
      have hlater : joinRunsFrom test 2 mark [] rest = rest := ih (by simp) hrest
      rw [hkept hrun hparted, hlater]

theorem joinRuns_two_of_parted (hparted : Parted test items) :
    joinRuns test 2 mark items = items :=
  joinRunsFrom_of_parted (by simp) hparted

end Lib
