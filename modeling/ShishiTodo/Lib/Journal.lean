import Mathlib.Data.List.Basic

/-!
# Rows explained by a journal

A journal is a list of operations, each about one row. Replaying the operations about a row over the row it started from gives a row again, and the journal explains a change of the rows when the two are the same in all that counts. An explained change followed by an explained change is explained, so a journal kept step by step explains whole runs.
-/

namespace Lib

/-- How operations act on rows, and when two rows count as the same. -/
structure Journal (κ δ ω : Type*) where
  keyOf : ω → κ
  apply : δ → ω → δ
  Same : κ → δ → δ → Prop
  refl : ∀ key row, Same key row row
  trans : ∀ key first second third, Same key first second → Same key second third →
    Same key first third
  congr : ∀ key first second op, keyOf op = key → Same key first second →
    Same key (apply first op) (apply second op)

namespace Journal

variable {κ δ ω : Type*} (journal : Journal κ δ ω)

/-- The row after the operations, one by one. -/
def replay (row : δ) (ops : List ω) : δ := ops.foldl journal.apply row

@[simp] theorem replay_nil (row : δ) : journal.replay row [] = row := rfl

@[simp] theorem replay_append (row : δ) (first second : List ω) :
    journal.replay row (first ++ second) = journal.replay (journal.replay row first) second :=
  List.foldl_append

variable [DecidableEq κ]

/-- The operations about one row. -/
def about (key : κ) (ops : List ω) : List ω := ops.filter fun op => journal.keyOf op = key

@[simp] theorem about_nil (key : κ) : journal.about key [] = [] := rfl

@[simp] theorem about_append (key : κ) (first second : List ω) :
    journal.about key (first ++ second) = journal.about key first ++ journal.about key second :=
  List.filter_append first second

theorem about_self {key : κ} {op : ω} (h : journal.keyOf op = key) : journal.about key [op] = [op] := by
  rw [about, List.filter_cons_of_pos (by simpa using h), List.filter_nil]

theorem about_of_ne {key : κ} {op : ω} (h : journal.keyOf op ≠ key) : journal.about key [op] = [] := by
  rw [about, List.filter_cons_of_neg (by simpa using h), List.filter_nil]

theorem keyOf_of_mem_about {key : κ} {ops : List ω} {op : ω} (h : op ∈ journal.about key ops) :
    journal.keyOf op = key := by
  simpa using (List.mem_filter.mp h).2

/-- Replayed over whatever counts as the row before, the operations about a row give the row after. -/
def Explains (ops : List ω) (before after : κ → Option δ) : Prop :=
  ∀ key row, after key = some row →
    ∀ base, (∀ old, before key = some old → journal.Same key base old) →
      journal.Same key (journal.replay base (journal.about key ops)) row

theorem explains_nil (rows : κ → Option δ) : journal.Explains [] rows rows :=
  fun _ row hrow _ hbase => hbase row hrow

theorem explains_append {first second : List ω} {before between after : κ → Option δ}
    (hfirst : journal.Explains first before between)
    (hsecond : journal.Explains second between after) :
    journal.Explains (first ++ second) before after := by
  intro key row hrow base hbase
  rw [about_append, replay_append]
  apply hsecond key row hrow
  intro old hold
  exact hfirst key old hold base hbase

/-- One row is written, and one operation about it says so. -/
theorem explains_write {before after : κ → Option δ} {key : κ} {op : ω} {row : δ}
    (hkey : journal.keyOf op = key) (hself : after key = some row)
    (hother : ∀ other, other ≠ key → after other = before other)
    (happly : ∀ base, (∀ old, before key = some old → journal.Same key base old) →
      journal.Same key (journal.apply base op) row) :
    journal.Explains [op] before after := by
  intro other found hfound base hbase
  by_cases hsame : other = key
  · subst hsame
    rw [hself] at hfound
    cases hfound
    rw [journal.about_self hkey]
    exact happly base hbase
  · have hne : journal.keyOf op ≠ other := fun h => hsame (h.symm.trans hkey)
    rw [journal.about_of_ne hne]
    rw [hother other hsame] at hfound
    exact hbase found hfound

end Journal

end Lib
