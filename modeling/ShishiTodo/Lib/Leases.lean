import ShishiTodo.Lib.Machine
import Mathlib.Data.List.Basic

/-!
# Leases in a log

Some records of a log take a key for a holder, some give it back, and some seal it: the holder keeps it for good. In an orderly log a key is taken only while it is free, and only its holder gives it back or seals it. So two takings of one key are never without a return by the first holder between them, and nobody takes a sealed key.
-/

namespace Lib

/-- What a record does to the lease of a key. -/
inductive LeaseMark (κ η : Type*) where
  | taken (key : κ) (holder : η)
  | released (key : κ) (holder : η)
  | sealed (key : κ) (holder : η)

/-- How a key stands. -/
inductive Lease (η : Type*) where
  | free
  | held (holder : η)
  | sealed (holder : η)

namespace LeaseMark

variable {κ η τ : Type*} [DecidableEq κ] (mark : τ → Option (LeaseMark κ η))

/-- How the key stands after one more record. -/
def next (key : κ) (lease : Lease η) (record : τ) : Lease η :=
  match mark record with
  | some (taken other holder) => if other = key then .held holder else lease
  | some (released other _) => if other = key then .free else lease
  | some (sealed other holder) => if other = key then .sealed holder else lease
  | none => lease

/-- How the key stands at the end of the log. -/
def lease (log : List τ) (key : κ) : Lease η := log.foldl (next mark key) .free

/-- Whether the record is in order after the log. -/
def InOrder (log : List τ) (record : τ) : Prop :=
  match mark record with
  | some (taken key _) => lease mark log key = .free
  | some (released key holder) => lease mark log key = .held holder
  | some (sealed key holder) => lease mark log key = .held holder
  | none => True

/-- Every record was in order when it came. -/
def Orderly (log : List τ) : Prop :=
  ∀ earlier record later, log = earlier ++ record :: later → InOrder mark earlier record

@[simp] theorem lease_nil (key : κ) : lease mark [] key = .free := rfl

@[simp] theorem lease_concat (log : List τ) (record : τ) (key : κ) :
    lease mark (log ++ [record]) key = next mark key (lease mark log key) record := by
  rw [lease, List.foldl_append]
  rfl

theorem orderly_nil : Orderly mark [] := by
  intro earlier record later h
  exact absurd h (by simp)

variable {mark} {log : List τ} {record : τ} {key : κ} {holder : η}

theorem next_of_none (h : mark record = none) (held : Lease η) : next mark key held record = held := by
  rw [next, h]

theorem lease_append_of_unmarked {records : List τ} (h : ∀ record ∈ records, mark record = none) :
    lease mark (log ++ records) key = lease mark log key := by
  induction records generalizing log with
  | nil => rw [List.append_nil]
  | cons record rest ih =>
      rw [List.append_cons, ih fun other hother => h other (List.mem_cons_of_mem _ hother), lease_concat,
        next_of_none (h record List.mem_cons_self)]

/-! ### One more record -/


theorem lease_taken (h : mark record = some (taken key holder)) (other : κ) :
    lease mark (log ++ [record]) other = if key = other then .held holder else lease mark log other := by
  rw [lease_concat, next, h]

theorem lease_released (h : mark record = some (released key holder)) (other : κ) :
    lease mark (log ++ [record]) other = if key = other then .free else lease mark log other := by
  rw [lease_concat, next, h]

theorem lease_sealed (h : mark record = some (sealed key holder)) (other : κ) :
    lease mark (log ++ [record]) other = if key = other then .sealed holder else lease mark log other := by
  rw [lease_concat, next, h]

theorem inOrder_taken (h : mark record = some (taken key holder)) :
    InOrder mark log record ↔ lease mark log key = .free := by
  rw [InOrder, h]

theorem inOrder_released (h : mark record = some (released key holder)) :
    InOrder mark log record ↔ lease mark log key = .held holder := by
  rw [InOrder, h]

theorem inOrder_sealed (h : mark record = some (sealed key holder)) :
    InOrder mark log record ↔ lease mark log key = .held holder := by
  rw [InOrder, h]


theorem Orderly.concat (horderly : Orderly mark log) (hrecord : InOrder mark log record) :
    Orderly mark (log ++ [record]) := by
  intro earlier other later h
  obtain ⟨between, -, hlog⟩ | ⟨before, hearlier, hrest⟩ := append_split h
  · exact horderly earlier other between hlog
  · obtain ⟨rfl, hlast⟩ | ⟨-, hlast⟩ := List.append_eq_singleton_iff.mp hrest.symm
    · obtain ⟨rfl, -⟩ := List.cons.inj hlast
      rw [hearlier, List.append_nil]
      exact hrecord
    · cases hlast

theorem Orderly.append_unmarked (horderly : Orderly mark log) {records : List τ}
    (h : ∀ record ∈ records, mark record = none) : Orderly mark (log ++ records) := by
  induction records generalizing log with
  | nil => rwa [List.append_nil]
  | cons record rest ih =>
      rw [List.append_cons]
      refine ih (horderly.concat ?_) fun other hother => h other (List.mem_cons_of_mem _ hother)
      rw [InOrder, h record List.mem_cons_self]
      trivial

theorem Orderly.left {first second : List τ} (horderly : Orderly mark (first ++ second)) : Orderly mark first := by
  intro earlier record later h
  exact horderly earlier record (later ++ second) (by rw [h, List.append_assoc, List.cons_append])

/-! ### What order means -/

/-- A key that is taken stays with its holder until the holder gives it back. -/
theorem Orderly.still_held {held records : List τ} (horderly : Orderly mark (held ++ records))
    (hheld : lease mark held key = .held holder ∨ lease mark held key = .sealed holder)
    (hnone : ∀ record ∈ records, mark record ≠ some (released key holder)) :
    lease mark (held ++ records) key = .held holder ∨ lease mark (held ++ records) key = .sealed holder := by
  induction records generalizing held with
  | nil => rwa [List.append_nil]
  | cons record rest ih =>
      rw [List.append_cons] at horderly ⊢
      refine ih horderly ?_ fun other hother => hnone other (List.mem_cons_of_mem _ hother)
      have hrecord : InOrder mark held record :=
        horderly held record rest (by rw [List.append_assoc, List.singleton_append])
      have hnot := hnone record List.mem_cons_self
      match hmark : mark record with
      | none => rwa [lease_concat, next_of_none hmark]
      | some (taken other owner) =>
          rw [lease_taken hmark]
          split
          · rename_i hkey
            rw [inOrder_taken hmark, hkey] at hrecord
            simp [hrecord] at hheld
          · exact hheld
      | some (released other owner) =>
          rw [lease_released hmark]
          split
          · rename_i hkey
            rw [inOrder_released hmark, hkey] at hrecord
            rw [hrecord] at hheld
            simp only [Lease.held.injEq, reduceCtorEq, or_false] at hheld
            rw [hheld, hkey] at hmark
            exact absurd hmark hnot
          · exact hheld
      | some (sealed other owner) =>
          rw [lease_sealed hmark]
          split
          · rename_i hkey
            rw [inOrder_sealed hmark, hkey] at hrecord
            rw [hrecord] at hheld
            simp only [Lease.held.injEq, reduceCtorEq, or_false] at hheld
            rw [hheld]
            exact .inr rfl
          · exact hheld

/-- Between two takings of a key the first holder gave it back. -/
theorem Orderly.released_between {earlier between later : List τ} {first second : τ} {other : η}
    (horderly : Orderly mark (earlier ++ first :: between ++ second :: later))
    (hfirst : mark first = some (taken key holder)) (hsecond : mark second = some (taken key other)) :
    ∃ record ∈ between, mark record = some (released key holder) := by
  by_contra hnone
  have hparts : earlier ++ first :: between = earlier ++ [first] ++ between := by simp
  have hheld : lease mark (earlier ++ [first]) key = .held holder := by
    rw [lease_taken hfirst, if_pos rfl]
  have hstill := Orderly.still_held (hparts ▸ horderly.left) (.inl hheld)
    fun record hrecord hmark => hnone ⟨record, hrecord, hmark⟩
  have hfree := (inOrder_taken hsecond).mp (horderly _ second later rfl)
  rw [hparts] at hfree
  rw [hfree] at hstill
  simp at hstill

/-- A sealed key stays sealed. -/
theorem Orderly.still_sealed {held records : List τ} (horderly : Orderly mark (held ++ records))
    (hheld : lease mark held key = .sealed holder) : lease mark (held ++ records) key = .sealed holder := by
  induction records generalizing held with
  | nil => rwa [List.append_nil]
  | cons record rest ih =>
      rw [List.append_cons] at horderly ⊢
      refine ih horderly ?_
      have hrecord : InOrder mark held record :=
        horderly held record rest (by rw [List.append_assoc, List.singleton_append])
      have hother : ∀ other, lease mark held other ≠ .sealed holder → other ≠ key := by
        rintro other hne rfl
        exact hne hheld
      match hmark : mark record with
      | none => rwa [lease_concat, next_of_none hmark]
      | some (taken other owner) =>
          rw [inOrder_taken hmark] at hrecord
          rwa [lease_taken hmark, if_neg (hother other (by simp [hrecord]))]
      | some (released other owner) =>
          rw [inOrder_released hmark] at hrecord
          rwa [lease_released hmark, if_neg (hother other (by simp [hrecord]))]
      | some (sealed other owner) =>
          rw [inOrder_sealed hmark] at hrecord
          rwa [lease_sealed hmark, if_neg (hother other (by simp [hrecord]))]

/-- Nobody takes a sealed key. -/
theorem Orderly.not_taken_after_sealed {earlier between later : List τ} {first second : τ} {other : η}
    (horderly : Orderly mark (earlier ++ first :: between ++ second :: later))
    (hfirst : mark first = some (sealed key holder)) : mark second ≠ some (taken key other) := by
  intro hsecond
  have hparts : earlier ++ first :: between = earlier ++ [first] ++ between := by simp
  have hsealed : lease mark (earlier ++ [first]) key = .sealed holder := by
    rw [lease_sealed hfirst, if_pos rfl]
  have hstill := Orderly.still_sealed (hparts ▸ horderly.left) hsealed
  have hfree := (inOrder_taken hsecond).mp (horderly _ second later rfl)
  rw [hparts, hstill] at hfree
  cases hfree

end LeaseMark

end Lib
