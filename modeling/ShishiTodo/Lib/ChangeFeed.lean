import Mathlib.Logic.Basic

/-!
# Change feeds

Records of named fields with a tombstone flag, under keys, and the edits that change them: an edit overwrites the fields it lists and may set or clear the flag. Replaying a list of edits is last-writer-wins, field by field. Two facts carry the uses: what happens under one key depends on the edits of that key alone, and replaying edits a store has already seen, in their order, changes nothing.
-/

namespace Lib

/-- The fields of a record and whether it is tombstoned. -/
@[ext] structure Record (φ ν : Type*) where
  fields : φ → Option ν
  deleted : Bool

/-- An edit of the record under `key`: the fields it lists, and what it does to the flag. -/
structure Edit (κ φ ν : Type*) where
  key : κ
  fields : φ → Option ν
  tombstone : Option Bool

/-- Records under keys. -/
abbrev Feed (κ φ ν : Type*) := κ → Option (Record φ ν)

variable {κ φ ν : Type*}

namespace Record

/-- The record an edit of an absent one starts from. -/
def blank : Record φ ν := { fields := fun _ => none, deleted := false }

end Record

namespace Edit

def onto (edit : Edit κ φ ν) (record : Record φ ν) : Record φ ν where
  fields field := (edit.fields field).or (record.fields field)
  deleted := edit.tombstone.getD record.deleted

/-- The two edits as one, the second after the first. -/
def after (second first : Edit κ φ ν) : Edit κ φ ν where
  key := second.key
  fields field := (second.fields field).or (first.fields field)
  tombstone := second.tombstone.or first.tombstone

theorem onto_after (second first : Edit κ φ ν) (record : Record φ ν) :
    (second.after first).onto record = second.onto (first.onto record) := by
  ext field value
  · simp [onto, after, Option.or_assoc]
  · cases hsecond : second.tombstone <;> simp [onto, after, hsecond]

theorem onto_onto (edit : Edit κ φ ν) (record : Record φ ν) :
    edit.onto (edit.onto record) = edit.onto record := by
  ext field value
  · cases hedit : edit.fields field <;> simp [onto, hedit]
  · cases hedit : edit.tombstone <;> simp [onto, hedit]

variable [DecidableEq κ]

def apply (edit : Edit κ φ ν) (feed : Feed κ φ ν) : Feed κ φ ν := fun key =>
  if key = edit.key then some (edit.onto ((feed key).getD Record.blank)) else feed key

theorem apply_self (edit : Edit κ φ ν) (feed : Feed κ φ ν) :
    edit.apply feed edit.key = some (edit.onto ((feed edit.key).getD Record.blank)) := if_pos rfl

theorem apply_of_ne {edit : Edit κ φ ν} {feed : Feed κ φ ν} {key : κ} (h : key ≠ edit.key) :
    edit.apply feed key = feed key := if_neg h

/-- A feed is the edited one when it has the edited record and everything else as before. -/
theorem eq_apply_iff {edit : Edit κ φ ν} {feed next : Feed κ φ ν} :
    next = edit.apply feed ↔
      next edit.key = some (edit.onto ((feed edit.key).getD Record.blank)) ∧
        ∀ key, key ≠ edit.key → next key = feed key := by
  constructor
  · rintro rfl
    exact ⟨edit.apply_self feed, fun key hkey => apply_of_ne hkey⟩
  · rintro ⟨hself, hothers⟩
    funext key
    by_cases hkey : key = edit.key
    · rw [hkey, hself, apply_self]
    · rw [hothers key hkey, apply_of_ne hkey]

end Edit

variable [DecidableEq κ]

/-- The edits applied one after another. -/
def replay (edits : List (Edit κ φ ν)) (feed : Feed κ φ ν) : Feed κ φ ν :=
  edits.foldl (fun feed edit => edit.apply feed) feed

@[simp] theorem replay_nil (feed : Feed κ φ ν) : replay [] feed = feed := rfl

theorem replay_append (first second : List (Edit κ φ ν)) (feed : Feed κ φ ν) :
    replay (first ++ second) feed = replay second (replay first feed) :=
  List.foldl_append ..

/-- All edits of a key as one edit. -/
def merged (key : κ) : List (Edit κ φ ν) → Option (Edit κ φ ν)
  | [] => none
  | edit :: rest =>
      if edit.key = key then some (((merged key rest).map fun later => later.after edit).getD edit)
      else merged key rest

/-- Under one key a replay does what the merged edit of that key does. -/
theorem replay_apply (key : κ) (edits : List (Edit κ φ ν)) (feed : Feed κ φ ν) :
    replay edits feed key = match merged key edits with
      | none => feed key
      | some edit => some (edit.onto ((feed key).getD Record.blank)) := by
  induction edits generalizing feed with
  | nil => rfl
  | cons edit rest ih =>
      have hstep : replay (edit :: rest) feed key = replay rest (edit.apply feed) key := rfl
      rw [hstep, ih]
      by_cases hkey : edit.key = key
      · have happly : edit.apply feed key =
            some (edit.onto ((feed key).getD Record.blank)) := by
          rw [← hkey, Edit.apply_self]
        cases hrest : merged key rest with
        | none => simp [merged, hkey, hrest, happly]
        | some later => simp [merged, hkey, hrest, happly, Edit.onto_after]
      · have happly : edit.apply feed key = feed key := by
          exact Edit.apply_of_ne fun h => hkey h.symm
        simp [merged, hkey, happly]

/-- Feeds that agree on a key agree on it after the same edits. -/
theorem replay_congr {key : κ} {left right : Feed κ φ ν} (edits : List (Edit κ φ ν))
    (h : left key = right key) : replay edits left key = replay edits right key := by
  rw [replay_apply, replay_apply, h]

/-- Edits a feed has seen already change nothing when they come again in their order. -/
theorem replay_replay (edits : List (Edit κ φ ν)) (feed : Feed κ φ ν) :
    replay edits (replay edits feed) = replay edits feed := by
  funext key
  rw [replay_apply, replay_apply]
  cases merged key edits with
  | none => rfl
  | some edit => simp [Edit.onto_onto]

/-- A reader whose copy of a key already contains the first of the edits catches up by replaying all of them. -/
theorem replay_catch_up {key : κ} {copy start : Feed κ φ ν} (seen rest : List (Edit κ φ ν))
    (h : copy key = replay seen start key) :
    replay (seen ++ rest) copy key = replay (seen ++ rest) start key := by
  have hseen : replay seen copy key = replay seen start key := by
    rw [replay_congr seen h, replay_replay]
  rw [replay_append, replay_append]
  exact replay_congr rest hseen

end Lib
