import Mathlib.Data.Option.Basic
import Mathlib.Data.List.Basic

/-!
# Versioned objects

States hold objects under keys, each with a revision and with items. A write raises the revision of one object by one and changes at most one of its items. Over the states passed so far, a revision then names one content, and what a write left alone stays known by the revision it made.
-/

namespace Lib

/-- How the revision and the items of an object are read off a state. -/
structure VersionView (σ κ ι ν : Type*) where
  revision : σ → κ → Option Int
  item : σ → κ → ι → Option ν

namespace VersionView

variable {σ κ ι ν : Type*} (view : VersionView σ κ ι ν)

/-- One write to the object under the key, at the touched item or at none; a new object starts at revision one. -/
structure Write (before after : σ) (key : κ) (touched : Option ι) : Prop where
  revision : view.revision after key = some ((view.revision before key).getD 0 + 1)
  others : ∀ other, other ≠ key → view.revision after other = view.revision before other
  item : ∀ other index, other ≠ key ∨ touched ≠ some index →
    view.item after other index = view.item before other index

/-- The states passed so far, up to now: revisions only grew, and a revision names one content. -/
structure History (past : List σ) (now : σ) : Prop where
  now_mem : now ∈ past
  grows : ∀ state ∈ past, ∀ key revision, view.revision state key = some revision →
    ∃ current, view.revision now key = some current ∧ revision ≤ current
  same : ∀ first ∈ past, ∀ second ∈ past, ∀ key revision,
    view.revision first key = some revision → view.revision second key = some revision →
    view.item first key = view.item second key

/-- From this revision to the next, no item but the one changed. -/
def OnlyItem (past : List σ) (key : κ) (revision : Int) (index : ι) : Prop :=
  ∃ first ∈ past, ∃ second ∈ past, view.revision first key = some revision ∧
    view.revision second key = some (revision + 1) ∧
    ∀ other, other ≠ index → view.item second key other = view.item first key other

variable {view}

theorem History.start (state : σ) : view.History [state] state where
  now_mem := List.mem_singleton_self state
  grows := by
    intro other hother key revision hrev
    rw [List.mem_singleton] at hother
    subst hother
    exact ⟨revision, hrev, Int.le_refl revision⟩
  same := by
    intro first hfirst second hsecond key revision _ _
    rw [List.mem_singleton] at hfirst hsecond
    rw [hfirst, hsecond]

/-- A step that leaves every object as it was. -/
theorem History.unchanged {past : List σ} {before after : σ} (hist : view.History past before)
    (hrevision : ∀ key, view.revision after key = view.revision before key)
    (hitem : ∀ key, view.item after key = view.item before key) :
    view.History (after :: past) after where
  now_mem := List.mem_cons_self
  grows := by
    intro state hmem key revision hrev
    rcases List.mem_cons.mp hmem with rfl | hmem
    · exact ⟨revision, hrev, Int.le_refl revision⟩
    · rw [hrevision]
      exact hist.grows state hmem key revision hrev
  same := by
    have hpast : ∀ state ∈ after :: past, ∃ old ∈ past, ∀ key,
        view.revision state key = view.revision old key ∧
          view.item state key = view.item old key := by
      intro state hmem
      rcases List.mem_cons.mp hmem with rfl | hmem
      · exact ⟨before, hist.now_mem, fun key => ⟨hrevision key, hitem key⟩⟩
      · exact ⟨state, hmem, fun key => ⟨rfl, rfl⟩⟩
    intro first hfirst second hsecond key revision hrevFirst hrevSecond
    obtain ⟨old, hold, hsame⟩ := hpast first hfirst
    obtain ⟨old', hold', hsame'⟩ := hpast second hsecond
    rw [(hsame key).1] at hrevFirst
    rw [(hsame' key).1] at hrevSecond
    rw [(hsame key).2, (hsame' key).2]
    exact hist.same old hold old' hold' key revision hrevFirst hrevSecond

section Write

variable {past : List σ} {before after : σ} {key : κ} {touched : Option ι}

/-- Only the new state has the new revision. -/
theorem History.eq_of_new (hist : view.History past before)
    (hwrite : view.Write before after key touched) {state : σ} (hmem : state ∈ after :: past)
    (hrev : view.revision state key = view.revision after key) : state = after := by
  rcases List.mem_cons.mp hmem with rfl | hmem
  · rfl
  · rw [hwrite.revision] at hrev
    obtain ⟨current, hcurrent, hle⟩ := hist.grows state hmem key _ hrev
    rw [hcurrent, Option.getD_some] at hle
    omega

theorem History.write (hist : view.History past before)
    (hwrite : view.Write before after key touched) : view.History (after :: past) after where
  now_mem := List.mem_cons_self
  grows := by
    intro state hmem other revision hrev
    rcases List.mem_cons.mp hmem with rfl | hmem
    · exact ⟨revision, hrev, Int.le_refl revision⟩
    · obtain ⟨current, hcurrent, hle⟩ := hist.grows state hmem other revision hrev
      by_cases hkey : other = key
      · subst hkey
        refine ⟨_, hwrite.revision, ?_⟩
        rw [hcurrent, Option.getD_some]
        omega
      · exact ⟨current, by rw [hwrite.others other hkey, hcurrent], hle⟩
  same := by
    intro first hfirst second hsecond other revision hrevFirst hrevSecond
    by_cases hnew : other = key ∧ view.revision after key = some revision
    · obtain ⟨rfl, hnew⟩ := hnew
      rw [hist.eq_of_new hwrite hfirst (hrevFirst.trans hnew.symm),
        hist.eq_of_new hwrite hsecond (hrevSecond.trans hnew.symm)]
    · -- Neither state is the one this write made, so both contents were there before.
      have hpast : ∀ state ∈ after :: past, view.revision state other = some revision →
          ∃ old ∈ past, view.revision old other = some revision ∧
            view.item old other = view.item state other := by
        intro state hmem hrev
        rcases List.mem_cons.mp hmem with rfl | hmem
        · by_cases hkey : other = key
          · exact absurd ⟨hkey, hkey ▸ hrev⟩ hnew
          · refine ⟨before, hist.now_mem, ?_, ?_⟩
            · rw [← hwrite.others other hkey, hrev]
            · funext index
              exact (hwrite.item other index (.inl hkey)).symm
        · exact ⟨state, hmem, hrev, rfl⟩
      obtain ⟨old, hold, hrevOld, hitem⟩ := hpast first hfirst hrevFirst
      obtain ⟨old', hold', hrevOld', hitem'⟩ := hpast second hsecond hrevSecond
      rw [← hitem, ← hitem', hist.same old hold old' hold' other revision hrevOld hrevOld']

/-- The step to the revision that a write makes changed only what it touched. -/
theorem Write.onlyItem (hwrite : view.Write before after key touched) {current : Int} {index : ι}
    (hmem : before ∈ past) (hcurrent : view.revision before key = some current)
    (htouched : touched = some index) : view.OnlyItem (after :: past) key current index := by
  refine ⟨before, List.mem_cons_of_mem after hmem, after, List.mem_cons_self, hcurrent, ?_, ?_⟩
  · rw [hwrite.revision, hcurrent, Option.getD_some]
  · intro other hother
    refine hwrite.item key other (.inr ?_)
    rw [htouched]
    exact fun heq => hother (Option.some.inj heq).symm

end Write

theorem OnlyItem.mono {past later : List σ} {key : κ} {revision : Int} {index : ι}
    (hsub : past ⊆ later) (h : view.OnlyItem past key revision index) :
    view.OnlyItem later key revision index := by
  obtain ⟨first, hfirst, second, hsecond, hstep⟩ := h
  exact ⟨first, hsub hfirst, second, hsub hsecond, hstep⟩

/-- What such a step left alone is the same in any two states at its revisions. -/
theorem OnlyItem.item_eq {past : List σ} {now : σ} (hist : view.History past now) {key : κ}
    {revision : Int} {index : ι} (h : view.OnlyItem past key revision index) {before after : σ}
    (hbefore : before ∈ past) (hafter : after ∈ past)
    (hrevBefore : view.revision before key = some revision)
    (hrevAfter : view.revision after key = some (revision + 1)) {other : ι} (hother : other ≠ index) :
    view.item after key other = view.item before key other := by
  obtain ⟨first, hfirst, second, hsecond, hrevFirst, hrevSecond, hsame⟩ := h
  rw [hist.same before hbefore first hfirst key revision hrevBefore hrevFirst,
    hist.same after hafter second hsecond key (revision + 1) hrevAfter hrevSecond]
  exact hsame other hother

/-! ### Compare and set -/

/-- The log of the writes to existing objects, each under its key with the revision it expected, if it named one: the revisions count the writes, and no two writes expected the same revision of an object. -/
structure Counted (view : VersionView σ κ ι ν) [DecidableEq κ] (log : List (κ × Option Int))
    (now : σ) : Prop where
  count : ∀ key, (view.revision now key).getD 1 = 1 + (log.countP fun entry => entry.1 = key : Nat)
  once : ∀ key expected, (log.countP fun entry => entry = (key, some expected)) ≤ 1
  past : ∀ key expected, (key, some expected) ∈ log → expected < (view.revision now key).getD 1

section Counted

variable [DecidableEq κ] {log : List (κ × Option Int)} {before after : σ} {key : κ}
  {touched : Option ι}

theorem Counted.start {now : σ} (hnone : ∀ key, view.revision now key = none) :
    view.Counted [] now where
  count := by
    intro key
    rw [hnone key]
    rfl
  once := by
    intro key expected
    exact Nat.zero_le 1
  past := by
    intro key expected hmem
    cases hmem

theorem Counted.unchanged (hcounted : view.Counted log before)
    (hsame : ∀ key, view.revision after key = view.revision before key) :
    view.Counted log after where
  count := by
    intro key
    rw [hsame key]
    exact hcounted.count key
  once := hcounted.once
  past := by
    intro key expected hmem
    rw [hsame key]
    exact hcounted.past key expected hmem

/-- A new object starts at revision one, before any write is counted. -/
theorem Counted.created (hcounted : view.Counted log before)
    (hwrite : view.Write before after key touched) (hnew : view.revision before key = none) :
    view.Counted log after := by
  have hsame : ∀ other, (view.revision after other).getD 1 = (view.revision before other).getD 1 := by
    intro other
    by_cases hother : other = key
    · rw [hother, hwrite.revision, hnew]
      rfl
    · rw [hwrite.others other hother]
  refine ⟨?_, hcounted.once, ?_⟩
  · intro other
    rw [hsame other]
    exact hcounted.count other
  · intro other expected hmem
    rw [hsame other]
    exact hcounted.past other expected hmem

/-- A write that expects nothing, or the current revision. -/
theorem Counted.write (hcounted : view.Counted log before)
    (hwrite : view.Write before after key touched) {current : Int}
    (hcurrent : view.revision before key = some current) {expected : Option Int}
    (hexpected : ∀ revision, expected = some revision → revision = current) :
    view.Counted (log ++ [(key, expected)]) after := by
  have hraised : view.revision after key = some (current + 1) := by
    rw [hwrite.revision, hcurrent]
    rfl
  refine ⟨?_, ?_, ?_⟩
  · intro other
    have hcount := hcounted.count other
    rw [List.countP_append, List.countP_singleton]
    by_cases hother : other = key
    · subst hother
      rw [hcurrent, Option.getD_some] at hcount
      rw [hraised, Option.getD_some]
      simp only [decide_true, if_true]
      omega
    · rw [hwrite.others other hother, hcount]
      simp [Ne.symm hother]
  · intro other revision
    rw [List.countP_append, List.countP_singleton]
    by_cases hsame : (key, expected) = (other, some revision)
    · -- Every earlier expectation of this object lies below the current revision.
      obtain ⟨rfl, hrevision⟩ := Prod.mk.inj hsame
      have hnone : (log.countP fun entry => entry = (key, some revision)) = 0 := by
        rw [List.countP_eq_zero]
        intro entry hmem hentry
        rw [decide_eq_true_eq] at hentry
        subst hentry
        have hlt := hcounted.past key revision hmem
        rw [hcurrent, Option.getD_some, hexpected revision hrevision] at hlt
        omega
      rw [hnone]
      split <;> omega
    · have honce := hcounted.once other revision
      simpa [hsame] using honce
  · intro other revision hmem
    rw [List.mem_append, List.mem_singleton] at hmem
    rcases hmem with hmem | hmem
    · have hlt := hcounted.past other revision hmem
      by_cases hother : other = key
      · subst hother
        rw [hcurrent, Option.getD_some] at hlt
        rw [hraised, Option.getD_some]
        omega
      · rw [hwrite.others other hother]
        exact hlt
    · obtain ⟨rfl, hrevision⟩ := Prod.mk.inj hmem
      have heq := hexpected revision hrevision.symm
      rw [hraised, Option.getD_some]
      omega

end Counted

end VersionView

end Lib
