import Mathlib.Data.List.Sort

/-!
# Rows shown in an order

Rows are shown by their group, then by their rank, then by a tie break that no two of them share. Two neighbours that exchange their ranks exchange their places if they are of one group and of different ranks, and if the rows that share a rank with one of them stay on their side of the other; in every other case something else is shown.
-/

namespace Lib

/-! ### Stable sorting -/

section Stable

variable {α : Type*} (le : α → α → Prop) [DecidableRel le] {before : α → α → Prop}

/-- Strictly before in the order, or level and before already. -/
def StableBefore (before : α → α → Prop) (first second : α) : Prop :=
  ¬ le second first ∨ le first second ∧ before first second

variable {le}

theorem orderedInsert_stable [Std.Total le] [IsTrans α le] {row : α} {rows : List α}
    (hsorted : rows.Pairwise le) (hstable : rows.Pairwise (StableBefore le before))
    (hfirst : ∀ other ∈ rows, before row other) :
    (rows.orderedInsert le row).Pairwise (StableBefore le before) := by
  induction rows with
  | nil => simp
  | cons head rest ih =>
      obtain ⟨hhead, hrest⟩ := List.pairwise_cons.mp hsorted
      obtain ⟨hstablehead, hstablerest⟩ := List.pairwise_cons.mp hstable
      rw [List.orderedInsert_cons]
      split
      · rename_i hle
        refine List.pairwise_cons.mpr ⟨fun other hother => ?_, hstable⟩
        have hafter : le row other := by
          rcases List.mem_cons.mp hother with rfl | hmem
          · exact hle
          · exact trans_of le hle (hhead other hmem)
        exact .inr ⟨hafter, hfirst other hother⟩
      · rename_i hnot
        refine List.pairwise_cons.mpr ⟨fun other hother => ?_, ?_⟩
        · rcases List.mem_cons.mp ((List.perm_orderedInsert le row rest).subset hother) with rfl | hmem
          · exact .inl hnot
          · exact hstablehead other hmem
        · exact ih hrest hstablerest fun other hother => hfirst other (List.mem_cons_of_mem _ hother)

/-- Sorting keeps the order of what is level. -/
theorem insertionSort_stable [Std.Total le] [IsTrans α le] {rows : List α} (h : rows.Pairwise before) :
    (rows.insertionSort le).Pairwise (StableBefore le before) := by
  induction rows with
  | nil => simp
  | cons row rest ih =>
      obtain ⟨hfirst, hrest⟩ := List.pairwise_cons.mp h
      refine orderedInsert_stable (List.pairwise_insertionSort le rest) (ih hrest) fun other hother => ?_
      exact hfirst other ((List.mem_insertionSort le).mp hother)

end Stable

/-! ### Places -/

/-- What decides where a row is shown. -/
structure Place (γ ρ τ : Type*) where
  group : γ
  rank : ρ
  tie : τ

namespace Place

variable {γ ρ τ : Type*} [LinearOrder γ] [LinearOrder ρ] [LinearOrder τ]

def Before (first second : Place γ ρ τ) : Prop :=
  first.group < second.group ∨ first.group = second.group ∧
    (first.rank < second.rank ∨ first.rank = second.rank ∧ first.tie < second.tie)

theorem Before.asymm {first second : Place γ ρ τ} (h : first.Before second) : ¬ second.Before first := by
  rintro (hback | ⟨hgroup, hback | ⟨hrank, hback⟩⟩)
  · rcases h with hless | ⟨hsame, -⟩
    · exact lt_asymm hless hback
    · exact hback.ne' hsame
  · rcases h with hless | ⟨-, hless | ⟨hsame, -⟩⟩
    · exact hless.ne' hgroup
    · exact lt_asymm hless hback
    · exact hback.ne' hsame
  · rcases h with hless | ⟨-, hless | ⟨-, hless⟩⟩
    · exact hless.ne' hgroup
    · exact hless.ne' hrank
    · exact lt_asymm hless hback

/-- The place with the rank of another one. -/
def withRank (place : Place γ ρ τ) (rank : ρ) : Place γ ρ τ := { place with rank := rank }

/-- The upper of two neighbours and the lower one, among the rows above them and below them. -/
structure Interchangeable (above : List (Place γ ρ τ)) (upper lower : Place γ ρ τ)
    (below : List (Place γ ρ τ)) : Prop where
  group : upper.group = lower.group
  rank : upper.rank < lower.rank
  above : ∀ place ∈ above, place.group = upper.group → place.rank = upper.rank → place.tie < lower.tie
  below : ∀ place ∈ below, place.group = lower.group → place.rank = lower.rank → upper.tie < place.tie

theorem pairwise_neighbours {α : Type*} {R : α → α → Prop} {above below : List α} {upper lower : α} :
    (above ++ upper :: lower :: below).Pairwise R ↔
      (above ++ below).Pairwise R ∧ R upper lower ∧
        (∀ row ∈ above, R row upper ∧ R row lower) ∧ ∀ row ∈ below, R upper row ∧ R lower row := by
  simp only [List.pairwise_append, List.pairwise_cons, List.mem_cons]
  constructor
  · rintro ⟨habove, ⟨hupper, hlower, hbelow⟩, hapart⟩
    refine ⟨⟨habove, hbelow, fun row hrow other hother => hapart row hrow other (.inr (.inr hother))⟩,
      hupper lower (.inl rfl), fun row hrow => ⟨hapart row hrow upper (.inl rfl),
        hapart row hrow lower (.inr (.inl rfl))⟩, fun row hrow => ⟨hupper row (.inr hrow), hlower row hrow⟩⟩
  · rintro ⟨⟨habove, hbelow, hapart⟩, hneighbours, hover, hunder⟩
    refine ⟨habove, ⟨?_, fun row hrow => (hunder row hrow).2, hbelow⟩, ?_⟩
    · rintro row (rfl | hrow)
      · exact hneighbours
      · exact (hunder row hrow).1
    · rintro row hrow other (rfl | rfl | hother)
      · exact (hover row hrow).1
      · exact (hover row hrow).2
      · exact hapart row hrow other hother

/-- When the ranks of two neighbours are exchanged, and then their places, the order is kept in these cases only. -/
theorem exchange_iff {above below : List (Place γ ρ τ)} {upper lower : Place γ ρ τ}
    (h : (above ++ upper :: lower :: below).Pairwise Before) :
    (above ++ lower.withRank upper.rank :: upper.withRank lower.rank :: below).Pairwise Before ↔
      Interchangeable above upper lower below := by
  rw [pairwise_neighbours] at h ⊢
  obtain ⟨hrest, hneighbours, habove, hbelow⟩ := h
  constructor
  · rintro ⟨-, hexchanged, hover, hunder⟩
    have hgroup : upper.group = lower.group := by
      rcases hneighbours with hless | ⟨hsame, -⟩
      · rcases hexchanged with hback | ⟨hsame, -⟩
        · exact absurd hback (lt_asymm hless)
        · exact hsame.symm
      · exact hsame
    have hrank : upper.rank < lower.rank := by
      rcases hneighbours with hless | ⟨-, hless | ⟨hsame, hless⟩⟩
      · exact absurd hgroup hless.ne
      · exact hless
      · rcases hexchanged with hback | ⟨-, hback | ⟨-, hback⟩⟩
        · exact absurd hgroup hback.ne'
        · exact hback
        · exact absurd hback (lt_asymm hless)
    refine ⟨hgroup, hrank, fun place hplace hsame hlevel => ?_, fun place hplace hsame hlevel => ?_⟩
    · rcases (hover place hplace).1 with hless | ⟨-, hless | ⟨-, hless⟩⟩
      · exact absurd (hsame.trans hgroup) hless.ne
      · exact absurd hlevel hless.ne
      · exact hless
    · rcases (hunder place hplace).2 with hless | ⟨-, hless | ⟨-, hless⟩⟩
      · exact absurd (hgroup.trans hsame.symm) hless.ne
      · exact absurd hlevel.symm hless.ne
      · exact hless
  · rintro ⟨hgroup, hrank, hover, hunder⟩
    refine ⟨hrest, .inr ⟨hgroup.symm, .inl hrank⟩, fun place hplace => ?_, fun place hplace => ?_⟩
    · rcases (habove place hplace).1 with hless | ⟨hsame, hless | ⟨hlevel, -⟩⟩
      · exact ⟨.inl (hgroup ▸ hless), .inl hless⟩
      · exact ⟨.inr ⟨hsame.trans hgroup, .inl hless⟩, .inr ⟨hsame, .inl (hless.trans hrank)⟩⟩
      · exact ⟨.inr ⟨hsame.trans hgroup, .inr ⟨hlevel, hover place hplace hsame hlevel⟩⟩,
          .inr ⟨hsame, .inl (hlevel.trans_lt hrank)⟩⟩
    · rcases (hbelow place hplace).2 with hless | ⟨hsame, hless | ⟨hlevel, -⟩⟩
      · exact ⟨.inl hless, .inl (hgroup.trans_lt hless)⟩
      · exact ⟨.inr ⟨hsame, .inl (hrank.trans hless)⟩, .inr ⟨hgroup.trans hsame, .inl hless⟩⟩
      · exact ⟨.inr ⟨hsame, .inl (hrank.trans_eq hlevel)⟩,
          .inr ⟨hgroup.trans hsame, .inr ⟨hlevel, hunder place hplace hsame.symm hlevel.symm⟩⟩⟩

end Place

/-! ### What is shown -/

section Shown

variable {α ι γ ρ τ : Type*} [LinearOrder γ] [LinearOrder ρ] [LinearOrder τ] {place : α → Place γ ρ τ}

/-- The rows, each once, in the order of their places. -/
structure Shown (place : α → Place γ ρ τ) (rows shown : List α) : Prop where
  perm : shown.Perm rows
  inOrder : shown.Pairwise fun first second => (place first).Before (place second)

theorem Shown.unique {rows others shown also : List α} (h : Shown place rows shown)
    (hothers : Shown place others also) (hrows : rows.Perm others) : shown = also :=
  ((h.perm.trans hrows).trans hothers.perm.symm).eq_of_pairwise
    (fun _ _ _ _ hbefore hback => absurd hback hbefore.asymm) h.inOrder hothers.inOrder

theorem eq_of_perm_of_map_eq {ident : α → ι} {first second : List α} (hperm : first.Perm second)
    (hnodup : (second.map ident).Nodup) (hmap : first.map ident = second.map ident) : first = second := by
  apply List.ext_getElem hperm.length_eq
  intro index hfirst hsecond
  have hsame : ident first[index] = ident second[index] := by
    have hget := congrArg (fun idents : List ι => idents[index]?) hmap
    simpa [hfirst, hsecond] using hget
  exact List.inj_on_of_nodup_map hnodup (hperm.subset (List.getElem_mem hfirst)) (List.getElem_mem hsecond) hsame

/-- Two neighbours with their ranks exchanged, in each other's place. -/
theorem pairwise_exchanged_iff {above below : List α} {upper lower raised lowered : α}
    (hbefore : (above ++ upper :: lower :: below).Pairwise fun first second => (place first).Before (place second))
    (hup : place raised = (place lower).withRank (place upper).rank)
    (hdown : place lowered = (place upper).withRank (place lower).rank) :
    ((above ++ raised :: lowered :: below).Pairwise fun first second => (place first).Before (place second)) ↔
      Place.Interchangeable (above.map place) (place upper) (place lower) (below.map place) := by
  have horder := List.pairwise_map.mpr hbefore
  rw [List.map_append, List.map_cons, List.map_cons] at horder
  rw [← Place.exchange_iff horder, ← hup, ← hdown, ← List.map_cons, ← List.map_cons, ← List.map_append,
    List.pairwise_map]

section

variable {ident : α → ι} {rows after shown above below : List α} {upper lower raised lowered : α}

theorem exchange_shown (hbefore : Shown place rows (above ++ upper :: lower :: below))
    (hafter : after.Perm (above ++ raised :: lowered :: below))
    (hup : place raised = (place lower).withRank (place upper).rank)
    (hdown : place lowered = (place upper).withRank (place lower).rank) (hshown : Shown place after shown)
    (h : Place.Interchangeable (above.map place) (place upper) (place lower) (below.map place)) :
    shown = above ++ raised :: lowered :: below := by
  have hnext : Shown place (above ++ raised :: lowered :: below) (above ++ raised :: lowered :: below) :=
    ⟨List.Perm.refl _, (pairwise_exchanged_iff hbefore.inOrder hup hdown).mpr h⟩
  exact hshown.unique hnext hafter

/-- Two neighbours that have exchanged their ranks are shown in each other's place in these cases only. -/
theorem exchange_shown_iff (hnodup : (rows.map ident).Nodup)
    (hbefore : Shown place rows (above ++ upper :: lower :: below))
    (hafter : after.Perm (above ++ raised :: lowered :: below)) (hraised : ident raised = ident lower)
    (hlowered : ident lowered = ident upper)
    (hup : place raised = (place lower).withRank (place upper).rank)
    (hdown : place lowered = (place upper).withRank (place lower).rank) (hshown : Shown place after shown) :
    shown.map ident = above.map ident ++ ident lower :: ident upper :: below.map ident ↔
      Place.Interchangeable (above.map place) (place upper) (place lower) (below.map place) := by
  have hidents : (above ++ raised :: lowered :: below).map ident =
      above.map ident ++ ident lower :: ident upper :: below.map ident := by
    rw [List.map_append, List.map_cons, List.map_cons, hraised, hlowered]
  constructor
  · intro hsame
    have hapart : ((above ++ raised :: lowered :: below).map ident).Nodup := by
      have hold := (hbefore.perm.map ident).nodup_iff.mpr hnodup
      rw [List.map_append, List.map_cons, List.map_cons] at hold
      rw [hidents]
      exact ((List.Perm.swap _ _ _).append_left _).nodup_iff.mp hold
    have heq := eq_of_perm_of_map_eq (hshown.perm.trans hafter) hapart (hsame.trans hidents.symm)
    rw [← pairwise_exchanged_iff hbefore.inOrder hup hdown, ← heq]
    exact hshown.inOrder
  · intro hkept
    rw [exchange_shown hbefore hafter hup hdown hshown hkept, hidents]

end

/-- Two neighbours that exchange their ranks twice are shown as at first. -/
theorem exchange_back {ident : α → ι} {rows after above below shown : List α}
    {upper lower upperAgain lowerAgain : α} (hbefore : Shown place rows (above ++ upper :: lower :: below))
    (hafter : after.Perm (above ++ upperAgain :: lowerAgain :: below)) (hshown : Shown place after shown)
    (hupper : ident upperAgain = ident upper ∧ place upperAgain = place upper)
    (hlower : ident lowerAgain = ident lower ∧ place lowerAgain = place lower) :
    shown.map ident = (above ++ upper :: lower :: below).map ident := by
  have hagain : Shown place (above ++ upperAgain :: lowerAgain :: below)
      (above ++ upperAgain :: lowerAgain :: below) := by
    refine ⟨List.Perm.refl _, ?_⟩
    have hplaces := List.pairwise_map.mpr hbefore.inOrder
    rw [← List.pairwise_map]
    rwa [List.map_append, List.map_cons, List.map_cons, hupper.2, hlower.2, ← List.map_cons, ← List.map_cons,
      ← List.map_append]
  rw [hshown.unique hagain hafter]
  simp only [List.map_append, List.map_cons, hupper.1, hlower.1]

/-- What is chosen of the rows is shown in the same order. -/
theorem Shown.filter {rows shown : List α} (h : Shown place rows shown) (chosen : α → Bool) :
    Shown place (rows.filter chosen) (shown.filter chosen) :=
  ⟨h.perm.filter chosen, h.inOrder.filter chosen⟩

end Shown

/-! ### Neighbours -/

section Neighbours

variable {α ι : Type*} [DecidableEq ι] {ident : α → ι}

/-- A row is found where it stands. -/
theorem findIdx?_ident {rows : List α} (hnodup : (rows.map ident).Nodup) {index : Nat} {row : α}
    (h : rows[index]? = some row) : rows.findIdx? (fun other => ident other == ident row) = some index := by
  obtain ⟨hlength, hrow⟩ := List.getElem?_eq_some_iff.mp h
  rw [List.findIdx?_eq_some_iff_getElem]
  refine ⟨hlength, by rw [hrow]; exact beq_self_eq_true _, fun earlier hearlier hsame => ?_⟩
  have hfirst : earlier < (rows.map ident).length := by rw [List.length_map]; omega
  have hsecond : index < (rows.map ident).length := by rw [List.length_map]; omega
  have hmap : (rows.map ident)[earlier] = (rows.map ident)[index] := by
    rw [List.getElem_map, List.getElem_map, hrow]
    exact eq_of_beq hsame
  exact absurd (hnodup.getElem_inj_iff.mp hmap) (by omega)

end Neighbours

end Lib
