import Mathlib.Data.List.Sort

/-!
# Numbers issued in order

A list without duplicates numbers its items by their positions.  Items that are used
later appear in the order of their numbers exactly when they are a sublist.
-/

namespace Raspen.Transition

universe u

variable {α : Type u} [DecidableEq α] {issued used : List α}

/-- The numbers of a whole list are an initial segment. -/
theorem map_idxOf_eq_range (distinct : issued.Nodup) :
    issued.map issued.idxOf = List.range issued.length := by
  apply List.ext_getElem
  · simp
  · intro k inside _
    rw [List.getElem_map, List.getElem_range]
    exact distinct.idxOf_getElem k (by simpa using inside)

theorem pairwise_idxOf (distinct : issued.Nodup) :
    issued.Pairwise fun first second => issued.idxOf first < issued.idxOf second := by
  apply List.pairwise_map.mp
  rw [map_idxOf_eq_range distinct]
  exact List.pairwise_lt_range

/-- Different items have different numbers. -/
theorem nodup_map_idxOf (sub : used ⊆ issued) (distinct : used.Nodup) :
    (used.map issued.idxOf).Nodup := by
  apply List.Nodup.map_on _ distinct
  intro first firstMem second _ same
  exact (List.idxOf_inj (sub firstMem)).mp same

/-- Items that increase are in the order of issue, and the other way round. -/
theorem pairwise_iff_sublist (distinct : issued.Nodup) (sub : used ⊆ issued) :
    (used.map issued.idxOf).Pairwise (· < ·) ↔ used.Sublist issued := by
  rw [List.pairwise_map]
  constructor
  · intro increasing
    have usedDistinct : used.Nodup :=
      increasing.imp fun {first second} less same => absurd (same ▸ less) (Nat.lt_irrefl _)
    have asymm : Std.Antisymm fun first second => issued.idxOf first < issued.idxOf second :=
      ⟨fun _ _ less more => absurd less (Nat.lt_asymm more)⟩
    exact List.sublist_of_subperm_of_pairwise (List.subperm_of_subset usedDistinct sub) increasing
      (pairwise_idxOf distinct)
  · intro inOrder
    exact (pairwise_idxOf distinct).sublist inOrder

end Raspen.Transition
