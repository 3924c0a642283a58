import Mathlib.Data.List.Dedup
import Mathlib.Data.List.Sort

/-!
The distinct values of a list in ascending order: a list that only the set of the values determines.
-/

namespace Flowness.Library

open List

variable {α : Type} [LinearOrder α]

def sortedSet (values : List α) : List α := values.dedup.insertionSort (· ≤ ·)

@[simp]
theorem mem_sortedSet {values : List α} {value : α} : value ∈ sortedSet values ↔ value ∈ values := by
  rw [sortedSet, mem_insertionSort, mem_dedup]

@[simp]
theorem sortedSet_eq_nil {values : List α} : sortedSet values = [] ↔ values = [] := by
  simp only [eq_nil_iff_forall_not_mem, mem_sortedSet]

theorem pairwise_sortedSet (values : List α) : (sortedSet values).Pairwise (· ≤ ·) :=
  pairwise_insertionSort _ _

theorem nodup_sortedSet (values : List α) : (sortedSet values).Nodup :=
  (perm_insertionSort _ _).nodup_iff.mpr (nodup_dedup values)

theorem sortedSet_congr {values others : List α} (h : ∀ value, value ∈ values ↔ value ∈ others) :
    sortedSet values = sortedSet others := by
  have hperm : (sortedSet values).Perm (sortedSet others) := by
    rw [perm_ext_iff_of_nodup (nodup_sortedSet values) (nodup_sortedSet others)]
    simpa using h
  exact hperm.eq_of_pairwise (fun _ _ _ _ => le_antisymm) (pairwise_sortedSet values)
    (pairwise_sortedSet others)

section Key

variable {β : Type} {key : β → α}

theorem pairwise_insertionSort_key (values : List β) :
    (values.insertionSort fun a b => key a ≤ key b).Pairwise fun a b => key a ≤ key b := by
  exact pairwise_insertionSort _ _

/-- Where the keys are distinct, the order of the values does not matter. -/
theorem insertionSort_key_congr {values others : List β} (h : values.Perm others)
    (hnodup : (values.map key).Nodup) :
    (values.insertionSort fun a b => key a ≤ key b) =
      others.insertionSort fun a b => key a ≤ key b := by
  have hleft := perm_insertionSort (fun a b : β => key a ≤ key b) values
  have hright := perm_insertionSort (fun a b : β => key a ≤ key b) others
  refine List.Perm.eq_of_pairwise (fun a b ha hb hle hge => ?_) (pairwise_insertionSort_key values)
    (pairwise_insertionSort_key others) (hleft.trans (h.trans hright.symm))
  exact inj_on_of_nodup_map hnodup (hleft.subset ha)
    (h.symm.subset (hright.subset hb)) (le_antisymm hle hge)

end Key

end Flowness.Library
