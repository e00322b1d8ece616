import Mathlib.Data.List.Sort
import Mathlib.Data.String.Basic

/-! # Sorting by a text

Sorting by a key puts keys in order, leaves elements of one key in the order they were in, and does
not depend on the order of elements with different keys. -/
namespace QueryPlan

variable {α : Type} (key : α → String)

theorem pairwise_mergeSort_le (xs : List α) :
    (xs.mergeSort fun a b => key a ≤ key b).Pairwise fun a b => key a ≤ key b := by
  have h : (xs.mergeSort fun a b => decide (key a ≤ key b)).Pairwise
      fun a b => decide (key a ≤ key b) = true :=
    List.pairwise_mergeSort (by simpa using fun a b c => le_trans)
      (by simpa using fun a b => le_total (key a) (key b)) xs
  simpa using h

theorem filter_mergeSort_le (k : String) (xs : List α) :
    (xs.mergeSort fun a b => key a ≤ key b).filter (key · = k) = xs.filter (key · = k) := by
  have hsame : (xs.filter (key · = k)).Pairwise fun a b => decide (key a ≤ key b) = true := by
    refine List.pairwise_of_forall_mem_list fun a ha b hb => ?_
    simp only [List.mem_filter,decide_eq_true_eq] at ha hb ⊢
    rw [ha.2,hb.2]
  have hsub : (xs.filter (key · = k)).Sublist (xs.mergeSort fun a b => decide (key a ≤ key b)) :=
    List.sublist_mergeSort (by simpa using fun a b c => le_trans)
      (by simpa using fun a b => le_total (key a) (key b)) hsame List.filter_sublist
  have hfiltered := hsub.filter (key · = k)
  rw [List.filter_filter] at hfiltered
  simp only [Bool.and_self] at hfiltered
  exact (hfiltered.eq_of_length ((List.mergeSort_perm xs _).filter _).length_eq.symm).symm

theorem mergeSort_le_of_perm {xs ys : List α} (hkeys : (xs.map key).Nodup) (h : ys.Perm xs) :
    (ys.mergeSort fun a b => key a ≤ key b) = xs.mergeSort fun a b => key a ≤ key b := by
  have hperm := ((List.mergeSort_perm ys fun a b => decide (key a ≤ key b)).trans h).trans
    (List.mergeSort_perm xs fun a b => decide (key a ≤ key b)).symm
  refine hperm.eq_of_pairwise (fun a b ha hb hab hba => ?_) (pairwise_mergeSort_le key ys)
    (pairwise_mergeSort_le key xs)
  rw [List.mem_mergeSort] at ha hb
  exact List.inj_on_of_nodup_map hkeys (h.mem_iff.1 ha) hb (le_antisymm hab hba)

end QueryPlan
