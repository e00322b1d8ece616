import QueryPlan.Proofs.Meaning.Plan
import QueryPlan.Proofs.Relation.WellFormed
import Mathlib.Data.List.Sort

/-! # Columns picked out of a row

Where an input is narrowed to some of its columns, a reference is renumbered to the place of its
column among those picked. -/
namespace QueryPlan

namespace Expr
variable {cols : List Nat} {i : Nat}

theorem getElem?_positionIn (h : i ∈ cols) : cols[positionIn cols i]? = some i := by
  rw [positionIn,if_pos h]
  exact List.getElem?_idxOf h

theorem positionIn_lt (h : i ∈ cols) : positionIn cols i < cols.length := by
  rw [positionIn,if_pos h]
  exact List.idxOf_lt_length_of_mem h

/-- All columns that a projection of a filtered or joined row needs, in the order of the row. -/
theorem pairwise_mergeSort_addColumns (es : List Expr) (e : Expr) :
    ((addColumns (addColumnsOf [] es) e).mergeSort (· ≤ ·)).Pairwise (· < ·) := by
  have hle : ((addColumns (addColumnsOf [] es) e).mergeSort (· ≤ ·)).Pairwise (· ≤ ·) :=
    List.pairwise_mergeSort' (· ≤ ·) _
  have hnodup : ((addColumns (addColumnsOf [] es) e).mergeSort (· ≤ ·)).Nodup :=
    (List.mergeSort_perm _ _).nodup_iff.2 (nodup_addColumns (nodup_addColumnsOf List.nodup_nil es) e)
  exact (hle.and hnodup).imp fun ⟨h,hne⟩ => Nat.lt_of_le_of_ne h hne

end Expr

/-- Sorting by insertion evaluates where merging does not. -/
theorem mergeSort_le (is : List Nat) :
    (is.mergeSort fun a b => decide (a ≤ b)) = is.insertionSort (· ≤ ·) :=
  List.mergeSort_eq_insertionSort _ is

/-- Columns in the order of a row of a given width, each once, are all of them if they are as many. -/
theorem eq_range_of_length_eq {cols : List Nat} {width : Nat} (hsorted : cols.Pairwise (· < ·))
    (hlt : ∀ c ∈ cols, c < width) (h : cols.length = width) : cols = List.range width := by
  have hnodup : cols.Nodup := hsorted.imp Nat.ne_of_lt
  have hperm : cols.Perm (List.range width) :=
    (List.subperm_of_subset hnodup fun c hc => List.mem_range.2 (hlt c hc)).perm_of_length_le
      (by simp [h])
  exact hperm.eq_of_pairwise (fun a b _ _ hab hba => absurd hab (Nat.lt_asymm hba)) hsorted
    List.pairwise_lt_range

namespace Row
variable {α : Type} {cols : List Nat}

theorem getD_pick {i k : Nat} (r : Row α) (h : cols[k]? = some i) :
    (pick cols r).getD k .null = r.getD i .null := by
  simp [pick,List.getD_eq_getElem?_getD,h]

theorem getD_pick_positionIn {i : Nat} (r : Row α) (h : i ∈ cols) :
    (pick cols r).getD (Expr.positionIn cols i) .null = r.getD i .null :=
  getD_pick r (Expr.getElem?_positionIn h)

@[simp] theorem pick_range (r : Row α) : pick (List.range r.length) r = r := by
  refine List.ext_getElem (by simp) fun k hk hk' => ?_
  simp [pick,List.getD_eq_getElem?_getD,hk']

@[simp] theorem pick_nulls (width : Nat) : pick cols (nulls width : Row α) = nulls cols.length := by
  refine List.ext_getElem (by simp) fun k hk hk' => ?_
  simp only [pick,nulls,List.getElem_map,List.getD_eq_getElem?_getD,List.getElem?_replicate,
    List.getElem_replicate]
  split <;> rfl

end Row
end QueryPlan
