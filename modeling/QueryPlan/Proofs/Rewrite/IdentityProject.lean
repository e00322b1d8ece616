import QueryPlan.Proofs.Rewrite.Rows

/-! # Projections that hand on their input keep its columns and rows -/
namespace QueryPlan

namespace Expr

theorem length_of_isIdentity {es : List Expr} {width : Nat} (h : isIdentity es width) :
    es.length = width := by
  simp only [isIdentity,Bool.and_eq_true,beq_iff_eq] at h
  exact h.1

theorem eq_column_of_isIdentity {es : List Expr} {width k : Nat} {e : Expr}
    (h : isIdentity es width) (he : es[k]? = some e) : ∃ t, e = column k t := by
  simp only [isIdentity,Bool.and_eq_true,List.all_eq_true] at h
  have hk := h.2 (e,k) (List.mem_zipIdx_iff_getElem?.2 he)
  cases e with
  | column i t =>
    obtain rfl : i = k := by simpa using hk
    exact ⟨t,rfl⟩
  | _ => simp at hk

/-- What `$0`, `$1`, … up to the width of a row give is the row, if each gives what stands there. -/
theorem map_of_isIdentity {β : Type} {g : Expr → β} {es : List Expr} {row : List β}
    (h : isIdentity es row.length)
    (hg : ∀ k t, es[k]? = some (column k t) → row[k]? = some (g (column k t))) : es.map g = row := by
  refine List.ext_getElem? fun k => ?_
  rw [List.getElem?_map]
  cases hk : es[k]? with
  | none =>
    rw [List.getElem?_eq_none_iff,length_of_isIdentity h] at hk
    exact (List.getElem?_eq_none hk).symm
  | some e =>
    obtain ⟨t,rfl⟩ := eq_column_of_isIdentity h hk
    exact (hg k t hk).symm

theorem map_type_of_isIdentity {es : List Expr} {types : List SqlType}
    (h : isIdentity es types.length) (hfits : ∀ e ∈ es, e.Fits types) : es.map type = types :=
  map_of_isIdentity h fun _ _ hk => fits_column.1 (hfits _ (List.mem_of_getElem? hk))

theorem map_eval_of_isIdentity {α : Type} {I : Interpretation α} {es : List Expr} {r : Row α}
    (h : isIdentity es r.length) : es.map (I.eval r) = r := by
  refine map_of_isIdentity h fun k t hk => ?_
  have hlt : k < r.length := by
    rw [← length_of_isIdentity h]
    exact (List.getElem?_eq_some_iff.1 hk).1
  simp [List.getD_eq_getElem?_getD,hlt]

end Expr

namespace IdentityProject
open Plan

theorem apply_eq_some {p q : Plan} (h : apply p = .ok (some q)) :
    ∃ exprs names, p = .project q exprs names ∧ Expr.isIdentity exprs q.width := by
  unfold apply at h
  split at h
  · rename_i input exprs names
    split at h
    · rename_i hid
      cases h
      exact ⟨exprs,names,rfl,hid⟩
    · cases h
  · cases h

variable {input : Plan} {exprs : List Expr} {names : List String}

theorem dropped_keepsShape (h : Expr.isIdentity exprs input.width) :
    KeepsShape (.project input exprs names) input := by
  intro hp
  obtain ⟨he,-,hi⟩ := wellPlaced_project.1 hp
  rw [← hi.length_types] at h
  exact ⟨hi,(Expr.map_type_of_isIdentity h he).symm,rfl⟩

theorem apply_keepsSound {conditions : Prop} {p q : Plan} (h : apply p = .ok (some q)) :
    KeepsSound conditions p q := by
  obtain ⟨exprs,names,rfl,-⟩ := apply_eq_some h
  exact fun hp => (everywhere_project.1 hp).2

variable {α : Type} [DecidableEq α] {I : Interpretation α} {db : Database α}

theorem dropped_keepsRows (h : Expr.isIdentity exprs input.width) :
    KeepsRows I db (.project input exprs names) input := by
  refine ⟨dropped_keepsShape h,fun _ => ?_⟩
  refine ((Multiset.map_congr rfl fun r hr => ?_).trans (Multiset.map_id _)).symm
  rw [← length_row r hr] at h
  exact Expr.map_eval_of_isIdentity h

theorem apply_keepsShape {p q : Plan} (h : apply p = .ok (some q)) : KeepsShape p q := by
  obtain ⟨exprs,names,rfl,hid⟩ := apply_eq_some h
  exact dropped_keepsShape hid

theorem apply_keepsRows {p q : Plan} (h : apply p = .ok (some q)) : KeepsRows I db p q := by
  obtain ⟨exprs,names,rfl,hid⟩ := apply_eq_some h
  exact dropped_keepsRows hid

end IdentityProject
end QueryPlan
