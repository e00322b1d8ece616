import QueryPlan.Proofs.Meaning.Plan

/-! # Joins of filtered and of mapped inputs -/
namespace QueryPlan.JoinKind

variable {α β : Type} {on on' : Row α → Prop} [DecidablePred on] [DecidablePred on']
  {left right : Multiset (Row α)} {leftWidth rightWidth leftWidth' rightWidth' : Nat}

/-- Tests on one side only can be made before the rows are paired. -/
theorem matched_filter {p q : Row α → Prop} [DecidablePred p] [DecidablePred q]
    (h : ∀ l ∈ left, ∀ r ∈ right, on' (l ++ r) ↔ p l ∧ q r ∧ on (l ++ r)) :
    matched on (left.filter p) (right.filter q) = matched on' left right := by
  unfold matched
  rw [Multiset.bind_filter]
  refine Multiset.bind_congr fun l hl => ?_
  split
  · rename_i hp
    rw [Multiset.filter_filter]
    congr 1
    refine Multiset.filter_congr fun r hr => ?_
    rw [h l hl r hr]
    tauto
  · rename_i hp
    have hnone : right.filter (fun r => on' (l ++ r)) = 0 :=
      Multiset.filter_eq_nil.2 fun r hr hon => hp ((h l hl r hr).1 hon).1
    rw [hnone]
    rfl

theorem filter_matched {p : Row α → Prop} [DecidablePred p] :
    (matched on left right).filter p = matched (fun r => p r ∧ on r) left right := by
  unfold matched
  rw [Multiset.filter_bind]
  refine Multiset.bind_congr fun l _ => ?_
  rw [Multiset.filter_map,Multiset.filter_filter]
  rfl

@[simp] theorem rows_inner :
    inner.rows leftWidth rightWidth on left right = matched on left right := by
  simp [rows,keepsLeft,keepsRight]

/-- Pairs of mapped rows, read by `out'`, are the pairs of the rows themselves, read by `out`. -/
theorem map_matched {f g : Row α → Row α} {out out' : Row α → β}
    (hon : ∀ l ∈ left, ∀ r ∈ right, on' (f l ++ g r) ↔ on (l ++ r))
    (hout : ∀ l ∈ left, ∀ r ∈ right, out' (f l ++ g r) = out (l ++ r)) :
    (matched on' (left.map f) (right.map g)).map out' = (matched on left right).map out := by
  unfold matched
  rw [Multiset.map_bind,Multiset.map_bind,Multiset.bind_map]
  refine Multiset.bind_congr fun l hl => ?_
  have hpartners : right.filter ((fun r => on' (f l ++ r)) ∘ g) = right.filter fun r => on (l ++ r) :=
    Multiset.filter_congr fun r hr => hon l hl r hr
  rw [Multiset.filter_map,Multiset.map_map,Multiset.map_map,Multiset.map_map,hpartners]
  exact Multiset.map_congr rfl fun r hr => hout l hl r (Multiset.mem_filter.1 hr).1

/-- A join of mapped inputs finds the same partners, so it also leaves the same rows without one. -/
theorem map_rows {kind : JoinKind} {f g : Row α → Row α} {out out' : Row α → β}
    (hon : ∀ l ∈ left, ∀ r ∈ right, on' (f l ++ g r) ↔ on (l ++ r))
    (hout : ∀ l ∈ left, ∀ r ∈ right, out' (f l ++ g r) = out (l ++ r))
    (hleft : ∀ l ∈ left, out' (f l ++ Row.nulls rightWidth') = out (l ++ Row.nulls rightWidth))
    (hright : ∀ r ∈ right, out' (Row.nulls leftWidth' ++ g r) = out (Row.nulls leftWidth ++ r)) :
    (kind.rows leftWidth' rightWidth' on' (left.map f) (right.map g)).map out'
      = (kind.rows leftWidth rightWidth on left right).map out := by
  simp only [rows,Multiset.map_add,map_matched hon hout]
  congr 1
  · congr 1
    split
    · rw [Multiset.filter_map,Multiset.map_map,Multiset.map_map,Multiset.map_map]
      have hlone : left.filter ((fun l => ∀ r ∈ right.map g, ¬ on' (l ++ r)) ∘ f)
          = left.filter fun l => ∀ r ∈ right, ¬ on (l ++ r) :=
        Multiset.filter_congr fun l hl => by
          simp only [Function.comp_apply,Multiset.mem_map,forall_exists_index,and_imp,
            forall_apply_eq_imp_iff₂]
          exact forall₂_congr fun r hr => not_congr (hon l hl r hr)
      rw [hlone]
      exact Multiset.map_congr rfl fun l hl => hleft l (Multiset.mem_filter.1 hl).1
    · rfl
  · split
    · rw [Multiset.filter_map,Multiset.map_map,Multiset.map_map,Multiset.map_map]
      have hlone : right.filter ((fun r => ∀ l ∈ left.map f, ¬ on' (l ++ r)) ∘ g)
          = right.filter fun r => ∀ l ∈ left, ¬ on (l ++ r) :=
        Multiset.filter_congr fun r hr => by
          simp only [Function.comp_apply,Multiset.mem_map,forall_exists_index,and_imp,
            forall_apply_eq_imp_iff₂]
          exact forall₂_congr fun l hl => not_congr (hon l hl r hr)
      rw [hlone]
      exact Multiset.map_congr rfl fun r hr => hright r (Multiset.mem_filter.1 hr).1
    · rfl

end QueryPlan.JoinKind
