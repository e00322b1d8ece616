import QueryPlan.Proofs.Rewrite.ArrowScans
import QueryPlan.Proofs.Rewrite.AverageSplit
import QueryPlan.Proofs.Rewrite.ColumnPruning
import QueryPlan.Proofs.Rewrite.FilterPushing
import QueryPlan.Rewrite.Program

/-! # Sides of join equalities

No rule turns an equality between the two inputs of a join into one within an input: filters bring
only such conjuncts into a join condition as refer to both sides, and pruning leaves every column on
its side. -/
namespace QueryPlan

/-- One of two columns belongs to the left input, of the given width, and the other does not. -/
def Straddles (leftWidth a b : Nat) : Prop := min a b < leftWidth ∧ leftWidth ≤ max a b

/-- If a condition is an equality of two columns, they stand on different sides. -/
def Expr.JoinsAcross (leftWidth : Nat) (condition : Expr) : Prop :=
  ∀ a b s t u, condition = .call .eq [.column a s,.column b t] u → Straddles leftWidth a b

namespace Expr

@[simp] theorem joinsAcross_columnEquality {w a b : Nat} {s t u : SqlType} :
    (call .eq [column a s,column b t] u).JoinsAcross w ↔ Straddles w a b := by
  refine ⟨fun h => h a b s t u rfl,fun h a' b' s' t' u' he => ?_⟩
  cases he
  exact h

theorem renumber_eq_column {f : Nat → Nat} {e : Expr} {j : Nat} {t : SqlType}
    (h : e.renumber f = .column j t) : ∃ i, e = .column i t ∧ j = f i := by
  cases e with
  | column i s =>
    rw [renumber] at h
    cases h
    exact ⟨i,rfl,rfl⟩
  | literal v => cases h
  | call op args s =>
    rw [renumber] at h
    cases h

theorem renumber_eq_columnEquality {f : Nat → Nat} {e : Expr} {a b : Nat} {s t u : SqlType}
    (h : e.renumber f = .call .eq [.column a s,.column b t] u) :
    ∃ i j, e = .call .eq [.column i s,.column j t] u ∧ a = f i ∧ b = f j := by
  cases e with
  | column i s => cases h
  | literal v => cases h
  | call op args u' =>
    rw [renumber_call] at h
    injection h with hop hargs hu
    obtain ⟨x,xs,rfl,hx,hxs⟩ := List.map_eq_cons_iff.1 hargs
    obtain ⟨y,ys,rfl,hy,hys⟩ := List.map_eq_cons_iff.1 hxs
    obtain rfl := List.map_eq_nil_iff.1 hys
    obtain ⟨i,rfl,rfl⟩ := renumber_eq_column hx
    obtain ⟨j,rfl,rfl⟩ := renumber_eq_column hy
    exact ⟨i,j,by rw [hop,hu],rfl,rfl⟩

/-- Columns that stay on their sides still join across. -/
theorem JoinsAcross.renumber {f : Nat → Nat} {e : Expr} {w w' : Nat} (h : e.JoinsAcross w)
    (hf : ∀ i ∈ e.occurrences, i < w ↔ f i < w') : (e.renumber f).JoinsAcross w' := by
  intro a b s t u he
  obtain ⟨i,j,rfl,rfl,rfl⟩ := renumber_eq_columnEquality he
  obtain ⟨hlow,hhigh⟩ := joinsAcross_columnEquality.1 h
  have hi := hf i (by simp [occurrences])
  have hj := hf j (by simp [occurrences])
  constructor <;> omega

end Expr

namespace Plan

/-- The condition at the root joins across, if it belongs to a join. -/
def JoinsAcross : Plan → Prop
  | join left _ condition _ => condition.JoinsAcross left.width
  | _ => True

/-- A plan that is well placed becomes another one of the same shape, all joins of which are across
if those of the first are. -/
def KeepsAcross (p q : Plan) : Prop :=
  KeepsShape p q ∧ (p.WellPlaced → p.Everywhere JoinsAcross → q.Everywhere JoinsAcross)

theorem keepsAcross_compatible : Compatible KeepsAcross where
  refl p := ⟨keepsShape_compatible.refl p,fun _ h => h⟩
  trans p q r := by
    rintro ⟨hpq,h⟩ ⟨hqr,h'⟩
    exact ⟨keepsShape_compatible.trans p q r hpq hqr,fun hp hacross => h' (hpq hp).1 (h hp hacross)⟩
  filter p q c := by
    rintro ⟨hpq,h⟩
    refine ⟨keepsShape_compatible.filter p q c hpq,fun hp hacross => ?_⟩
    exact everywhere_filter.2 ⟨trivial,h (wellPlaced_filter.1 hp).2 (everywhere_filter.1 hacross).2⟩
  project p q es ns := by
    rintro ⟨hpq,h⟩
    refine ⟨keepsShape_compatible.project p q es ns hpq,fun hp hacross => ?_⟩
    exact everywhere_project.2
      ⟨trivial,h (wellPlaced_project.1 hp).2.2 (everywhere_project.1 hacross).2⟩
  join p q p' q' c k := by
    rintro ⟨hpq,h⟩ ⟨hpq',h'⟩
    refine ⟨keepsShape_compatible.join p q p' q' c k hpq hpq',fun hp hacross => ?_⟩
    obtain ⟨-,hl,hr⟩ := wellPlaced_join.1 hp
    obtain ⟨hc,hleft,hright⟩ := everywhere_join.1 hacross
    refine everywhere_join.2 ⟨?_,h hl hleft,h' hr hright⟩
    rwa [JoinsAcross,hpq.width_eq hl]
  aggregate p q gs cs := by
    rintro ⟨hpq,h⟩
    refine ⟨keepsShape_compatible.aggregate p q gs cs hpq,fun hp hacross => ?_⟩
    exact everywhere_aggregate.2
      ⟨trivial,h (wellPlaced_aggregate.1 hp).2 (everywhere_aggregate.1 hacross).2⟩

end Plan

open Plan

namespace AverageSplit

theorem apply_keepsAcross {p q : Plan} (h : apply p = .ok (some q)) : KeepsAcross p q := by
  refine ⟨apply_keepsShape h,fun _ hacross => ?_⟩
  obtain ⟨input,groups,calls,placed,values,rfl,-,rfl⟩ := apply_eq_some h
  have hinput := (everywhere_aggregate.1 hacross).2
  exact everywhere_project.2 ⟨trivial,everywhere_aggregate.2 ⟨trivial,hinput⟩⟩

end AverageSplit

namespace FilterPushing

/-- A comparison of two columns stays in the join condition if it needs both sides. -/
theorem straddles_of_side_both {w a b : Nat} {s t u : SqlType}
    (h : side w (.call .eq [.column a s,.column b t] u) = .both) : Straddles w a b := by
  have hcolumns : ∀ i, i ∈ (Expr.call .eq [.column a s,.column b t] u).columns ↔ i = a ∨ i = b :=
    fun i => by simp [Expr.occurrences]
  unfold side at h
  dsimp only at h
  generalize (Expr.call .eq [.column a s,.column b t] u).columns = cols at hcolumns h
  have hall : ∀ p : Nat → Bool, ¬ cols.all p → ¬ (p a ∧ p b) := fun p hp hab =>
    hp (List.all_eq_true.2 fun i hi => by rcases (hcolumns i).1 hi with rfl | rfl <;> simp [hab])
  split at h
  case isTrue hempty =>
    have ha := (hcolumns a).2 (.inl rfl)
    simp [List.isEmpty_iff.1 hempty] at ha
  case isFalse =>
    split at h
    case isTrue => cases h
    case isFalse hleft =>
      split at h
      case isTrue => cases h
      case isFalse hright =>
        have hleft := hall _ hleft
        have hright := hall _ hright
        simp only [decide_eq_true_eq] at hleft hright
        constructor <;> omega

theorem joinsAcross_all {w : Nat} {es : List Expr} (h : ∀ e ∈ es, side w e = .both) :
    (Expr.all es).JoinsAcross w := by
  intro a b s t u he
  match es with
  | [] => cases he
  | [e] =>
    have hboth := h e (by simp)
    rw [show e = .call .eq [.column a s,.column b t] u from he] at hboth
    exact straddles_of_side_both hboth
  | e :: e' :: es => cases he

@[simp] theorem width_filtered (p : Plan) (es : List Expr) : (filtered p es).width = p.width :=
  filtered_induction rfl fun _ => rfl

theorem apply_keepsAcross {p q : Plan} (h : apply p = .ok (some q)) : KeepsAcross p q := by
  refine ⟨apply_keepsShape h,fun _ hacross => ?_⟩
  obtain ⟨left,right,on,condition,rfl,rfl⟩ := apply_eq_some h
  obtain ⟨-,hl,hr⟩ := everywhere_join.1 (everywhere_filter.1 hacross).2
  refine everywhere_join.2 ⟨?_,everywhere_filtered trivial hl,everywhere_filtered trivial hr⟩
  rw [JoinsAcross,width_filtered]
  exact joinsAcross_all fun e he => side_of_mem_among he

end FilterPushing

namespace ColumnPruning

/-- A column is moved to the side that it comes from. -/
theorem lt_iff_moved_lt {w i : Nat} {left right : List Nat} (h : i < w → i ∈ left) :
    i < w ↔ moved w left right i < left.length := by
  unfold moved
  split
  case isTrue hi => simpa [hi] using Expr.positionIn_lt (h hi)
  case isFalse hi => simp [hi]

theorem apply_keepsAcross {p q : Plan} (h : apply p = .ok (some q)) : KeepsAcross p q := by
  refine ⟨apply_keepsShape h,fun _ hacross => ?_⟩
  obtain ⟨left,right,on,kind,exprs,names,rfl,rfl⟩ := apply_eq_some h
  obtain ⟨hon,hl,hr⟩ := everywhere_join.1 (everywhere_project.1 hacross).2
  refine everywhere_project.2 ⟨trivial,everywhere_join.2
    ⟨?_,everywhere_pruned (fun _ _ => trivial) hl,everywhere_pruned (fun _ _ => trivial) hr⟩⟩
  rw [JoinsAcross,width_prune]
  exact hon.renumber fun i hi => lt_iff_moved_lt fun hlt => mem_fromLeft (mem_needed.2 (.inr hi)) hlt

end ColumnPruning

theorem IdentityProject.apply_keepsAcross {p q : Plan} (h : apply p = .ok (some q)) :
    KeepsAcross p q := by
  refine ⟨apply_keepsShape h,fun _ hacross => ?_⟩
  obtain ⟨exprs,names,rfl,-⟩ := apply_eq_some h
  exact (everywhere_project.1 hacross).2

namespace ArrowScans

variable {p q : Plan}

theorem across_arrowScan {t : Table} {cols : List Nat} :
    (arrowScan t cols).Everywhere JoinsAcross :=
  everywhere_arrowScan.2 trivial

theorem projectScan_keepsAcross (h : projectScan p = .ok (some q)) : KeepsAcross p q := by
  refine ⟨projectScan_keepsShape h,fun _ _ => ?_⟩
  obtain ⟨t,exprs,names,rfl,rfl⟩ := projectScan_eq_some h
  exact everywhere_unlessIdentity trivial across_arrowScan

theorem wholeScan_keepsAcross (h : wholeScan p = .ok (some q)) : KeepsAcross p q := by
  refine ⟨wholeScan_keepsShape h,fun _ _ => ?_⟩
  obtain ⟨t,rfl,rfl⟩ := wholeScan_eq_some h
  exact across_arrowScan

theorem filterScan_keepsAcross (h : filterScan p = .ok (some q)) : KeepsAcross p q := by
  refine ⟨filterScan_keepsShape h,fun _ _ => ?_⟩
  obtain ⟨t,condition,exprs,names,rfl,rfl⟩ := filterScan_eq_some h
  exact everywhere_unlessIdentity trivial (everywhere_filter.2 ⟨trivial,across_arrowScan⟩)

end ArrowScans

theorem apply_keepsAcross {rule : RewriteRule} (hrule : rule ∈ defaultRules) {p q : Plan}
    (h : rule.apply p = .ok (some q)) : KeepsAcross p q := by
  simp only [defaultRules,List.mem_cons,List.not_mem_nil,or_false] at hrule
  rcases hrule with rfl|rfl|rfl|rfl|rfl|rfl|rfl
  · exact AverageSplit.apply_keepsAcross h
  · exact FilterPushing.apply_keepsAcross h
  · exact ColumnPruning.apply_keepsAcross h
  · exact IdentityProject.apply_keepsAcross h
  · exact ArrowScans.projectScan_keepsAcross h
  · exact ArrowScans.wholeScan_keepsAcross h
  · exact ArrowScans.filterScan_keepsAcross h

/-- An optimised plan joins across wherever the plan it comes from does. -/
theorem optimise_keepsAcross {limit : Nat} {p q : Plan}
    (h : (optimise limit defaultRules p).1 = .ok q) : KeepsAcross p q :=
  optimise_induction keepsAcross_compatible (fun _ hrule _ _ => apply_keepsAcross hrule) h

end QueryPlan
