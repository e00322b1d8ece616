import Mathlib.Data.List.GetD
import QueryPlan.Proofs.Expr.Calls
import QueryPlan.Proofs.Rewrite.Rows

/-! # Filters pushed into joins keep columns and rows -/
namespace QueryPlan.FilterPushing
open Plan

/-- The conjuncts of a filter and of the join below it, each on its side. -/
def among (leftWidth : Nat) (condition on : Expr) (s : Side) : List Expr :=
  (condition.conjuncts ++ on.conjuncts).filter fun e => side leftWidth e == s

theorem side_of_mem_among {w : Nat} {condition on e : Expr} {s : Side}
    (h : e ∈ among w condition on s) : side w e = s := by
  simpa using (List.mem_filter.1 h).2

theorem forall_among {w : Nat} {condition on : Expr} {P : Expr → Prop} :
    (∀ s, ∀ e ∈ among w condition on s, P e) ↔ ∀ e ∈ condition.conjuncts ++ on.conjuncts, P e :=
  ⟨fun h e he => h (side w e) e (List.mem_filter.2 ⟨he,by simp⟩),
    fun h _ e he => h e (List.mem_filter.1 he).1⟩

/-- What the rule makes of a filter on an inner join. -/
theorem apply_eq_some {p q : Plan} (h : apply p = .ok (some q)) :
    ∃ left right on condition, p = .filter (.join left right on .inner) condition ∧
      q = .join (filtered left (among left.width condition on .left))
        (filtered right ((among left.width condition on .right).map (Expr.shiftDown left.width)))
        (Expr.all (among left.width condition on .both)) .inner := by
  unfold apply at h
  split at h
  · rename_i left right on condition
    cases h
    exact ⟨left,right,on,condition,rfl,rfl⟩
  · cases h

theorem lt_of_side_left {w : Nat} {e : Expr} (h : side w e = .left) : ∀ i ∈ e.occurrences, i < w := by
  unfold side at h
  dsimp only at h
  split at h
  · cases h
  · split at h
    · rename_i hl
      intro i hi
      simpa using List.all_eq_true.1 hl i (Expr.mem_columns.2 hi)
    · split at h <;> cases h

theorem le_of_side_right {w : Nat} {e : Expr} (h : side w e = .right) :
    ∀ i ∈ e.occurrences, w ≤ i := by
  unfold side at h
  dsimp only at h
  split at h
  · cases h
  · split at h
    · cases h
    · split at h
      · rename_i hr
        intro i hi
        simpa using List.all_eq_true.1 hr i (Expr.mem_columns.2 hi)
      · cases h

theorem occurrences_ne_nil_of_side {w : Nat} {e : Expr} (h : side w e ≠ .both) : e.occurrences ≠ [] := by
  intro hnil
  exact h (if_pos (List.isEmpty_iff.2 (Expr.columns_eq_nil_iff.2 hnil)))

theorem occurrences_of_side_both {w : Nat} {e : Expr} (h : side w e = .both) : e.occurrences = [] ∨
    (∃ i ∈ e.occurrences, i < w) ∧ ∃ i ∈ e.occurrences, w ≤ i := by
  unfold side at h
  dsimp only at h
  split at h
  case isTrue hempty => exact .inl (Expr.columns_eq_nil_iff.1 (List.isEmpty_iff.1 hempty))
  case isFalse =>
    split at h
    case isTrue => cases h
    case isFalse hleft =>
      split at h
      case isTrue => cases h
      case isFalse hright =>
        simp only [List.all_eq_true,decide_eq_true_eq,Expr.mem_columns,not_forall,exists_prop,
          Nat.not_lt,Nat.not_le] at hleft hright
        exact .inr ⟨hright,hleft⟩

/-- What is left of conjuncts that are pushed down is a filter, or nothing. -/
@[elab_as_elim]
theorem filtered_induction {P : Plan → Prop} {p : Plan} {es : List Expr} (hp : P p)
    (hfilter : es ≠ [] → P (.filter p (Expr.all es))) : P (filtered p es) := by
  unfold filtered
  split
  · exact hp
  · rename_i hne
    exact hfilter (by simpa using hne)

theorem everywhere_filtered {P : Plan → Prop} {p : Plan} {es : List Expr}
    (hP : P (.filter p (Expr.all es))) (h : p.Everywhere P) : (filtered p es).Everywhere P :=
  filtered_induction h fun _ => everywhere_filter.2 ⟨hP,h⟩

@[simp] theorem types_filtered (p : Plan) (es : List Expr) : (filtered p es).types = p.types :=
  filtered_induction rfl fun _ => rfl

@[simp] theorem scans_filtered (p : Plan) (es : List Expr) : (filtered p es).scans = p.scans :=
  filtered_induction rfl fun _ => rfl

theorem wellPlaced_filtered {p : Plan} {es : List Expr} (hp : p.WellPlaced)
    (h : ∀ e ∈ es, e.Fits p.types) : (filtered p es).WellPlaced :=
  filtered_induction hp fun _ => wellPlaced_filter.2 ⟨Expr.fits_all h,hp⟩

theorem apply_keepsShape {p q : Plan} (h : apply p = .ok (some q)) : KeepsShape p q := by
  obtain ⟨left,right,on,condition,rfl,rfl⟩ := apply_eq_some h
  intro hp
  obtain ⟨hc,hj⟩ := wellPlaced_filter.1 hp
  obtain ⟨hon,hl,hr⟩ := wellPlaced_join.1 hj
  have hfits : ∀ s, ∀ e ∈ among left.width condition on s, e.Fits (left.types ++ right.types) := by
    refine forall_among.2 fun e he => ?_
    rcases List.mem_append.1 he with he|he
    · exact Expr.Everywhere.conjuncts hc e he
    · exact Expr.Everywhere.conjuncts hon e he
  refine ⟨wellPlaced_join.2 ⟨?_,wellPlaced_filtered hl ?_,wellPlaced_filtered hr ?_⟩,?_,?_⟩
  · simpa using Expr.fits_all (hfits .both)
  · intro e he
    refine (hfits .left e he).congr fun i hi => ?_
    have hi := lt_of_side_left (side_of_mem_among he) i hi
    rw [← hl.length_types] at hi
    rw [List.getElem?_append_left hi]
  · refine List.forall_mem_map.2 fun e he => (hfits .right e he).renumber fun i hi => ?_
    have hi := le_of_side_right (side_of_mem_among he) i hi
    rw [List.getElem?_append_right (by rw [hl.length_types]; exact hi),hl.length_types]
  · simp [types]
  · simp [scans]

theorem sound_filtered {conditions : Prop} {p : Plan} {es : List Expr}
    (hp : p.Everywhere (Sound conditions)) (h : ∀ e ∈ es, Expr.Condition e) :
    (filtered p es).Everywhere (Sound conditions) := by
  have hall := Expr.Condition.all h
  exact everywhere_filtered (sound_filter.2 ⟨hall.1,fun _ => hall.2⟩) hp

/-- Conjuncts may meet in a new conjunction, which is typed if all of them are boolean. -/
theorem apply_keepsSound {conditions : Prop} (hconditions : conditions) {p q : Plan}
    (h : apply p = .ok (some q)) : KeepsSound conditions p q := by
  obtain ⟨left,right,on,condition,rfl,rfl⟩ := apply_eq_some h
  intro hp
  obtain ⟨hc,hj⟩ := everywhere_filter.1 hp
  obtain ⟨hon,hl,hr⟩ := everywhere_join.1 hj
  obtain ⟨hct,hcb⟩ := sound_filter.1 hc
  obtain ⟨hot,hob⟩ := sound_join.1 hon
  have hamong : ∀ s, ∀ e ∈ among left.width condition on s, Expr.Condition e := by
    refine forall_among.2 fun e he => ?_
    rcases List.mem_append.1 he with he|he
    · exact Expr.Condition.conjuncts ⟨hct,hcb hconditions⟩ e he
    · exact Expr.Condition.conjuncts ⟨hot,hob hconditions⟩ e he
  have hall := Expr.Condition.all (hamong .both)
  refine everywhere_join.2 ⟨sound_join.2 ⟨hall.1,fun _ => hall.2⟩,sound_filtered hl (hamong .left),
    sound_filtered hr ?_⟩
  exact List.forall_mem_map.2 fun e he => (hamong .right e he).renumber

@[simp] theorem fields_filtered (p : Plan) (es : List Expr) : (filtered p es).fields = p.fields := by
  unfold filtered
  split <;> rfl

theorem apply_keepsFields {p q : Plan} (h : apply p = .ok (some q)) : KeepsFields p q := by
  refine ⟨apply_keepsShape h,fun _ => ?_⟩
  obtain ⟨left,right,on,condition,rfl,rfl⟩ := apply_eq_some h
  simp [fields]

/-! ## Rows -/

variable {α : Type} {I : Interpretation α} {w : Nat} {condition on : Expr} {l r : Row α}

theorem holds_left {e : Expr} (h : side l.length e = .left) : I.holds e (l ++ r) ↔ I.holds e l := by
  have he : I.eval l e = I.eval (l ++ r) e := Interpretation.eval_congr fun i hi => by
    rw [List.getD_append _ _ _ _ (lt_of_side_left h i hi)]
  rw [Interpretation.holds,Interpretation.holds,he]

theorem holds_right {e : Expr} (h : side l.length e = .right) :
    I.holds e (l ++ r) ↔ I.holds (e.shiftDown l.length) r := by
  have he : I.eval r (e.shiftDown l.length) = I.eval (l ++ r) e :=
    Interpretation.eval_renumber fun i hi => by
      rw [List.getD_append_right _ _ _ _ (le_of_side_right h i hi)]
  rw [Interpretation.holds,Interpretation.holds,he]

/-- A pair of rows passes the filter and the join exactly if each row passes the conjuncts of its
side and the pair the others. -/
theorem holds_pair (hl : l.length = w) :
    I.holds condition (l ++ r) ∧ I.holds on (l ++ r) ↔
      (∀ e ∈ among w condition on .left, I.holds e l) ∧
      (∀ e ∈ (among w condition on .right).map (Expr.shiftDown w), I.holds e r) ∧
      I.holds (Expr.all (among w condition on .both)) (l ++ r) := by
  have hall : I.holds condition (l ++ r) ∧ I.holds on (l ++ r) ↔
      ∀ s, ∀ e ∈ among w condition on s, I.holds e (l ++ r) := by
    rw [forall_among,← Interpretation.holds_conjuncts,← Interpretation.holds_conjuncts (e := on)]
    simp [or_imp,forall_and]
  have hleft : (∀ e ∈ among w condition on .left, I.holds e (l ++ r)) ↔
      ∀ e ∈ among w condition on .left, I.holds e l :=
    forall₂_congr fun e he => holds_left (by rw [hl]; exact side_of_mem_among he)
  have hright : (∀ e ∈ among w condition on .right, I.holds e (l ++ r)) ↔
      ∀ e ∈ (among w condition on .right).map (Expr.shiftDown w), I.holds e r := by
    rw [List.forall_mem_map]
    refine forall₂_congr fun e he => ?_
    rw [← hl]
    exact holds_right (by rw [hl]; exact side_of_mem_among he)
  rw [hall,Interpretation.holds_all,← hleft,← hright]
  constructor
  · intro h
    exact ⟨h .left,h .right,h .both⟩
  · rintro ⟨h₁,h₂,h₃⟩ s
    cases s <;> assumption

variable [DecidableEq α] {db : Database α}

theorem rows_filtered (p : Plan) (es : List Expr) :
    (filtered p es).rows I db = (p.rows I db).filter fun r => ∀ e ∈ es, I.holds e r := by
  unfold filtered
  split
  · rename_i h
    rw [List.isEmpty_iff.1 h]
    simp
  · exact Multiset.filter_congr fun r _ => Interpretation.holds_all

theorem apply_keepsRows {p q : Plan} (h : apply p = .ok (some q)) : KeepsRows I db p q := by
  refine ⟨apply_keepsShape h,fun _ => ?_⟩
  obtain ⟨left,right,on,condition,rfl,rfl⟩ := apply_eq_some h
  simp only [rows,JoinKind.rows_inner,rows_filtered,JoinKind.filter_matched]
  exact JoinKind.matched_filter fun l hl r _ => holds_pair (length_row l hl)

end QueryPlan.FilterPushing
