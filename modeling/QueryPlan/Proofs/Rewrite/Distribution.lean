import QueryPlan.Proofs.Rewrite.PassBounds

/-! # Where the conjuncts of a pushed filter go

A filter on an inner join and the condition of the join are taken apart and put together again. Each
conjunct of the two is found again in exactly one place, which is as far down as its columns allow. -/
namespace QueryPlan.FilterPushing
open Plan

/-- A plan below a new filter with the given conjuncts, or the plan as it was if there are none. -/
inductive Filtered (p : Plan) : List Expr → Plan → Prop
  | unfiltered : Filtered p [] p
  | filter (condition : Expr) :
      condition.conjuncts ≠ [] → Filtered p condition.conjuncts (.filter p condition)

/-- Conjuncts over the row of a join are handed to the left input, to the right one and, where they
refer to both sides or to no column, to the join itself. The right ones are shifted down to the row
of the right input; none of them refers to a column that this would drop below zero. -/
structure Distributes (leftWidth rightWidth : Nat) (whole ls rs both : List Expr) : Prop where
  perm : (ls ++ rs.map (Expr.shiftUp leftWidth) ++ both).Perm whole
  left : ∀ e ∈ ls, e.occurrences ≠ [] ∧ ∀ i ∈ e.occurrences, i < leftWidth
  right : ∀ e ∈ rs, e.occurrences ≠ [] ∧ ∀ i ∈ e.occurrences, i < rightWidth
  shifted : ∃ es : List Expr, rs = es.map (Expr.shiftDown leftWidth) ∧
    ∀ e ∈ es, e ∈ whole ∧ ∀ i ∈ e.occurrences, leftWidth ≤ i
  both : ∀ e ∈ both, e.occurrences = [] ∨
    (∃ i ∈ e.occurrences, i < leftWidth) ∧ ∃ i ∈ e.occurrences, leftWidth ≤ i

variable {w : Nat} {condition on e : Expr} {es : List Expr} {s : Side}

/-! ## The conjuncts of each side -/

theorem perm_among : (among w condition on .left ++ among w condition on .right
    ++ among w condition on .both).Perm (condition.conjuncts ++ on.conjuncts) := by
  have hleft := List.filter_append_perm (fun e => side w e == .left)
    (condition.conjuncts ++ on.conjuncts)
  have hrest := List.filter_append_perm (fun e => side w e == .right)
    ((condition.conjuncts ++ on.conjuncts).filter fun e => !(side w e == .left))
  rw [List.filter_filter,List.filter_filter] at hrest
  have hright : ∀ e, (side w e == .right && !(side w e == .left)) = (side w e == .right) :=
    fun e => by cases side w e <;> rfl
  have hboth : ∀ e, (!(side w e == .right) && !(side w e == .left)) = (side w e == .both) :=
    fun e => by cases side w e <;> rfl
  simp only [hright,hboth] at hrest
  rw [List.append_assoc]
  exact (hrest.append_left _).trans hleft

theorem conjuncts_of_mem_among (h : e ∈ among w condition on s) : e.conjuncts = [e] := by
  rcases List.mem_append.1 (List.mem_filter.1 h).1 with h|h
  · exact Expr.conjuncts_of_mem h
  · exact Expr.conjuncts_of_mem h

theorem filtered_of_conjuncts {p : Plan} (h : ∀ e ∈ es, e.conjuncts = [e]) : Filtered p es (filtered p es) := by
  have hall := Expr.conjuncts_all_of_conjuncts h
  unfold filtered
  split
  case isTrue hempty =>
    rw [List.isEmpty_iff.1 hempty]
    exact .unfiltered
  case isFalse hne =>
    have hfilter : Filtered p (Expr.all es).conjuncts (.filter p (Expr.all es)) :=
      .filter _ (by rw [hall]; simpa using hne)
    rwa [hall] at hfilter

theorem distributes_among {v : Nat} (hcondition : ∀ i ∈ condition.occurrences, i < w+v)
    (hon : ∀ i ∈ on.occurrences, i < w+v) :
    Distributes w v (condition.conjuncts ++ on.conjuncts) (among w condition on .left)
      ((among w condition on .right).map (Expr.shiftDown w)) (among w condition on .both) where
  perm := by
    have hshift : ((among w condition on .right).map (Expr.shiftDown w)).map (Expr.shiftUp w)
        = among w condition on .right := by
      rw [List.map_map]
      refine (List.map_congr_left fun e he => ?_).trans (List.map_id _)
      exact Expr.shiftUp_shiftDown (le_of_side_right (side_of_mem_among he))
    rw [hshift]
    exact perm_among
  left e he := by
    have hside := side_of_mem_among he
    exact ⟨occurrences_ne_nil_of_side (w := w) (by simp [hside]),lt_of_side_left hside⟩
  right := by
    refine List.forall_mem_map.2 fun e he => ?_
    have hside := side_of_mem_among he
    have hlt : ∀ i ∈ e.occurrences, i < w+v := by
      rcases List.mem_append.1 (List.mem_filter.1 he).1 with h|h
      · exact fun i hi => hcondition i (Expr.occurrences_of_mem_conjuncts h i hi)
      · exact fun i hi => hon i (Expr.occurrences_of_mem_conjuncts h i hi)
    rw [Expr.shiftDown,Expr.occurrences_renumber]
    refine ⟨by simpa using occurrences_ne_nil_of_side (w := w) (by simp [hside]),?_⟩
    refine List.forall_mem_map.2 fun i hi => ?_
    have hle := le_of_side_right hside i hi
    have := hlt i hi
    omega
  shifted := ⟨_,rfl,fun e he => ⟨(List.mem_filter.1 he).1,le_of_side_right (side_of_mem_among he)⟩⟩
  both e he := occurrences_of_side_both (side_of_mem_among he)

/-- A filter on an inner join whose columns are in range becomes an inner join. The conjuncts of the
filter and of the join are distributed to new filters below and to the new join, so that none is lost,
none doubled and none misplaced. A loop that ends before its limit leaves no filter on an inner
join, at any depth. -/
theorem distributes_conjuncts :
    (∀ (left right : Plan) (on condition : Expr),
      InRange (.filter (.join left right on .inner) condition) → InRange (.join left right on .inner) →
      ∃ newLeft newRight newOn ls rs, apply (.filter (.join left right on .inner) condition)
          = .ok (some (.join newLeft newRight newOn .inner)) ∧
        Filtered left ls newLeft ∧ Filtered right rs newRight ∧
        Distributes left.width right.width (condition.conjuncts ++ on.conjuncts) ls rs newOn.conjuncts) ∧
    ∀ (limit passes : Nat) (p q : Plan), rule.settle limit p = .ok (q,passes) → passes < limit →
      ∀ (left right : Plan) (on condition : Expr),
        .filter (.join left right on .inner) condition ∉ q.operators := by
  constructor
  · intro left right on condition hcondition hon
    have hboth : (Expr.all (among left.width condition on .both)).conjuncts
        = among left.width condition on .both :=
      Expr.conjuncts_all_of_conjuncts fun e he => conjuncts_of_mem_among he
    refine ⟨_,_,_,_,_,rfl,filtered_of_conjuncts fun e he => conjuncts_of_mem_among he,
      filtered_of_conjuncts (List.forall_mem_map.2 fun e he => ?_),?_⟩
    · rw [Expr.shiftDown,Expr.conjuncts_renumber,conjuncts_of_mem_among he]
      rfl
    · exact hboth ▸ distributes_among hcondition hon
  · intro limit passes p q h hlimit left right on condition hmem
    have hnone : rule.apply (.filter (.join left right on .inner) condition) = .ok none :=
      RewriteRule.rests_of_settle h hlimit _ hmem
    exact apply_eq_none_iff.1 hnone left right on rfl

/-- A nested conjunction with a conjunct for each place, and TRUE, which is for none. -/
def mixedCondition : Expr :=
  .call .and [.call .and [.call .gt [.column 1 .integer,.literal (.integer 10)] .boolean,
      .call .eq [.column 4 .varchar,.literal (.string "Aachen")] .boolean] .boolean,
    .true,.call .eq [.column 2 .integer,.column 3 .integer] .boolean] .boolean

theorem distributes_conjuncts_mixedCondition :
    InRange (.filter (.join (.scan orders) (.scan customers) .true .inner) mixedCondition) ∧
    InRange (.join (.scan orders) (.scan customers) .true .inner) ∧
    (∃ newLeft newRight newOn ls rs,
      apply (.filter (.join (.scan orders) (.scan customers) .true .inner) mixedCondition)
        = .ok (some (.join newLeft newRight newOn .inner)) ∧
      Filtered (.scan orders) ls newLeft ∧ Filtered (.scan customers) rs newRight ∧
      Distributes orders.width customers.width (mixedCondition.conjuncts ++ Expr.true.conjuncts)
        ls rs newOn.conjuncts) ∧
    rule.settle 10 filteredTwice = .ok (filteredBelow,2) ∧
    ∀ (left right : Plan) (on condition : Expr),
      .filter (.join left right on .inner) condition ∉ filteredBelow.operators := by
  have hcondition : InRange (.filter (.join (.scan orders) (.scan customers) .true .inner)
      mixedCondition) := by decide
  have hon : InRange (.join (.scan orders) (.scan customers) .true .inner) := by decide
  exact ⟨hcondition,hon,distributes_conjuncts.1 _ _ _ _ hcondition hon,settle_filteredTwice,
    distributes_conjuncts.2 10 2 _ _ settle_filteredTwice (by decide)⟩

end QueryPlan.FilterPushing
