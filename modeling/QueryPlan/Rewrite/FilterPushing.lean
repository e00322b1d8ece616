import QueryPlan.Rewrite.Rule

/-! # Filters pushed into and below inner joins -/
namespace QueryPlan.FilterPushing

/-- Where a conjunct over the row of a join belongs: below the left input, below the right
one, or in the join condition. -/
inductive Side where
  | left | right | both
deriving DecidableEq,Repr

/-- A conjunct without columns stays in the join condition. -/
def side (leftWidth : Nat) (conjunct : Expr) : Side :=
  let cols := conjunct.columns
  if cols.isEmpty then .both
  else if cols.all (· < leftWidth) then .left
  else if cols.all (leftWidth ≤ ·) then .right
  else .both

/-- Filters an input unless there is nothing to test. -/
def filtered (input : Plan) (conjuncts : List Expr) : Plan :=
  if conjuncts.isEmpty then input else .filter input (Expr.all conjuncts)

/-- Distributes the conjuncts of a filter on an inner join and of the join itself. -/
def apply : Plan → Except QueryError (Option Plan)
  | .filter (.join left right on .inner) condition =>
    let conjuncts := condition.conjuncts ++ on.conjuncts
    let among (s : Side) := conjuncts.filter fun e => side left.width e == s
    .ok (some (.join (filtered left (among .left))
      (filtered right ((among .right).map (Expr.shiftDown left.width)))
      (Expr.all (among .both)) .inner))
  | _ => .ok none

private theorem filtered_rank (p : Plan) (es : List Expr) : (filtered p es).rank ≤ 2*p.height+2 := by
  unfold filtered
  split
  · have := p.rank_le
    omega
  · simp [Plan.rank,Plan.height,Plan.isRipe]
    omega

private theorem rank_apply (p r : Plan) (h : apply p = .ok (some r)) :
    ∀ q ∈ r.inputs, q.rank < p.rank := by
  unfold apply at h
  split at h
  · rename_i left right on condition
    simp only [Except.ok.injEq,Option.some.injEq] at h
    subst h
    intro q hq
    simp only [Plan.inputs,List.mem_cons,List.not_mem_nil,or_false] at hq
    have hp := Plan.le_rank (.filter (.join left right on .inner) condition)
    simp only [Plan.height] at hp
    rcases hq with rfl | rfl
    · have := filtered_rank left ((condition.conjuncts ++ on.conjuncts).filter fun e =>
        side left.width e == .left)
      omega
    · have := filtered_rank right (((condition.conjuncts ++ on.conjuncts).filter fun e =>
        side left.width e == .right).map (Expr.shiftDown left.width))
      omega
  · cases h

def rule : RewriteRule where
  name := "FilterIntoJoin"
  apply := apply
  rank_apply := rank_apply

end QueryPlan.FilterPushing
