import QueryPlan.Rewrite.Rule

/-! # Columns pruned below joins -/
namespace QueryPlan.ColumnPruning

/-- The columns to keep of an input: those needed, or the first where none is, so that the
input still has rows. -/
def keep (needed : List Nat) (width : Nat) : List Nat :=
  if needed.isEmpty && decide (0 < width) then [0] else needed

/-- The input with only the given columns. -/
def prune (input : Plan) (cols : List Nat) : Plan :=
  if cols.length = input.width then input
  else
    let given := input.fields
    input.projectDerived (cols.map fun c => .column c (((given[c]?).map Field.type).getD .null))

/-- New number of a column of the join once both sides are pruned. -/
def moved (leftWidth : Nat) (left right : List Nat) (i : Nat) : Nat :=
  if i < leftWidth then Expr.positionIn left i
  else left.length + Expr.positionIn right (i - leftWidth)

/-- Narrows both sides of a join to the columns that the projection above it and the join
condition need. -/
def apply : Plan → Except QueryError (Option Plan)
  | .project (.join left right on kind) exprs names =>
    let needed := (Expr.addColumns (Expr.addColumnsOf [] exprs) on).mergeSort (· ≤ ·)
    let fromLeft := keep (needed.filter (· < left.width)) left.width
    let fromRight := keep ((needed.filter (left.width ≤ ·)).map (· - left.width)) right.width
    if fromLeft.length = left.width ∧ fromRight.length = right.width then .ok none
    else
      let move := moved left.width fromLeft fromRight
      .ok (some (.project
        (.join (prune left fromLeft) (prune right fromRight) (on.renumber move) kind)
        (exprs.map (Expr.renumber move)) names))
  | _ => .ok none

private theorem prune_height (p : Plan) (cols : List Nat) : (prune p cols).height ≤ p.height+1 := by
  unfold prune
  split
  · omega
  · simp [Plan.projectDerived,Plan.height]

private theorem rank_apply (p r : Plan) (h : apply p = .ok (some r)) :
    ∀ q ∈ r.inputs, q.rank < p.rank := by
  unfold apply at h
  split at h
  · rename_i left right on kind exprs names
    dsimp only at h
    split at h
    · cases h
    · simp only [Except.ok.injEq,Option.some.injEq] at h
      subst h
      intro q hq
      simp only [Plan.inputs,List.mem_singleton] at hq
      subst hq
      have hl := fun cols => prune_height left cols
      have hr := fun cols => prune_height right cols
      simp only [Plan.rank,Plan.isRipe,Plan.height]
      grind
  · cases h

def rule : RewriteRule where
  name := "ProjectJoinTranspose"
  apply := apply
  rank_apply := rank_apply

end QueryPlan.ColumnPruning
