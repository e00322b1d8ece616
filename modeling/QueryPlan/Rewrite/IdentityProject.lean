import QueryPlan.Rewrite.Rule

/-! # Projections that hand on their input -/
namespace QueryPlan.IdentityProject

/-- Drops an identity projection, also one that renames. -/
def apply : Plan → Except QueryError (Option Plan)
  | .project input exprs _ =>
    if Expr.isIdentity exprs input.width then .ok (some input) else .ok none
  | _ => .ok none

private theorem rank_apply (p r : Plan) (h : apply p = .ok (some r)) :
    ∀ q ∈ r.inputs, q.rank < p.rank := by
  unfold apply at h
  split at h
  · split at h
    · simp only [Except.ok.injEq,Option.some.injEq] at h
      subst h
      intro q hq
      exact Nat.lt_trans (Plan.rank_lt_of_mem_inputs hq)
        (Plan.rank_lt_of_mem_inputs (by simp [Plan.inputs]))
    · cases h
  · cases h

def rule : RewriteRule where
  name := "ProjectRemove"
  apply := apply
  rank_apply := rank_apply

end QueryPlan.IdentityProject
