import QueryPlan.Binding.Query
import QueryPlan.Relation.Explain
import QueryPlan.Rewrite.Program

/-! # From a query text to an optimised plan -/
namespace QueryPlan.Catalog

/-- Binds the query of a text and runs the rule program on its plan. -/
def plan (c : Catalog) (limit : Nat) (rules : List RewriteRule) (text : String) :
    Except QueryError Plan × List LogEntry :=
  match c.bindText text with
  | .error e => (.error e,[])
  | .ok bound =>
    let (result,entries) := optimise limit rules bound
    (result,⟨.trace,"PLAN_BOUND",[("plan",bound.explain)],false⟩ :: entries)

end QueryPlan.Catalog
