import QueryPlan.Log.Entry
import QueryPlan.Rewrite.ArrowScans
import QueryPlan.Rewrite.AverageSplit
import QueryPlan.Rewrite.ColumnPruning
import QueryPlan.Rewrite.FilterPushing
import QueryPlan.Rewrite.IdentityProject

/-! # The rule program -/
namespace QueryPlan

/-- The rules every plan goes through, in order. -/
def defaultRules : List RewriteRule :=
  [AverageSplit.rule,FilterPushing.rule,ColumnPruning.rule,IdentityProject.rule,
    ArrowScans.projectScanRule,ArrowScans.wholeScanRule,ArrowScans.filterScanRule]

/-- What is logged of a rule that changed the plan in some passes. -/
def RewriteRule.entries (rule : RewriteRule) (limit passes : Nat) : List LogEntry :=
  (if limit ≤ passes then
    [⟨.warn,"RULE_ITERATION_LIMIT",[("rule",rule.name),("limit",toString limit)],false⟩]
  else []) ++
  if 0 < passes then
    [⟨.trace,"RULE_APPLIED",[("rule",rule.name),("passes",toString passes)],false⟩]
  else []

/-- Runs the rules one after the other, each until it changes nothing or its passes reach
the limit. A limit of zero counts as one. -/
def optimise (limit : Nat) : List RewriteRule → Plan → Except QueryError Plan × List LogEntry
  | [],p => (.ok p,[])
  | rule :: rules,p =>
    match rule.settle (max limit 1) p with
    | .error e => (.error e,[])
    | .ok (q,passes) =>
      let (result,entries) := optimise limit rules q
      (result,rule.entries (max limit 1) passes ++ entries)

end QueryPlan
