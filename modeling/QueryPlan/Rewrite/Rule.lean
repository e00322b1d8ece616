import QueryPlan.Relation.Basic

/-! # Rewrite rules and passes over a plan

A pass offers a rule every operator from the root down; where the rule rewrites, the
pass goes on below the new operator. A rule brings the measure by which this ends. -/
namespace QueryPlan
namespace Plan

def height : Plan → Nat
  | scan _ | arrowScan _ _ => 1
  | filter input _ | project input _ _ | aggregate input _ _ => input.height + 1
  | join left right _ _ => max left.height right.height + 1

/-- The operators a rule may replace by another one of the same height. -/
def isRipe : Plan → Bool
  | project _ _ _ => true
  | aggregate _ _ calls => calls.any (·.function == .avg)
  | _ => false

/-- Height first; at one height the operators that may still be replaced come last. -/
def rank (p : Plan) : Nat := 2*p.height + if p.isRipe then 1 else 0

theorem rank_le (p : Plan) : p.rank ≤ 2*p.height+1 := by unfold rank; split <;> omega

theorem le_rank (p : Plan) : 2*p.height ≤ p.rank := by unfold rank; omega

theorem height_lt_of_mem_inputs {p q : Plan} (h : q ∈ p.inputs) : q.height < p.height := by
  cases p <;> simp only [inputs,List.mem_cons,List.not_mem_nil,or_false] at h
  case join =>
    rcases h with rfl | rfl <;> simp only [height] <;> omega
  all_goals subst h; simp only [height]; omega

theorem rank_lt_of_mem_inputs {p q : Plan} (h : q ∈ p.inputs) : q.rank < p.rank := by
  have := height_lt_of_mem_inputs h
  have := rank_le q
  have := le_rank p
  omega

/-- Puts new inputs below an operator; a missing one leaves the old. -/
def withInputs : Plan → List Plan → Plan
  | filter _ condition,input :: _ => filter input condition
  | project _ exprs names,input :: _ => project input exprs names
  | aggregate _ groups calls,input :: _ => aggregate input groups calls
  | join _ _ condition kind,left :: right :: _ => join left right condition kind
  | p,_ => p

end Plan

/-- A local rewrite: `none` where it does not match. The operators below a result are of a
lower rank than the operator it replaces, so a pass comes to an end. -/
structure RewriteRule where
  name : String
  apply : Plan → Except QueryError (Option Plan)
  rank : Plan → Nat := Plan.rank
  rank_inputs : ∀ p : Plan, ∀ q ∈ p.inputs, rank q < rank p := by
    exact fun _ _ => Plan.rank_lt_of_mem_inputs
  rank_apply : ∀ p r : Plan, apply p = .ok (some r) → ∀ q ∈ r.inputs, rank q < rank p

namespace RewriteRule

/-- One pass from the root down; `none` when no operator changed. -/
def pass (rule : RewriteRule) (p : Plan) : Except QueryError (Option Plan) :=
  match _h : rule.apply p with
  | .error e => .error e
  | .ok rewritten => do
    let node := rewritten.getD p
    let below ← node.inputs.attach.mapM fun q => rule.pass q.1
    if rewritten.isNone && below.all Option.isNone then return none
    return some (node.withInputs (below.zipWith (fun new old => new.getD old) node.inputs))
termination_by rule.rank p
decreasing_by
  obtain ⟨q,hq⟩ := q
  cases rewritten with
  | none => exact rule.rank_inputs p q hq
  | some r => exact rule.rank_apply p r _h q hq

/-- Passes until one changes nothing or as many as the limit have changed something.
Returns the plan and the number of passes that changed it. -/
def settle (rule : RewriteRule) : Nat → Plan → Except QueryError (Plan × Nat)
  | 0,p => .ok (p,0)
  | limit+1,p => do
    match ← rule.pass p with
    | none => return (p,0)
    | some q =>
      let (r,passes) ← rule.settle limit q
      return (r,passes+1)

end RewriteRule
end QueryPlan
