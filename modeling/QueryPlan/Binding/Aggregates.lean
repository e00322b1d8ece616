import QueryPlan.Relation.Aggregate
import QueryPlan.Sql.Expr

/-! # Aggregate calls in SQL expressions -/
namespace QueryPlan.Sql

/-- The aggregate function that an expression calls at its root. -/
def Expr.aggregate? : Expr → Option AggregateFunction
  | .function name _ _ _ => AggregateFunction.ofName? name.text
  | _ => none

mutual
/-- An aggregate function is called somewhere in an expression. -/
def Expr.hasAggregate : Expr → Bool
  | .binary left _ right => left.hasAggregate || right.hasAggregate
  | .unary _ e | .nested e | .isNull e | .isNotNull e | .cast e _ _ => e.hasAggregate
  | .between e _ low high => e.hasAggregate || low.hasAggregate || high.hasAggregate
  | .inList e list _ => e.hasAggregate || anyAggregate list
  | .like _ e pattern _ => e.hasAggregate || pattern.hasAggregate
  | .function name args _ _ => (AggregateFunction.ofName? name.text).isSome || argsAggregate args
  | .identifier _ | .compound _ | .value _ | .typedString _ _ | .subquery _ | .other _ => false
def FunctionArg.hasAggregate : FunctionArg → Bool
  | .expr e => e.hasAggregate
  | .wildcard | .other _ => false
def anyAggregate : List Expr → Bool
  | [] => false
  | e :: es => e.hasAggregate || anyAggregate es
def argsAggregate : List FunctionArg → Bool
  | [] => false
  | a :: as => a.hasAggregate || argsAggregate as
end

end QueryPlan.Sql
