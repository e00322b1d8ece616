import QueryPlan.Relation.Basic

/-! # Explain texts: one operator a line, inputs below and indented by two blanks -/
namespace QueryPlan.Plan

def ordinals (is : List Nat) : String := ", ".intercalate (is.map toString)

/-- One operator on one line, without its inputs. -/
def describe : Plan → String
  | scan t => "LogicalTableScan(table=[[" ++ t.name ++ "]])"
  | arrowScan t cols =>
    if cols == List.range t.width then "LogicalArrowTableScan(table=[[" ++ t.name ++ "]])"
    else "LogicalArrowTableScan(table=[[" ++ t.name ++ "]], projects=[[" ++ ordinals cols ++ "]])"
  | filter _ condition => "LogicalFilter(condition=[" ++ condition.text ++ "])"
  | project _ exprs names =>
    "LogicalProject(" ++ ", ".intercalate (names.zipWith (fun n e => n ++ "=[" ++ e.text ++ "]") exprs)
      ++ ")"
  | join _ _ condition kind =>
    "LogicalJoin(condition=[" ++ condition.text ++ "], joinType=[" ++ kind.name ++ "])"
  | aggregate _ groups calls =>
    "LogicalAggregate(" ++ ", ".intercalate (("group=[\x7b" ++ ordinals groups ++ "\x7d]")
      :: calls.map fun c => c.name ++ "=[" ++ c.text ++ "]") ++ ")"

def blanks (depth : Nat) : String := String.ofList (List.replicate (2*depth) ' ')

/-- The lines of a plan whose root stands at a depth. -/
def explainLines (depth : Nat) : Plan → List String
  | p@(scan _) | p@(arrowScan _ _) => [blanks depth ++ p.describe]
  | p@(filter input _) | p@(project input _ _) | p@(aggregate input _ _) =>
    (blanks depth ++ p.describe) :: input.explainLines (depth+1)
  | p@(join left right _ _) =>
    (blanks depth ++ p.describe) :: (left.explainLines (depth+1) ++ right.explainLines (depth+1))

/-- The whole tree; every line ends in a line break. -/
def explain (p : Plan) : String := String.join ((p.explainLines 0).map (· ++ "\n"))

end QueryPlan.Plan
