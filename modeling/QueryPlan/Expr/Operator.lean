/-! # Scalar operators -/
namespace QueryPlan

inductive Operator where
  | eq | notEq | lt | ltEq | gt | gtEq
  | and | or | not
  | plus | minus | multiply | divide | modulo | negate
  | isNull | isNotNull | like | cast
deriving DecidableEq,Repr

namespace Operator

/-- Printed name. Subtraction and negation share theirs; the operands tell them apart. -/
def name : Operator → String
  | eq => "=" | notEq => "<>" | lt => "<" | ltEq => "<=" | gt => ">" | gtEq => ">="
  | and => "AND" | or => "OR" | not => "NOT"
  | plus => "+" | minus => "-" | multiply => "*" | divide => "/" | modulo => "MOD"
  | negate => "-"
  | isNull => "IS NULL" | isNotNull => "IS NOT NULL" | like => "LIKE" | cast => "CAST"

def isComparison : Operator → Bool
  | eq | notEq | lt | ltEq | gt | gtEq => true
  | _ => false

/-- The connectives that take any number of operands. -/
def isConnective : Operator → Bool
  | and | or => true
  | _ => false

end Operator
end QueryPlan
