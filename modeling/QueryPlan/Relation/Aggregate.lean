import QueryPlan.SqlType

/-! # Aggregate functions and calls -/
namespace QueryPlan

inductive AggregateFunction where
  | count | sum | avg | min | max
deriving DecidableEq,Repr

namespace AggregateFunction

def name : AggregateFunction → String
  | count => "COUNT" | sum => "SUM" | avg => "AVG" | min => "MIN" | max => "MAX"

/-- Reads a function name in any ASCII case. -/
def ofName? (name : String) : Option AggregateFunction :=
  match name.toUpper with
  | "COUNT" => some count
  | "SUM" => some sum
  | "AVG" => some avg
  | "MIN" => some min
  | "MAX" => some max
  | _ => none

/-- A count is BIGINT; every other function keeps the type of its argument. -/
def resultType : AggregateFunction → Option SqlType → SqlType
  | count,_ => .bigInt
  | _,some t => t
  | _,none => .null

end AggregateFunction

/-- One aggregate over columns of the input, and the name of its output column. -/
structure AggregateCall where
  function : AggregateFunction
  distinct : Bool
  args : List Nat
  type : SqlType
  name : String
deriving DecidableEq,Repr

namespace AggregateCall

/-- Calls that compute the same value, whatever they are called. -/
def sameComputation (a b : AggregateCall) : Bool :=
  a.function == b.function && a.distinct == b.distinct && a.args == b.args

def text (c : AggregateCall) : String :=
  c.function.name ++ "(" ++ (if c.distinct then "DISTINCT " else "")
    ++ ", ".intercalate (c.args.map fun a => "$" ++ toString a) ++ ")"

end AggregateCall
end QueryPlan
