import QueryPlan.Relation.Basic

/-! # Engine plans

One operator a line, inputs before the operators that consume them. Lines are
numbered from 0 and an operator names its inputs by line number. -/
namespace QueryPlan

/-- Shapes the engine has no operator for. -/
inductive EncodeError where
  | plainScan (table : String)
  | distinctAggregate
  | outerJoin
  | joinNotACall
  | joinNotEquality
  | joinOperandCount
  | joinOperandNotAColumn
  | joinTypes (first second : SqlType)
deriving DecidableEq,Repr

namespace EncodeError

def code : String := "AETHRA_ENCODE_UNSUPPORTED"

/-- The kind of operator that is refused. -/
def operator : EncodeError → String
  | plainScan _ => "TableScan"
  | distinctAggregate => "AggregationOperator"
  | _ => "JoinOperator"

def message : EncodeError → String
  | plainScan table => "The current operator type cannot be encoded: TableScan of '" ++ table ++ "'"
  | distinctAggregate => "DISTINCT aggregate calls are not supported"
  | outerJoin => "only inner joins are supported"
  | joinNotACall => "only join conditions that are operator calls are supported"
  | joinNotEquality => "only equality join conditions are supported"
  | joinOperandCount => "only join conditions over two operands are supported"
  | joinOperandNotAColumn =>
    "only join condition operands that refer to an input column are supported"
  | joinTypes first second => "join condition operands must have the same type, found "
      ++ first.text ++ " and " ++ second.text

def display (e : EncodeError) : String :=
  "[REJECT] " ++ code ++ ": " ++ e.operator ++ ": " ++ e.message

end EncodeError

namespace EnginePlan

/-- The two columns of an equi-join, lower first. -/
def equiColumns (kind : JoinKind) (condition : Expr) : Except EncodeError (Nat × Nat) :=
  if kind ≠ .inner then .error .outerJoin
  else match condition with
    | .call op args _ =>
      if op ≠ .eq then .error .joinNotEquality
      else match args with
        | [.column a s,.column b t] =>
          if s = t then .ok (min a b,max a b) else .error (.joinTypes s t)
        | [_,_] => .error .joinOperandNotAColumn
        | _ => .error .joinOperandCount
    | _ => .error .joinNotACall

def indices (is : List Nat) : String := ",".intercalate (is.map toString)

/-- Lines written so far with the lines of `p` behind them; the last is the line of `p`. -/
def encodeAfter (written : List String) : Plan → Except EncodeError (List String)
  | .scan t => .error (.plainScan t.name)
  | .arrowScan t cols =>
    let narrowed := if t.width = cols.length then "false" else "true"
    .ok (written ++ ["S;" ++ t.name ++ ";" ++ narrowed ++ ";" ++ indices cols])
  | .filter input condition => do
    let lines ← encodeAfter written input
    return lines ++ ["F;" ++ toString (lines.length-1) ++ ";" ++ condition.text]
  | .project input exprs _ => do
    let lines ← encodeAfter written input
    return lines ++ ["P;" ++ toString (lines.length-1) ++ ";" ++ Expr.listText exprs]
  | .aggregate input groups calls =>
    if calls.any AggregateCall.distinct then .error .distinctAggregate
    else do
      let lines ← encodeAfter written input
      return lines ++ ["A;" ++ toString (lines.length-1) ++ ";" ++ indices groups ++ ";"
        ++ ",".intercalate (calls.map AggregateCall.text)]
  | .join left right condition kind => do
    let (lower,higher) ← equiColumns kind condition
    let lines ← encodeAfter written left
    let both ← encodeAfter lines right
    return both ++ ["J;" ++ toString (lines.length-1) ++ ";" ++ toString (both.length-1) ++ ";"
      ++ toString lower ++ ";" ++ toString higher]

def encodeLines (p : Plan) : Except EncodeError (List String) := encodeAfter [] p

/-- The text of a plan; every line ends in a line break. -/
def encode (p : Plan) : Except EncodeError String :=
  (encodeLines p).map fun lines => String.join (lines.map (· ++ "\n"))

end EnginePlan
end QueryPlan
