import QueryPlan.Binding.Expr
import QueryPlan.Relation.Basic

/-! # Grouped queries

An aggregate reads a projection of the FROM rows: first the group keys, then the arguments of
its calls. Expressions of a grouped query are bound over the aggregate's rows, and equal
arguments and equal calls are shared among them. -/
namespace QueryPlan.Binding

/-- What the aggregate of a query reads and computes so far. -/
structure Gathered where
  inputs : List Expr
  calls : List AggregateCall
deriving Repr

abbrev Gathering := StateT Gathered (Except QueryError)

/-- Group keys without repetitions. -/
def groupKeys (n : Names) (keys : List Sql.Expr) : Except QueryError (List Expr) :=
  keys.foldlM (fun placed e => do
    let key ← expr n .groupBy e
    return if placed.contains key then placed else placed ++ [key]) []

/-- Position of an expression among the inputs of the aggregate, behind which a new one goes. -/
def inputOf (e : Expr) : Gathering Nat := do
  let g ← get
  match g.inputs.idxOf? e with
  | some i => return i
  | none =>
    set { g with inputs := g.inputs ++ [e] }
    return g.inputs.length

/-- Position of a call among those of the aggregate. A new call gets the name of its column. -/
def callOf (keyCount : Nat) (c : AggregateCall) : Gathering Nat := do
  let g ← get
  match g.calls.findIdx? (·.sameComputation c) with
  | some i => return i
  | none =>
    let name := "$f" ++ toString (keyCount + g.calls.length)
    set { g with calls := g.calls ++ [{ c with name }] }
    return g.calls.length

/-- The argument of an aggregate, none for a count of rows. -/
def aggregateArgument (n : Names) (f : AggregateFunction) (distinct : Bool) :
    List Sql.FunctionArg → Except QueryError (Option Expr)
  | [.expr e] => return some (← expr n .aggregateArgument e)
  | args =>
    match args with
    | [] | [.wildcard] =>
      if f = .count && !distinct then .ok none else .error (.invalid (.argumentCount f.name))
    | _ => .error (.invalid (.argumentCount f.name))

/-- Sums and averages need numbers. -/
def checkArgument (f : AggregateFunction) (type : Option SqlType) : Except QueryError Unit :=
  match f,type with
  | .sum,some t | .avg,some t =>
    if t.isNumeric then .ok () else .error (.mismatch (.operands f.name [t]))
  | _,_ => .ok ()

/-- The column of the aggregate that holds the value of a call. -/
def aggregateCall (n : Names) (keyCount : Nat) (f : AggregateFunction) (args : List Sql.FunctionArg)
    (tail : Sql.CallTail) : Gathering Expr := do
  if tail.window.isSome then throw (.unsupported .windowFunction)
  let arg ← aggregateArgument n f tail.distinct args
  checkArgument f (arg.map Expr.type)
  let inputs ← match arg with
    | some e => pure [← inputOf e]
    | none => pure []
  let type := f.resultType (arg.map Expr.type)
  let i ← callOf keyCount ⟨f,tail.distinct,inputs,type,""⟩
  return .column (keyCount + i) type

def isColumnName : Sql.Expr → Bool
  | .identifier _ | .compound _ => true
  | _ => false

/-- What a grouped query binds as a whole: calls of aggregates, group keys and expressions
without columns. A column that belongs to none of them is an error. -/
def groupedWhole (n : Names) (keys : List Expr) (clause : Clause) (e : Sql.Expr) :
    Gathering (Option Expr) := do
  match e.aggregate?,e with
  | some f,.function _ args _ tail => return some (← aggregateCall n keys.length f args tail)
  | _,_ =>
    if e.hasAggregate then return none
    let plain ← expr n clause e
    match keys.idxOf? plain with
    | some i => return some (.column i plain.type)
    | none =>
      if plain.columns.isEmpty then return some plain
      else if isColumnName e then throw (.notGrouped e.text)
      else return none

/-- Binds an expression over the rows of the aggregate. -/
def groupedExpr (n : Names) (keys : List Expr) (clause : Clause) (e : Sql.Expr) : Gathering Expr :=
  exprWith n clause (groupedWhole n keys clause) e

/-- A column of the FROM row, which must be a group key. -/
def groupedColumn (keys : List Expr) (index : Nat) (c : ScopeColumn) : Except QueryError Expr :=
  match keys.idxOf? (.column index c.type) with
  | some i => .ok (.column i c.type)
  | none => .error (.notGrouped c.name)

def groupedCondition (n : Names) (keys : List Expr) (e : Sql.Expr) : Gathering Expr := do
  let bound ← groupedExpr n keys .having e
  checkCondition .having bound
  return bound

end QueryPlan.Binding
