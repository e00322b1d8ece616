import QueryPlan.Sql.ExprReading

/-! # Reading function calls and window specifications -/
namespace QueryPlan.Sql.CallReading
open Reads ExprReading

section
variable (g : Grammar) (o : Operands)

/-- The value of an interval: a primary expression with the operators behind it, up to AND, OR
or XOR. -/
def intervalValue : Reads Expr := do
  let ofNext : Reads Nat := do
    if (← peek).any (·.isKeywordOf ["AND","OR","XOR"]) then return 0 else nextPrecedence
  operators g o ofNext 0 (← get).length (← o.primary)

def interval : Reads Expr := do
  let value ← intervalValue g o
  return .other ("INTERVAL " ++ value.text ++ (← intervalTail))

def frameBound : Reads String := do
  if ← keywords ["CURRENT","ROW"] then return "CURRENT ROW"
  else
    let rows ← if ← keyword "UNBOUNDED" then pure "UNBOUNDED"
      else
        match ← peek with
        | some (.string _) => pure (← interval g o).text
        | _ => pure (← g.expr).text
    return rows ++ " " ++ (← expectOneOf ["PRECEDING","FOLLOWING"])

def windowFrame : Reads String := do
  let units ← expectOneOf ["ROWS","RANGE","GROUPS"]
  if ← keyword "BETWEEN" then
    let first ← frameBound g o
    expectKeyword "AND"
    return units ++ " BETWEEN " ++ first ++ " AND " ++ (← frameBound g o)
  else return units ++ " " ++ (← frameBound g o)

/-- A window specification behind its opening bracket. -/
def windowSpec : Reads String := do
  let partition ← listClause ["PARTITION","BY"] g.expr
  let order ← listClause ["ORDER","BY"] (orderBy g)
  let frame ← if ← symbol ")" then pure []
    else
      let frame ← windowFrame g o
      expectSymbol ")"
      pure [frame]
  let listed (words : String) (items : List String) : List String :=
    if items.isEmpty then [] else [words ++ commaList items]
  return " ".intercalate
    (listed "PARTITION BY " (partition.map Expr.text) ++ listed "ORDER BY " order ++ frame)

/-- Arguments behind the opening bracket, with the order asked for among them. -/
def orderedArgs : Reads (List FunctionArg × List String) := do
  if ← symbol ")" then return ([],[])
  else
    let args ← sepBy (functionArg g)
    let order ← listClause ["ORDER","BY"] (orderBy g)
    expectSymbol ")"
    return (args,order)

def call (name : ObjectName) : Reads Expr := do
  expectSymbol "("
  let distinct ← allOrDistinct g
  let (args,order) ← orderedArgs g
  let nulls ← match ← oneOf ["RESPECT","IGNORE"] with
    | some word =>
      expectKeyword "NULLS"
      pure (some (word ++ " NULLS"))
    | none => pure none
  let window ← if ← keyword "OVER" then
      if ← symbol "(" then pure (some ("(" ++ (← windowSpec g o) ++ ")"))
      else pure (some (← ident).text)
    else pure none
  return .function name args none
    { distinct := distinct.isSome,orderBy := order,nullTreatment := nulls,window := window }

/-- A function of the current time, which needs no brackets. -/
def timeFunction (name : ObjectName) : Reads Expr := do
  if ← symbol "(" then
    let (args,order) ← orderedArgs g
    return .function name args none { orderBy := order }
  else return .function name [] none { bare := true }

/-- What LISTAGG does where its result grows too long. -/
def overflow : Reads String := do
  if ← keywords ["ON","OVERFLOW"] then
    if ← keyword "ERROR" then return " ON OVERFLOW ERROR"
    else
      expectKeyword "TRUNCATE"
      let filler ← match ← peek with
        | some (.string _) | some (.literal .escaped _) | some (.literal .national _)
        | some (.literal .hex _) => pure (" " ++ (← g.expr).text)
        | some t => if t.isKeywordOf ["WITH","WITHOUT"] then pure "" else expected "filler"
        | none => expected "filler"
      let count ← expectOneOf ["WITH","WITHOUT"]
      expectKeyword "COUNT"
      return " ON OVERFLOW TRUNCATE" ++ filler ++ " " ++ count ++ " COUNT"
  else return ""

def listAggregate : Reads Expr := do
  expectSymbol "("
  let distinct ← allOrDistinct g
  let e ← g.expr
  let separator ← if ← symbol "," then pure (", " ++ (← g.expr).text) else pure ""
  let tail ← overflow g
  expectSymbol ")"
  let within ← if ← keywords ["WITHIN","GROUP"] then
      let order ← bracketed do
        expectKeywords ["ORDER","BY"]
        sepBy (orderBy g)
      pure (" WITHIN GROUP (ORDER BY " ++ commaList order ++ ")")
    else pure ""
  return .other ("LISTAGG(" ++ (if distinct.isSome then "DISTINCT " else "") ++ e.text ++ separator
    ++ tail ++ ")" ++ within)

def arrayAggregate : Reads Expr := bracketed do
  let distinct ← keyword "DISTINCT"
  let e ← g.expr
  let order ← listClause ["ORDER","BY"] (orderBy g)
  let limit ← if ← keyword "LIMIT" then
      if ← keyword "ALL" then pure "" else pure (" LIMIT " ++ (← g.expr).text)
    else pure ""
  return .other ("ARRAY_AGG(" ++ (if distinct then "DISTINCT " else "") ++ e.text
    ++ (if order.isEmpty then "" else " ORDER BY " ++ commaList order) ++ limit ++ ")")

end
end QueryPlan.Sql.CallReading
