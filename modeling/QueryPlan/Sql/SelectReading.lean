import QueryPlan.Sql.TableReading

/-! # Reading SELECT and VALUES -/
namespace QueryPlan.Sql.SelectReading
open Reads ExprReading CallReading PrimaryReading TableReading

section
variable (g : Grammar)

/-- An item or several between brackets, written back. -/
def oneOrBracketed (p : Reads String) : Reads String := do
  if ← symbol "(" then
    let items ← sepBy p
    expectSymbol ")"
    return "(" ++ commaList items ++ ")"
  else p

def replacement : Reads String := do
  let e ← g.expr
  let as ← if ← keyword "AS" then pure " AS " else pure " "
  return e.text ++ as ++ (← ident).text

/-- Options behind a wildcard, in the order in which they may stand. -/
def wildcardOptions : Reads (List String) := do
  let name : Reads String := return (← ident).text
  let renamed : Reads String := do
    let old ← ident
    expectKeyword "AS"
    return old.text ++ " AS " ++ (← ident).text
  let exclude ← clause ["EXCLUDE"] (return "EXCLUDE " ++ (← oneOrBracketed name))
  let except ← clause ["EXCEPT"] do
    if ← nextIsSymbol "(" then return "EXCEPT " ++ (← oneOrBracketed name)
    else return "EXCEPT (" ++ (← name) ++ ")"
  let rename ← clause ["RENAME"] (return "RENAME " ++ (← oneOrBracketed renamed))
  let replace ← clause ["REPLACE"]
    (return "REPLACE (" ++ commaList (← bracketed (sepBy (replacement g))) ++ ")")
  return [exclude,except,rename,replace].filterMap id

def selectItem : Reads SelectItem := do
  if ← symbol "*" then return .wildcard (← wildcardOptions g)
  else match ← attempt qualifiedWildcard with
    | some name => return .qualifiedWildcard name (← wildcardOptions g)
    | none =>
      let e ← g.expr
      return .expr e (← optionalAlias reservedForColumnAlias)

def top : Reads String := do
  let quantity ← if ← symbol "(" then
      let e ← g.expr
      expectSymbol ")"
      pure ("(" ++ e.text ++ ")")
    else pure (toString (← wholeNumber))
  let percent ← if ← keyword "PERCENT" then pure " PERCENT" else pure ""
  let ties ← if ← keywords ["WITH","TIES"] then pure " WITH TIES" else pure ""
  return "TOP " ++ quantity ++ percent ++ ties

def selectInto : Reads String := do
  let temporary ← match ← oneOf ["TEMP","TEMPORARY"] with
    | some _ => pure " TEMPORARY"
    | none => pure ""
  let unlogged ← if ← keyword "UNLOGGED" then pure " UNLOGGED" else pure ""
  let table ← if ← keyword "TABLE" then pure " TABLE" else pure ""
  return "INTO" ++ temporary ++ unlogged ++ table ++ " " ++ (← objectName).text

def lateralViews : Nat → Reads (List String)
  | 0 => return []
  | n+1 => do
    if ← keywords ["LATERAL","VIEW"] then
      let outer ← if ← keyword "OUTER" then pure " OUTER" else pure ""
      let e ← g.expr
      let name ← objectName
      let aliases ← sepBy (optionalAlias ["WHERE","GROUP","CLUSTER","HAVING","LATERAL"])
      let names := aliases.filterMap id
      let text := "LATERAL VIEW" ++ outer ++ " " ++ e.text ++ " " ++ name.text
        ++ if names.isEmpty then "" else " AS " ++ commaList (names.map Ident.text)
      return text :: (← lateralViews n)
    else return []

/-- Expressions between brackets, none included. -/
def groupingTuple : Reads (List Expr) := do
  expectSymbol "("
  if ← symbol ")" then return []
  else
    let es ← sepBy g.expr
    expectSymbol ")"
    return es

/-- Such a tuple, or an expression that stands for a tuple of one. -/
def liftedTuple : Reads String := do
  let es ← if ← nextIsSymbol "(" then groupingTuple g else pure [← g.expr]
  match es with
  | [e] => return e.text
  | es => return "(" ++ textAll es ++ ")"

def groupKey : Reads Expr := do
  if ← keywords ["GROUPING","SETS"] then
    let sets ← bracketed (sepBy (groupingTuple g))
    return .other ("GROUPING SETS (" ++ commaList (sets.map ("(" ++ textAll · ++ ")")) ++ ")")
  else if ← keyword "CUBE" then
    return .other ("CUBE (" ++ commaList (← bracketed (sepBy (liftedTuple g))) ++ ")")
  else if ← keyword "ROLLUP" then
    return .other ("ROLLUP (" ++ commaList (← bracketed (sepBy (liftedTuple g))) ++ ")")
  else g.expr

def groupBy : Reads GroupBy := do
  if ← keywords ["GROUP","BY"] then
    if ← keyword "ALL" then return .all else return .exprs (← sepBy (groupKey g))
  else return .exprs []

def namedWindow : Reads String := do
  let name ← ident
  expectKeyword "AS"
  expectSymbol "("
  return name.text ++ " AS (" ++ (← windowSpec g (← operands g)) ++ ")"

/-- A SELECT behind that word. -/
def select : Reads Select := do
  let texts (keys : List String) : Reads (List String) :=
    return (← listClause keys g.expr).map Expr.text
  let distinct ← allOrDistinct g
  let top ← clause ["TOP"] (top g)
  let items ← sepBy (selectItem g)
  let into ← clause ["INTO"] selectInto
  let tables ← if ← keyword "FROM" then tables g else pure []
  let lateralViews ← lateralViews g (← get).length
  let selection ← clause ["WHERE"] g.expr
  let groupBy ← groupBy g
  let clusterBy ← texts ["CLUSTER","BY"]
  let distributeBy ← texts ["DISTRIBUTE","BY"]
  let sortBy ← texts ["SORT","BY"]
  let having ← clause ["HAVING"] g.expr
  let windows ← listClause ["WINDOW"] (namedWindow g)
  let qualify ← clause ["QUALIFY"] g.expr
  return { distinct,top,items,into,tables,lateralViews,selection,groupBy,clusterBy,
           distributeBy,sortBy,having,windows,qualify }

def values : Reads Body := do
  let rows ← sepBy do
    let row ← keyword "ROW"
    let es ← bracketed (sepBy g.expr)
    return (row,"(" ++ textAll es ++ ")")
  let mark := if rows.any Prod.fst then "ROW" else ""
  return .other ("VALUES " ++ commaList (rows.map (mark ++ Prod.snd ·)))

end
end QueryPlan.Sql.SelectReading
