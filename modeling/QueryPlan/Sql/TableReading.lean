import QueryPlan.Sql.PrimaryReading

/-! # Reading FROM clauses -/
namespace QueryPlan.Sql.TableReading
open Reads TypeReading ExprReading PrimaryReading

def tableAlias : Reads (Option TableAlias) := do
  match ← optionalAlias reservedForTableAlias with
  | some name => return some ⟨name,← optionalIdents⟩
  | none => return none

section
variable (g : Grammar)

/-- Arguments behind an opening bracket, as they are written back. -/
def argumentTexts : Reads (List String) := return (← functionArgs g).map FunctionArg.text

/-- A query behind its opening bracket. -/
def derived (lateral : Bool) : Reads TableFactor := do
  let q ← g.query
  expectSymbol ")"
  return .derived ((if lateral then "LATERAL " else "") ++ "(" ++ q.text ++ ")") (← tableAlias)

def lateral : Reads TableFactor := do
  if ← symbol "(" then derived g true
  else
    let name ← objectName
    expectSymbol "("
    let args ← argumentTexts g
    return .other ("LATERAL " ++ name.text ++ "(" ++ commaList args ++ ")") (← tableAlias) ""

def tableFunction : Reads TableFactor := do
  let e ← bracketed g.expr
  return .other ("TABLE(" ++ e.text ++ ")") (← tableAlias) ""

def unnest : Reads TableFactor := do
  let arrays ← bracketed (sepBy g.expr)
  let label ← tableAlias
  let after ← if ← keyword "WITH" then
      if ← keyword "OFFSET" then
        match ← optionalAlias reservedForColumnAlias with
        | some name => pure (" WITH OFFSET AS " ++ name.text)
        | none => pure " WITH OFFSET"
      else pure ""
    else pure ""
  return .other ("UNNEST(" ++ textAll arrays ++ ")") label after

/-- What a JSON column does where it finds nothing or fails. -/
def jsonFallback : Reads (Option String) := do
  let action ← if ← keyword "NULL" then pure (some "NULL")
    else if ← keyword "ERROR" then pure (some "ERROR")
    else if ← keyword "DEFAULT" then pure (some ("DEFAULT " ++ (← value).text))
    else pure none
  if action.isSome then expectKeyword "ON"
  return action

def jsonFallbacks : Nat → String → String → Reads String
  | 0,empty,error => return empty ++ error
  | n+1,empty,error => do
    match ← jsonFallback with
    | none => return empty ++ error
    | some action =>
      if ← keyword "EMPTY" then jsonFallbacks n (" " ++ action ++ " ON EMPTY") error
      else
        expectKeyword "ERROR"
        jsonFallbacks n empty (" " ++ action ++ " ON ERROR")

def jsonColumn : Reads String := do
  let name ← ident
  let type ← dataType
  let present ← if ← keyword "EXISTS" then pure " EXISTS" else pure ""
  expectKeyword "PATH"
  let path ← value
  return name.text ++ " " ++ type.text ++ present ++ " PATH " ++ path.text
    ++ (← jsonFallbacks (← get).length "" "")

def jsonTable : Reads TableFactor := do
  let text ← bracketed do
    let e ← g.expr
    expectSymbol ","
    let path ← value
    expectKeyword "COLUMNS"
    let columns ← bracketed (sepBy jsonColumn)
    return "JSON_TABLE(" ++ e.text ++ ", " ++ path.text ++ " COLUMNS(" ++ commaList columns ++ "))"
  return .other text (← tableAlias) ""

def pivot (table : TableFactor) : Reads TableFactor := do
  let text ← bracketed do
    let name ← word
    let f ← CallReading.call g (← operands g) [⟨name,none⟩]
    expectKeyword "FOR"
    let column ← objectName
    expectKeyword "IN"
    let values ← bracketed (sepBy value)
    return table.text ++ " PIVOT(" ++ f.text ++ " FOR " ++ column.text ++ " IN ("
      ++ commaList (values.map Value.text) ++ "))"
  return .other text (← tableAlias) ""

def unpivot (table : TableFactor) : Reads TableFactor := do
  let text ← bracketed do
    let column ← ident
    expectKeyword "FOR"
    let name ← ident
    expectKeyword "IN"
    let columns ← idents
    return table.text ++ " UNPIVOT(" ++ column.text ++ " FOR " ++ name.text ++ " IN ("
      ++ commaList (columns.map Ident.text) ++ "))"
  return .other text (← tableAlias) ""

/-- Pivots behind a table. -/
def pivots : Nat → TableFactor → Reads TableFactor
  | 0,t => return t
  | n+1,t => do
    if ← keyword "PIVOT" then pivots n (← pivot g t)
    else if ← keyword "UNPIVOT" then pivots n (← unpivot t)
    else return t

/-- Hints behind a table; a WITH without bracket is left alone. -/
def hints : Reads (List String) := do
  let hinted := (← peekAt 1) == some (.symbol "(")
  if ← nextIsKeyword "WITH" then
    if hinted then
      let _ ← next
      return (← bracketed (sepBy g.expr)).map Expr.text
    else return []
  else return []

def table : Reads TableFactor := do
  let name ← objectName
  let partitions ← if ← keyword "PARTITION" then idents else pure []
  let args ← if ← symbol "(" then pure (some (← argumentTexts g)) else pure none
  let label ← tableAlias
  return .table name label args (partitions.map Ident.text) (← hints g)

/-- Tables between brackets: one alone is that table, with the alias inside or outside them. -/
def bracketedTables (nested : Reads TableWithJoins) : Reads TableFactor := do
  let tables ← nested
  expectSymbol ")"
  let label ← tableAlias
  let join : TableFactor := .nestedJoin ("(" ++ tables.text ++ ")") label
  match tables.joins,tables.first with
  | _ :: _,_ | [],.nestedJoin _ _ => return join
  | [],first =>
    match label with
    | none => return first
    | some a =>
      if first.alias?.isSome then expected "no second alias" else return first.withAlias a

def factor (nested : Reads TableWithJoins) : Reads TableFactor := do
  if ← keyword "LATERAL" then lateral g
  else if ← keyword "TABLE" then tableFunction g
  else if ← symbol "(" then
    match ← attempt (derived g false) with
    | some t => pivots g (← get).length t
    | none => bracketedTables nested
  else if ← keyword "UNNEST" then unnest g
  else if ← keyword "JSON_TABLE" then jsonTable g
  else
    let t ← table g
    pivots g (← get).length t

def joinConstraint : Reads JoinConstraint := do
  if ← keyword "ON" then return .on (← g.expr)
  else if ← keyword "USING" then return .using (← idents)
  else return .none

/-- The form of a join that may stand behind NATURAL, if one is next. -/
def joinForm : Reads (Option JoinForm) := do
  let outer (side : String) (form : JoinForm) : Reads (Option JoinForm) := do
    match ← expectOneOf ["OUTER","SEMI","ANTI","JOIN"] with
    | "JOIN" => return some form
    | "OUTER" =>
      expectKeyword "JOIN"
      return some form
    | word =>
      expectKeyword "JOIN"
      return some (.other (side ++ " " ++ word ++ " JOIN"))
  if ← keyword "INNER" then
    expectKeyword "JOIN"
    return some .inner
  else if ← keyword "JOIN" then return some .inner
  else if ← keyword "LEFT" then outer "LEFT" .left
  else if ← keyword "RIGHT" then outer "RIGHT" .right
  else if ← keyword "FULL" then
    let _ ← keyword "OUTER"
    expectKeyword "JOIN"
    return some .full
  else return none

def join? (nested : Reads TableWithJoins) : Reads (Option Join) := do
  if ← keyword "CROSS" then
    let form : JoinForm := if (← expectOneOf ["JOIN","APPLY"]) == "JOIN" then .cross
      else .other "CROSS APPLY"
    return some ⟨form,← factor g nested,.none⟩
  else if ← keyword "OUTER" then
    expectKeyword "APPLY"
    return some ⟨.other "OUTER APPLY",← factor g nested,.none⟩
  else
    let natural ← keyword "NATURAL"
    match ← joinForm with
    | some form =>
      let right ← factor g nested
      return some ⟨form,right,← if natural then pure .natural else joinConstraint g⟩
    | none => if natural then expected "a join type after NATURAL" else return none

def joins (nested : Reads TableWithJoins) : Nat → Reads (List Join)
  | 0 => return []
  | n+1 => do
    match ← join? g nested with
    | some j => return j :: (← joins nested n)
    | none => return []

/-- A table with the joins behind it; brackets nest no deeper than there are tokens. -/
def tableWithJoins : Nat → Reads TableWithJoins
  | 0 => throw .tooDeep
  | n+1 => do
    let nested := tableWithJoins n
    let first ← factor g nested
    return ⟨first,← joins g nested (← get).length⟩

def tables : Reads (List TableWithJoins) := do
  sepBy (tableWithJoins g ((← get).length+1))

end
end QueryPlan.Sql.TableReading
