import QueryPlan.Sql.SelectReading

/-! # Reading statements that change rows

INSERT and UPDATE may stand where a query does, so they keep their normalised text. -/
namespace QueryPlan.Sql.ChangeReading
open Reads ExprReading TableReading SelectReading

private def listText (names : List Ident) : String := "(" ++ commaList (names.map Ident.text) ++ ")"

/-- The name of a column up to the equals sign behind it. Its words count, whatever stands between
them. -/
def assignedColumn : Reads String := do
  let ts ← get
  set (ts.dropWhile (· != .symbol "="))
  let parts := (ts.takeWhile (· != .symbol "=")).filterMap fun
    | .word value quote => some (Ident.mk value quote)
    | _ => none
  return ObjectName.text parts

section
variable (g : Grammar)

def assignment : Reads String := do
  let column ← assignedColumn
  expectSymbol "="
  return column ++ " = " ++ (← g.expr).text

def assignments : Reads String := return commaList (← sepBy (assignment g))

def condition : Reads String := do
  match ← clause ["WHERE"] g.expr with
  | some e => return " WHERE " ++ e.text
  | none => return ""

def returning : Reads String := do
  let items ← listClause ["RETURNING"] (selectItem g)
  return if items.isEmpty then "" else " RETURNING " ++ commaList (items.map SelectItem.text)

/-- What happens to a row that is there already; the word ON has been read. -/
def conflictAction : Reads String := do
  if ← keyword "CONFLICT" then
    let target ← if ← keywords ["ON","CONSTRAINT"] then
        pure (" ON CONSTRAINT " ++ (← objectName).text)
      else if ← nextIsSymbol "(" then pure (listText (← idents))
      else pure ""
    expectKeyword "DO"
    if ← keyword "NOTHING" then return " ON CONFLICT" ++ target ++ " DO NOTHING"
    else
      expectKeywords ["UPDATE","SET"]
      return " ON CONFLICT" ++ target ++ " DO UPDATE SET " ++ (← assignments g) ++ (← condition g)
  else
    expectKeywords ["DUPLICATE","KEY","UPDATE"]
    return " ON DUPLICATE KEY UPDATE " ++ (← assignments g)

/-- The columns and the rows that are inserted. -/
def insertedRows : Reads String := do
  if ← keywords ["DEFAULT","VALUES"] then return "DEFAULT VALUES"
  else
    let columns ← optionalIdents
    let partition ← if ← keyword "PARTITION" then bracketed (sepBy g.expr) else pure []
    let after ← optionalIdents
    let source ← g.query
    let columnsText (names : List Ident) := if names.isEmpty then "" else listText names ++ " "
    return columnsText columns
      ++ (if partition.isEmpty then "" else "PARTITION (" ++ textAll partition ++ ") ")
      ++ columnsText after ++ source.text

/-- Rows that are written to a directory. -/
def directory (overwrite : String) : Reads String := do
  let path ← literalString
  let format ← if ← keywords ["STORED","AS"] then pure (" STORED AS " ++ (← fileFormat)) else pure ""
  return "INSERT" ++ overwrite ++ " DIRECTORY '" ++ path ++ "'" ++ format ++ " " ++ (← g.query).text

/-- An INSERT behind that word. -/
def insert : Reads String := do
  let optionalWord (keys : List String) : Reads String := do
    match ← oneOf keys with
    | some key => return " " ++ key
    | none => return ""
  let priority ← optionalWord ["LOW_PRIORITY","DELAYED","HIGH_PRIORITY"]
  let ignore ← optionalWord ["IGNORE"]
  let action ← optionalWord ["INTO","OVERWRITE"]
  let location ← optionalWord ["LOCAL"]
  if ← keyword "DIRECTORY" then
    directory g ((if action == " OVERWRITE" then action else "") ++ location)
  else
    let table ← optionalWord ["TABLE"]
    let name ← objectName
    let rows ← insertedRows g
    let conflict ← if ← keyword "ON" then conflictAction g else pure ""
    return "INSERT" ++ priority ++ ignore ++ action ++ table ++ " " ++ name.text ++ " " ++ rows
      ++ conflict ++ (← returning g)

def joinedTable : Reads TableWithJoins := do tableWithJoins g ((← get).length+1)

/-- An UPDATE behind that word. -/
def update : Reads String := do
  let table ← joinedTable g
  expectKeyword "SET"
  let changes ← assignments g
  let source ← match ← clause ["FROM"] (joinedTable g) with
    | some t => pure (" FROM " ++ t.text)
    | none => pure ""
  return "UPDATE " ++ table.text ++ " SET " ++ changes ++ source ++ (← condition g) ++ (← returning g)

/-- A DELETE behind that word. -/
def delete : Reads Unit := do
  if !(← keyword "FROM") then
    discard (sepBy objectName)
    expectKeyword "FROM"
  discard (tables g)
  allowClause ["USING"] (tables g)
  allowClause ["WHERE"] g.expr
  discard (returning g)
  discard (listClause ["ORDER","BY"] (orderBy g))
  if ← keyword "LIMIT" then
    if !(← keyword "ALL") then discard g.expr

/-- What a MERGE does with a row, for which a counterpart has been found or not. -/
def mergeAction (found : Bool) : Reads Unit := do
  if found then
    match ← expectOneOf ["UPDATE","DELETE"] with
    | "UPDATE" =>
      expectKeyword "SET"
      discard (assignments g)
    | _ => return
  else
    expectKeyword "INSERT"
    discard optionalIdents
    expectKeyword "VALUES"
    discard (values g)

/-- One case of a MERGE; the cases go on to the end of the statement. -/
def mergeCase : Reads Bool := do
  match ← peek with
  | none | some (.symbol ";") => return false
  | some _ =>
    expectKeyword "WHEN"
    let found := !(← keyword "NOT")
    expectKeyword "MATCHED"
    allowClause ["AND"] g.expr
    expectKeyword "THEN"
    mergeAction g found
    return true

def tableFactor : Reads TableFactor := do
  factor g (tableWithJoins g (← get).length)

/-- A MERGE behind that word. -/
def merge : Reads Unit := do
  allow ["INTO"]
  discard (tableFactor g)
  expectKeyword "USING"
  discard (tableFactor g)
  expectKeyword "ON"
  discard g.expr
  whileRead (mergeCase g)

end
end QueryPlan.Sql.ChangeReading
