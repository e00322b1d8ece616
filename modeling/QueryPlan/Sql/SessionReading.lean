import QueryPlan.Sql.ExprReading
import QueryPlan.Sql.TransactionReading

/-! # Reading statements about a session and its settings -/
namespace QueryPlan.Sql.SessionReading
open Reads TypeReading ExprReading TransactionReading

/-- The role that a session takes on. -/
def role : Reads Unit := do
  expectKeyword "ROLE"
  if !(← keyword "NONE") then discard ident

/-- The character set of a session. -/
def characterSet : Reads Unit := do
  if !(← keyword "DEFAULT") then
    discard literalString
    allowClause ["COLLATE"] literalString

section
variable (g : Grammar)

/-- A variable and its values, or one of the settings with words of their own. The name of a setting
counts as it is written back. -/
def variableSetting (modified : Bool) : Reads Unit := do
  let name ← if ← keywords ["TIME","ZONE"] then pure "TIMEZONE" else pure (← objectName).text
  let isName (key : String) : Bool := name.map Char.toUpper == key
  if isName "NAMES" then characterSet
  else if ← symbol "=" <||> keyword "TO" then discard (sepBy g.expr)
  else if isName "TIMEZONE" then discard g.expr
  else if name == "CHARACTERISTICS" then
    expectKeywords ["AS","TRANSACTION"]
    modes
  else if name == "TRANSACTION" && !modified then
    if ← keyword "SNAPSHOT" then discard value else modes
  else expected "equals sign or TO"

/-- A SET behind that word. -/
def set : Reads Unit := do
  match ← oneOf ["SESSION","LOCAL","HIVEVAR"] with
  | some "HIVEVAR" =>
    expectSymbol ":"
    variableSetting g true
  | modifier =>
    if (← attempt role).isNone then variableSetting g modifier.isSome

/-- Which items are shown. -/
def showFilter : Reads Unit := do
  if (← oneOf ["LIKE","ILIKE"]).isSome then discard literalString
  else allowClause ["WHERE"] g.expr

def inDatabase : Reads Unit := do
  if (← oneOf ["FROM","IN"]).isSome then discard ident

/-- A SHOW behind that word. What it does not know by name is a variable, whose name goes on up to an
equals sign. -/
def showItems : Reads Unit := do
  let extended ← keyword "EXTENDED"
  let full ← keyword "FULL"
  allow ["SESSION"]
  allow ["GLOBAL"]
  if (← oneOf ["COLUMNS","FIELDS"]).isSome then
    discard (expectOneOf ["FROM","IN"])
    discard objectName
    inDatabase
    showFilter g
  else if ← keyword "TABLES" then
    inDatabase
    showFilter g
  else if ← keyword "FUNCTIONS" then showFilter g
  else if extended || full then expected "columns, tables or functions"
  else if ← keyword "CREATE" then
    discard (expectOneOf ["TABLE","TRIGGER","FUNCTION","PROCEDURE","EVENT","VIEW"])
    discard objectName
  else if (← oneOf ["COLLATION","VARIABLES"]).isSome then showFilter g
  else modify (·.dropWhile (· != .symbol "="))

/-- The value of a PRAGMA. -/
def pragmaValue : Reads Unit := do
  match ← value with
  | .string _ | .quoted _ | .number _ _ | .placeholder _ => return
  | _ => expected "number or string or ? placeholder"

/-- A PRAGMA behind that word. -/
def pragma : Reads Unit := do
  discard objectName
  if ← symbol "(" then
    pragmaValue
    expectSymbol ")"
  else if ← symbol "=" then pragmaValue

/-- A KILL behind that word. -/
def kill : Reads Unit := do
  allowOneOf ["CONNECTION","QUERY","MUTATION"]
  discard wholeNumber

/-- Words behind FLUSH TABLES, with names of tables among them. They end at the first token that is
no word, which belongs to them. -/
def flushedTables : Reads Bool := do
  match ← peek with
  | some t@(.word _ _) =>
    if t.isPlainWord then done (sepBy objectName)
    else
      let _ ← next
      if t.isKeyword "WITH" then allow ["READ","LOCK"] else if t.isKeyword "FOR" then allow ["EXPORT"]
      return true
  | _ =>
    let _ ← next
    return false

/-- A FLUSH behind that word. -/
def flush : Reads Unit := do
  allowOneOf ["NO_WRITE_TO_BINLOG","LOCAL"]
  if ← keywords ["RELAY","LOGS"] then allowClause ["FOR","CHANNEL"] objectName
  else
    match ← expectOneOf ["BINARY","ENGINE","ERROR","GENERAL","SLOW","HOSTS","PRIVILEGES",
        "OPTIMIZER_COSTS","STATUS","USER_RESOURCES","LOGS","TABLES"] with
    | "BINARY" | "ENGINE" | "ERROR" | "GENERAL" | "SLOW" => expectKeyword "LOGS"
    | "TABLES" => whileRead flushedTables
    | _ => return

/-- A PREPARE behind that word. -/
def prepare : Reads Unit := do
  discard ident
  if ← symbol "(" then
    discard (sepBy dataType)
    expectSymbol ")"
  expectKeyword "AS"
  discard g.statement

/-- An EXECUTE behind that word. -/
def execute : Reads Unit := do
  discard ident
  if ← symbol "(" then
    discard (sepBy g.expr)
    expectSymbol ")"

/-- A DECLARE behind that word. -/
def declare : Reads Unit := do
  discard ident
  allow ["BINARY"]
  allowOneOf ["INSENSITIVE","ASENSITIVE"]
  if !(← keyword "SCROLL") then allow ["NO","SCROLL"]
  expectKeyword "CURSOR"
  if (← oneOf ["WITH","WITHOUT"]).isSome then expectKeyword "HOLD"
  expectKeyword "FOR"
  discard g.query

/-- Which rows a FETCH takes. -/
def fetchedRows : Reads Unit := do
  match ← oneOf ["NEXT","PRIOR","FIRST","LAST","ABSOLUTE","RELATIVE","FORWARD","BACKWARD",
      "ALL"] with
  | some "ABSOLUTE" | some "RELATIVE" | none => numberValue
  | some "FORWARD" | some "BACKWARD" => if !(← keyword "ALL") then numberValue
  | some _ => return

/-- A FETCH behind that word. -/
def fetchRows : Reads Unit := do
  fetchedRows
  discard (expectOneOf ["FROM","IN"])
  discard ident
  allowClause ["INTO"] objectName

/-- A CLOSE behind that word. -/
def close : Reads Unit := do
  if !(← keyword "ALL") then discard ident

end
end QueryPlan.Sql.SessionReading
