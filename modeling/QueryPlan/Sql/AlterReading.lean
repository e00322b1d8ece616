import QueryPlan.Sql.ColumnReading

/-! # Reading ALTER and DROP statements -/
namespace QueryPlan.Sql.AlterReading
open Reads TypeReading ExprReading ColumnReading

section
variable (g : Grammar)

def alterView : Reads Unit := do
  discard objectName
  discard optionalIdents
  settings g "WITH"
  expectKeyword "AS"
  discard g.query

def alterIndex : Reads Unit := do
  discard objectName
  expectKeywords ["RENAME","TO"]
  discard objectName

/-- A constraint, partitions or a column behind ADD. -/
def addPart : Reads Unit := do
  if !(← tableConstraint g) then
    ifNotExists
    if ← nextIsKeyword "PARTITION" then
      whileRead do if ← keyword "PARTITION" then done (exprList g) else return false
    else
      allow ["COLUMN"]
      ifNotExists
      columnDef g

def renamePart : Reads Unit := do
  if ← keyword "TO" then discard objectName
  else
    allow ["COLUMN"]
    discard ident
    expectKeyword "TO"
    discard ident

def disablePart : Reads Unit := do
  if !(← keywords ["ROW","LEVEL","SECURITY"]) then
    discard (expectOneOf ["RULE","TRIGGER"])
    discard ident

def enablePart : Reads Unit := do
  if !(← keywords ["ROW","LEVEL","SECURITY"]) then
    allowOneOf ["ALWAYS","REPLICA"]
    discard (expectOneOf ["RULE","TRIGGER"])
    discard ident

def dropPart : Reads Unit := do
  if ← keywords ["IF","EXISTS","PARTITION"] <||> keyword "PARTITION" then exprList g
  else if ← keyword "CONSTRAINT" then
    ifExists
    discard ident
    allow ["CASCADE"]
  else if ← keywords ["PRIMARY","KEY"] then return
  else
    allow ["COLUMN"]
    ifExists
    discard ident
    allow ["CASCADE"]

def renamePartition : Reads Unit := do
  exprList g
  expectKeywords ["RENAME","TO","PARTITION"]
  exprList g

/-- A new name and definition of a column. -/
def changeColumn : Reads Unit := do
  allow ["COLUMN"]
  discard ident
  discard ident
  discard dataType
  whileRead (columnOption g)

def alterColumn : Reads Unit := do
  allow ["COLUMN"]
  discard ident
  if ← keywords ["SET","NOT","NULL"] <||> keywords ["DROP","NOT","NULL"]
      <||> keywords ["DROP","DEFAULT"] then return
  else if ← keywords ["SET","DEFAULT"] then discard g.expr
  else if ← keywords ["SET","DATA","TYPE"] then discard dataType
  else
    expectKeywords ["ADD","GENERATED"]
    if !(← keyword "ALWAYS") then allow ["BY","DEFAULT"]
    expectKeywords ["AS","IDENTITY"]
    identityOptions

/-- One change of a table. -/
def tableChange : Reads Unit := do
  match ← expectOneOf
      ["ADD","RENAME","DISABLE","ENABLE","DROP","PARTITION","CHANGE","ALTER","SWAP"] with
  | "ADD" => addPart g
  | "RENAME" => renamePart
  | "DISABLE" => disablePart
  | "ENABLE" => enablePart
  | "DROP" => dropPart g
  | "PARTITION" => renamePartition g
  | "CHANGE" => changeColumn g
  | "ALTER" => alterColumn g
  | _ =>
    expectKeyword "WITH"
    discard objectName

def alterTable : Reads Unit := do
  ifExists
  allow ["ONLY"]
  discard objectName
  discard (sepBy (tableChange g))

/-- An ALTER behind that word. -/
def alter : Reads Unit := do
  match ← expectOneOf ["VIEW","TABLE","INDEX"] with
  | "VIEW" => alterView g
  | "TABLE" => alterTable g
  | _ => alterIndex

/-- A parameter of a function. What could be a type of one's own is the name of the parameter. -/
def parameter : Reads Unit := do
  allowOneOf ["IN","OUT","INOUT"]
  match ← dataType with
  | .custom _ => discard dataType
  | _ => return
  if ← keyword "DEFAULT" <||> symbol "=" then discard g.expr

/-- A function by its name, and by its parameters where the name is not enough. -/
def functionSignature : Reads Unit := do
  discard objectName
  if ← symbol "(" then
    if !(← symbol ")") then
      discard (sepBy (parameter g))
      expectSymbol ")"

/-- A DROP behind that word. -/
def drop : Reads Unit := do
  allow ["TEMPORARY"]
  match ← expectOneOf
      ["TABLE","VIEW","INDEX","ROLE","SCHEMA","SEQUENCE","STAGE","FUNCTION"] with
  | "FUNCTION" =>
    ifExists
    discard (sepBy (functionSignature g))
    allowOneOf ["CASCADE","RESTRICT"]
  | kind =>
    ifExists
    discard (sepBy objectName)
    let cascade ← keyword "CASCADE"
    let restrict ← keyword "RESTRICT"
    let purge ← keyword "PURGE"
    if (cascade && restrict) || (kind == "ROLE" && (cascade || restrict || purge)) then
      expected "no such options in DROP"

end
end QueryPlan.Sql.AlterReading
