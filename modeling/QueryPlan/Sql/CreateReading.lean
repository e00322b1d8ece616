import QueryPlan.Sql.ColumnReading

/-! # Reading CREATE statements -/
namespace QueryPlan.Sql.CreateReading
open Reads TypeReading ExprReading ColumnReading

/-- A text or a word behind an equals sign. -/
def wordSetting : Reads Unit := do
  expectSymbol "="
  discard word

/-- Parts of a name as far as they go; what follows the name is taken with it if it could not have
been its end. -/
def lenientName : Nat → Reads Unit
  | 0 => return
  | n+1 => do
    match ← next with
    | some (.word _ _) | some (.string _) => if ← symbol "." then lenientName n
    | _ => return

section
variable (g : Grammar)

def viewColumn : Reads Unit := do
  discard ident
  settings g "OPTIONS"

/-- A view behind the word VIEW. -/
def createView : Reads Unit := do
  ifNotExists
  discard objectName
  if ← symbol "(" then
    if !(← symbol ")") then
      discard (sepBy (viewColumn g))
      expectSymbol ")"
  settings g "WITH"
  allowClause ["CLUSTER"] do
    expectKeyword "BY"
    optionalIdents
  settings g "OPTIONS"
  expectKeyword "AS"
  discard g.query
  allow ["WITH","NO","SCHEMA","BINDING"]

/-- How the rows of a table are kept in files, part by part. -/
def storagePart : Reads Bool := do
  match ← oneOf ["ROW","STORED","LOCATION"] with
  | some "ROW" =>
    expectKeyword "FORMAT"
    if ← keyword "SERDE" then done literalString else done (allow ["DELIMITED"])
  | some "STORED" =>
    expectKeyword "AS"
    if ← keyword "INPUTFORMAT" then
      discard g.expr
      expectKeyword "OUTPUTFORMAT"
      done g.expr
    else done fileFormat
  | some _ => done literalString
  | none => return false

/-- How the rows of a table are spread and kept. -/
def storage : Reads Unit := do
  allowClause ["PARTITIONED","BY"] (bracketed (sepBy (columnDef g)))
  whileRead (storagePart g)

def sortedBy : Reads Unit := do
  if ← symbol "(" then
    if !(← symbol ")") then
      discard (sepBy ident)
      expectSymbol ")"
  else discard ident

/-- Whether the number of the first row is told, which fits 32 bits. -/
def firstNumber : Reads Unit := do
  discard (symbol "=")
  if UInt32.size ≤ (← wholeNumber) then expected "literal int"

def onCommit : Reads Unit := do
  if !(← keywords ["ON","COMMIT","DELETE","ROWS"] <||> keywords ["ON","COMMIT","PRESERVE","ROWS"])
  then allow ["ON","COMMIT","DROP"]

/-- A table behind the word TABLE. -/
def createTable : Reads Unit := do
  ifNotExists
  discard objectName
  allowClause ["ON","CLUSTER"] do
    match ← next with
    | some (.string _) | some (.word _ _) => return
    | _ => expected "identifier or cluster literal"
  if (← oneOf ["LIKE","ILIKE"]).isSome then lenientName (← get).length
  if ← keyword "CLONE" then lenientName (← get).length
  tableColumns g
  allow ["WITHOUT","ROWID"]
  storage g
  settings g "WITH"
  settings g "TBLPROPERTIES"
  allowClause ["ENGINE"] wordSetting
  allowClause ["AUTO_INCREMENT"] firstNumber
  allowClause ["ORDER","BY"] sortedBy
  allowClause ["PARTITION","BY"] g.expr
  allowClause ["CLUSTER","BY"] (sepBy ident)
  settings g "OPTIONS"
  allowClause ["AS"] g.query
  allowClause ["DEFAULT","CHARSET"] wordSetting
  allowClause ["COLLATE"] wordSetting
  onCommit
  allow ["STRICT"]
  allowClause ["COMMENT"] do
    discard (symbol "=")
    quotedString

/-- A table in files behind the word EXTERNAL. -/
def createExternalTable : Reads Unit := do
  expectKeyword "TABLE"
  ifNotExists
  discard objectName
  tableColumns g
  storage g
  settings g "TBLPROPERTIES"

def createExtension : Reads Unit := do
  ifNotExists
  discard ident
  if ← keyword "WITH" then
    allowClause ["SCHEMA"] ident
    allowClause ["VERSION"] ident
    allow ["CASCADE"]

/-- An index behind the word INDEX; it needs a name only behind IF NOT EXISTS. -/
def createIndex : Reads Unit := do
  allow ["CONCURRENTLY"]
  let named ← keywords ["IF","NOT","EXISTS"]
  if named || !(← nextIsKeyword "ON") then discard objectName
  expectKeyword "ON"
  discard objectName
  allowClause ["USING"] ident
  discard (bracketed (sepBy (orderBy g)))
  allowClause ["INCLUDE"] idents
  if ← keyword "NULLS" then
    allow ["NOT"]
    expectKeyword "DISTINCT"
  allowClause ["WHERE"] g.expr

def createVirtualTable : Reads Unit := do
  expectKeyword "TABLE"
  ifNotExists
  discard objectName
  expectKeyword "USING"
  discard ident
  discard optionalIdents

def createSchema : Reads Unit := do
  ifNotExists
  if !(← nextIsKeyword "AUTHORIZATION") then discard objectName
  allowClause ["AUTHORIZATION"] ident

def createDatabase : Reads Unit := do
  ifNotExists
  discard objectName
  whileRead do
    if (← oneOf ["LOCATION","MANAGEDLOCATION"]).isSome then done literalString else return false

def createRole : Reads Unit := do
  ifNotExists
  discard (sepBy objectName)
  allow ["WITH"]

def createSequence : Reads Unit := do
  ifNotExists
  discard objectName
  allowClause ["AS"] dataType
  sequenceOptions
  allowClause ["OWNED","BY"] do
    if !(← keyword "NONE") then discard objectName

def createType : Reads Unit := do
  discard objectName
  expectKeyword "AS"
  looseList do
    discard ident
    discard dataType
    allowClause ["COLLATE"] objectName

/-- A procedure behind that word; its statements stand between BEGIN and END. -/
def createProcedure : Reads Unit := do
  discard objectName
  looseList do
    match ← peek with
    | some (.word _ _) =>
      discard ident
      discard dataType
    | _ => return
  expectKeywords ["AS","BEGIN"]
  discard (statements g.statement)
  expectKeyword "END"

/-- A parameter of a macro, which may have a value to start from. -/
def macroParameter : Reads Unit := do
  discard ident
  if ← symbol ":=" <||> symbol "=>" then discard g.expr

/-- A macro behind that word: a name with parameters for an expression or a query. -/
def createMacro : Reads Unit := do
  discard objectName
  expectSymbol "("
  if !(← symbol ")") then
    discard (sepBy (macroParameter g))
    expectSymbol ")"
  expectKeyword "AS"
  if ← keyword "TABLE" then discard g.query else discard g.expr

/-- A CREATE behind that word. Few kinds of objects may replace others. -/
def create : Reads Unit := do
  let replace ← keywords ["OR","REPLACE"]
  allow ["OR","ALTER"]
  allow ["LOCAL"]
  allow ["GLOBAL"]
  allow ["TRANSIENT"]
  allowOneOf ["TEMP","TEMPORARY"]
  let replaceable := ["TABLE","MATERIALIZED","VIEW","EXTERNAL","MACRO"]
  let others := ["EXTENSION","INDEX","UNIQUE","VIRTUAL","SCHEMA","DATABASE","ROLE","SEQUENCE",
    "TYPE","PROCEDURE"]
  match ← expectOneOf (if replace then replaceable else replaceable ++ others) with
  | "TABLE" => createTable g
  | "MATERIALIZED" =>
    expectKeyword "VIEW"
    createView g
  | "VIEW" => createView g
  | "EXTERNAL" => createExternalTable g
  | "MACRO" => createMacro g
  | "EXTENSION" => createExtension
  | "INDEX" => createIndex g
  | "UNIQUE" =>
    expectKeyword "INDEX"
    createIndex g
  | "VIRTUAL" => createVirtualTable
  | "SCHEMA" => createSchema
  | "DATABASE" => createDatabase
  | "ROLE" => createRole
  | "SEQUENCE" => createSequence
  | "TYPE" => createType
  | _ => createProcedure g

end
end QueryPlan.Sql.CreateReading
