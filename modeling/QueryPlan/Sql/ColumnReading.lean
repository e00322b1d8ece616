import QueryPlan.Sql.ExprReading

/-! # Reading column definitions

Plans hold nothing of the statements that define tables, so these readings only tell well-formed
definitions from others. -/
namespace QueryPlan.Sql.ColumnReading
open Reads TypeReading ExprReading

section
variable (g : Grammar)

/-- Expressions between brackets. -/
def exprList : Reads Unit := discard (bracketed (sepBy g.expr))

def setting : Reads Unit := do
  discard ident
  expectSymbol "="
  discard g.expr

/-- Settings between brackets behind a key word, if it is next. -/
def settings (key : String) : Reads Unit := allowClause [key] (bracketed (sepBy (setting g)))

def sequenceBound (key : String) : Reads Unit := do
  if ← keyword key then numberValue else allow ["NO",key]

/-- How the numbers of a sequence run, in the order in which it may be told. -/
def sequenceOptions : Reads Unit := do
  if ← keyword "INCREMENT" then
    allow ["BY"]
    numberValue
  sequenceBound "MINVALUE"
  sequenceBound "MAXVALUE"
  if ← keyword "START" then
    allow ["WITH"]
    numberValue
  allowClause ["CACHE"] numberValue
  allow ["NO"]
  allow ["CYCLE"]

/-- Such options between brackets, if a bracket is next. -/
def identityOptions : Reads Unit := do
  if ← nextIsSymbol "(" then bracketed sequenceOptions

/-- A property of the check of a constraint that has not been told yet, if one is next. -/
def checkProperty (told : List String) : Reads (Option String) := do
  let new (key : String) (p : Reads Bool) : Reads Bool := if told.contains key then return false else p
  if ← new "DEFERRABLE" (keywords ["NOT","DEFERRABLE"] <||> keyword "DEFERRABLE") then
    return some "DEFERRABLE"
  else if ← new "INITIALLY" (keyword "INITIALLY") then
    discard (expectOneOf ["DEFERRED","IMMEDIATE"])
    return some "INITIALLY"
  else if ← new "ENFORCED" (keyword "ENFORCED" <||> keywords ["NOT","ENFORCED"]) then
    return some "ENFORCED"
  else return none

private def checkPropertiesAfter : Nat → List String → Reads Unit
  | 0,_ => return
  | n+1,told => do
    match ← checkProperty told with
    | some key => checkPropertiesAfter n (key :: told)
    | none => return

/-- When a constraint is checked; each of the three properties is told at most once. -/
def checkProperties : Reads Unit := checkPropertiesAfter 3 []

def referentialAction : Reads Unit := do
  if !(← keyword "RESTRICT" <||> keyword "CASCADE" <||> keywords ["SET","NULL"]
      <||> keywords ["NO","ACTION"] <||> keywords ["SET","DEFAULT"]) then
    expected "one of RESTRICT, CASCADE, SET NULL, NO ACTION or SET DEFAULT"

/-- What happens to a row when the row that it refers to goes or changes; each is told at most
once. -/
def referentialActions : Reads Unit := do
  if ← keywords ["ON","DELETE"] then
    referentialAction
    allowClause ["ON","UPDATE"] referentialAction
  else if ← keywords ["ON","UPDATE"] then
    referentialAction
    allowClause ["ON","DELETE"] referentialAction

/-- The expression of a computed column, and whether its values are stored. -/
def computed : Reads Unit := do
  discard (bracketed g.expr)
  allowOneOf ["STORED","VIRTUAL"]

/-- What follows GENERATED. Words that say nothing complete are taken, but make no option. -/
def generated : Reads Bool := do
  if ← keywords ["ALWAYS","AS","IDENTITY"] <||> keywords ["BY","DEFAULT","AS","IDENTITY"] then
    done identityOptions
  else if ← keywords ["ALWAYS","AS"] then
    if ← nextIsSymbol "(" then done (computed g) else return false
  else return false

/-- An option of a column, if one is next. -/
def columnOption : Reads Bool := do
  if ← keywords ["CHARACTER","SET"] then done objectName
  else if ← keywords ["NOT","NULL"] then return true
  else if ← keyword "COMMENT" then done quotedString
  else if ← keyword "NULL" then return true
  else if ← keyword "DEFAULT" then done g.expr
  else if ← keywords ["PRIMARY","KEY"] <||> keyword "UNIQUE" then done checkProperties
  else if ← keyword "REFERENCES" then
    discard objectName
    discard optionalIdents
    referentialActions
    done checkProperties
  else if ← keyword "CHECK" then done (bracketed g.expr)
  else if ← keyword "AUTO_INCREMENT" <||> keyword "AUTOINCREMENT" then return true
  else if ← keywords ["ON","UPDATE"] then done g.expr
  else if ← keyword "GENERATED" then generated g
  else if ← nextIsKeyword "OPTIONS" then done (settings g "OPTIONS")
  else if ← keyword "AS" then done (computed g)
  else return false

/-- An option of a column with a name in front or without, or a collation. -/
def columnDetail : Reads Bool := do
  if ← keyword "CONSTRAINT" then
    discard ident
    if ← columnOption g then return true else expected "constraint details after CONSTRAINT"
  else if ← columnOption g then return true
  else if ← keyword "COLLATE" then done objectName
  else return false

def columnDef : Reads Unit := do
  discard ident
  discard dataType
  allowClause ["COLLATE"] objectName
  whileRead (columnDetail g)

/-- A name that may stand before the columns of a constraint. -/
def indexName : Reads Unit := discard (attempt ident)

/-- A constraint of a table, if one is next. Indexes are constraints without name. -/
def tableConstraint : Reads Bool := do
  let named ← keyword "CONSTRAINT"
  if named then discard ident
  match ← oneOf ["PRIMARY","UNIQUE","FOREIGN","CHECK","FULLTEXT","SPATIAL"] with
  | some "FOREIGN" =>
    expectKeyword "KEY"
    discard idents
    expectKeyword "REFERENCES"
    discard objectName
    discard idents
    referentialActions
    done checkProperties
  | some "CHECK" => done (bracketed g.expr)
  | some "FULLTEXT" | some "SPATIAL" =>
    if named then expected "FULLTEXT or SPATIAL option without constraint name"
    else
      allowOneOf ["KEY","INDEX"]
      indexName
      done idents
  | some _ =>
    allow ["KEY"]
    indexName
    discard idents
    done checkProperties
  | none =>
    if named then expected "PRIMARY, UNIQUE, FOREIGN, or CHECK"
    else if (← oneOf ["INDEX","KEY"]).isSome then
      if !(← nextIsKeyword "USING") then indexName
      allowClause ["USING"] (expectOneOf ["BTREE","HASH"])
      done idents
    else return false

/-- The columns and constraints of a table between brackets, if a bracket is next. -/
def tableColumns : Reads Unit := looseList do
  if !(← tableConstraint g) then
    match ← peek with
    | some (.word _ _) => columnDef g
    | _ => expected "column name or constraint definition"

end
end QueryPlan.Sql.ColumnReading
