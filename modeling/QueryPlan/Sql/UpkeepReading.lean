import QueryPlan.Sql.ColumnReading

/-! # Reading statements for the upkeep of tables -/
namespace QueryPlan.Sql.UpkeepReading
open Reads ColumnReading

section
variable (g : Grammar)

/-- A part of an ANALYZE, in any order. -/
def analyzedPart : Reads Bool := do
  match ← oneOf ["PARTITION","NOSCAN","FOR","CACHE","COMPUTE"] with
  | some "PARTITION" => done (exprList g)
  | some "FOR" =>
    expectKeyword "COLUMNS"
    done (attempt (sepBy ident))
  | some "CACHE" => done (expectKeyword "METADATA")
  | some "COMPUTE" => done (expectKeyword "STATISTICS")
  | some _ => return true
  | none => return false

/-- An ANALYZE behind that word. -/
def analyze : Reads Unit := do
  expectKeyword "TABLE"
  discard objectName
  whileRead (analyzedPart g)

/-- A TRUNCATE behind that word. -/
def truncate : Reads Unit := do
  allow ["TABLE"]
  discard objectName
  allowClause ["PARTITION"] (exprList g)

/-- An ATTACH behind that word. -/
def attach : Reads Unit := do
  allow ["DATABASE"]
  discard g.expr
  expectKeyword "AS"
  discard ident

/-- A check of the partitions of a table, behind MSCK. -/
def repair : Reads Unit := do
  allow ["REPAIR"]
  expectKeyword "TABLE"
  discard objectName
  discard <| attempt do
    allowOneOf ["ADD","DROP","SYNC"]
    expectKeyword "PARTITIONS"

/-- The query whose rows are cached; unless the text ends, it has to be there. -/
def cachedQuery : Reads Unit := do
  settings g "OPTIONS"
  match ← peek with
  | none => return
  | some (.word _ _) =>
    allow ["AS"]
    discard g.query
  | some _ => expected "a QUERY statement"

/-- A CACHE behind that word. A name may stand in front of the table's. -/
def cache : Reads Unit := do
  if !(← keyword "TABLE") then
    discard objectName
    expectKeyword "TABLE"
  discard objectName
  cachedQuery g

/-- An UNCACHE behind that word. -/
def uncache : Reads Unit := do
  expectKeyword "TABLE"
  ifExists
  discard objectName

end
end QueryPlan.Sql.UpkeepReading
