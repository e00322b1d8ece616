import QueryPlan.Sql.Reading

/-! # Reading statements about transactions -/
namespace QueryPlan.Sql.TransactionReading
open Reads

/-- A property of a transaction, if one is next. -/
def mode : Reads Bool := do
  if ← keywords ["ISOLATION","LEVEL"] then
    if ← keywords ["READ","UNCOMMITTED"] <||> keywords ["READ","COMMITTED"]
        <||> keywords ["REPEATABLE","READ"] <||> keyword "SERIALIZABLE" then return true
    else expected "isolation level"
  else keywords ["READ","ONLY"] <||> keywords ["READ","WRITE"]

private def modesAfter (required : Bool) : Nat → Reads Unit
  | 0 => return
  | n+1 => do
    if ← mode then modesAfter (← symbol ",") n
    else if required then expected "transaction mode"

/-- Any number of properties. Commas between them may be left out, but behind a comma another one
has to stand. -/
def modes : Reads Unit := do modesAfter false ((← get).length+1)

/-- A START behind that word. -/
def start : Reads Unit := do
  expectKeyword "TRANSACTION"
  modes

/-- A BEGIN behind that word. -/
def begin : Reads Unit := do
  allowOneOf ["DEFERRED","IMMEDIATE","EXCLUSIVE"]
  allowOneOf ["TRANSACTION","WORK"]
  modes

/-- A COMMIT behind that word. -/
def commit : Reads Unit := do
  allowOneOf ["TRANSACTION","WORK"]
  if ← keyword "AND" then
    allow ["NO"]
    expectKeyword "CHAIN"

/-- A ROLLBACK behind that word. -/
def rollback : Reads Unit := do
  commit
  if ← keyword "TO" then
    allow ["SAVEPOINT"]
    discard ident

end QueryPlan.Sql.TransactionReading
