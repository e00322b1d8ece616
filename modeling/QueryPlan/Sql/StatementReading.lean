import QueryPlan.Sql.AlterReading
import QueryPlan.Sql.CopyReading
import QueryPlan.Sql.CreateReading
import QueryPlan.Sql.PrivilegeReading
import QueryPlan.Sql.QueryReading
import QueryPlan.Sql.SessionReading
import QueryPlan.Sql.UpkeepReading

/-! # Reading statements

Only queries are kept. Other statements are read to tell well-formed ones from others. -/
namespace QueryPlan.Sql
namespace StatementReading
open Reads ExprReading CallReading PrimaryReading ChangeReading QueryReading CreateReading AlterReading
  CopyReading PrivilegeReading TransactionReading UpkeepReading

section
variable (g : Grammar)

/-- What an EXPLAIN is about: a statement, which explains no other one, or a table. -/
def explained : Reads Unit := do
  allow ["ANALYZE"]
  allow ["VERBOSE"]
  if ← keyword "FORMAT" then discard (expectOneOf ["TEXT","GRAPHVIZ","JSON"])
  match ← attempt g.statement with
  | some .explanation => expected "a statement that explains no other"
  | some _ => return
  | none => discard objectName

/-- A CALL behind that word; a procedure without arguments needs no brackets. -/
def callStatement : Reads Unit := do
  let name ← objectName
  if ← nextIsSymbol "(" then discard (call g (← operands g) name)

/-- The rest of a statement behind the word that opens it. -/
def opened (word : String) : Reads Unit := do
  match word with
  | "KILL" => SessionReading.kill
  | "FLUSH" => SessionReading.flush
  | "EXPLAIN" | "DESCRIBE" => explained g
  | "ANALYZE" => analyze g
  | "TRUNCATE" => truncate g
  | "ATTACH" => attach g
  | "MSCK" => repair
  | "CREATE" => create g
  | "CACHE" => cache g
  | "DROP" => drop g
  | "DISCARD" => discard (expectOneOf ["ALL","PLANS","SEQUENCES","TEMP","TEMPORARY"])
  | "DECLARE" => SessionReading.declare g
  | "FETCH" => SessionReading.fetchRows
  | "DELETE" => delete g
  | "INSERT" | "REPLACE" => discard (insert g)
  | "UNCACHE" => uncache
  | "UPDATE" => discard (update g)
  | "ALTER" => alter g
  | "CALL" => callStatement g
  | "COPY" => copy g
  | "CLOSE" => SessionReading.close
  | "SET" => SessionReading.set g
  | "SHOW" => SessionReading.showItems g
  | "USE" | "SAVEPOINT" => discard ident
  | "GRANT" => grant
  | "REVOKE" => revoke
  | "START" => start
  | "BEGIN" => begin
  | "RELEASE" =>
    allow ["SAVEPOINT"]
    discard ident
  | "COMMIT" | "END" => commit
  | "ROLLBACK" => rollback
  | "ASSERT" =>
    discard g.expr
    allowClause ["AS"] g.expr
  | "DEALLOCATE" =>
    allow ["PREPARE"]
    discard ident
  | "EXECUTE" => SessionReading.execute g
  | "PREPARE" => SessionReading.prepare g
  | "MERGE" => merge g
  | "PRAGMA" => SessionReading.pragma
  | _ => expected "an SQL statement"

def statement : Reads Statement := do
  match ← peek with
  | some (.symbol "(") => return .query (← g.query)
  | some t =>
    if t.isKeywordOf ["SELECT","WITH","VALUES"] then return .query (← g.query)
    else
      match ← next with
      | some (.word word none) =>
        opened g (capitals word)
        return if t.isKeywordOf ["EXPLAIN","DESCRIBE"] then .explanation else .other
      | _ => expected "an SQL statement"
  | none => expected "an SQL statement"

end

/-- Reading with room for so many levels of nesting. -/
def grammar : Nat → Grammar
  | 0 => ⟨throw .tooDeep,throw .tooDeep,throw .tooDeep⟩
  | n+1 =>
    let g := grammar n
    ⟨expr g,query g,statement g⟩

/-- Levels of statements, queries and expressions that may nest. -/
def maxDepth : Nat := 50

end StatementReading

/-- The statements of a text. -/
def Statement.ofText (text : String) : Except SyntaxError (List Statement) := do
  let tokens ← Token.scan text
  let (result,_) ← Reads.statements (StatementReading.grammar StatementReading.maxDepth).statement tokens
  return result

end QueryPlan.Sql
