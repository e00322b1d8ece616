import QueryPlan.Sql.Reading

/-! # Reading GRANT and REVOKE statements -/
namespace QueryPlan.Sql.PrivilegeReading
open Reads

/-- One privilege; some may be restricted to columns. -/
def privilege : Reads Unit := do
  match ← expectOneOf ["CONNECT","CREATE","DELETE","EXECUTE","INSERT","REFERENCES","SELECT",
      "TEMPORARY","TRIGGER","TRUNCATE","UPDATE","USAGE"] with
  | "INSERT" | "REFERENCES" | "SELECT" | "UPDATE" => discard optionalIdents
  | _ => return

/-- Privileges and the objects that they are about. -/
def privileges : Reads Unit := do
  if ← keyword "ALL" then allow ["PRIVILEGES"] else discard (sepBy privilege)
  expectKeyword "ON"
  if !(← keywords ["ALL","TABLES","IN","SCHEMA"] <||> keywords ["ALL","SEQUENCES","IN","SCHEMA"])
  then allowOneOf ["SEQUENCE","SCHEMA","TABLE"]
  discard (sepBy objectName)

/-- A GRANT behind that word. -/
def grant : Reads Unit := do
  privileges
  expectKeyword "TO"
  discard (sepBy ident)
  allow ["WITH","GRANT","OPTION"]
  allowClause ["GRANTED","BY"] ident

/-- A REVOKE behind that word. -/
def revoke : Reads Unit := do
  privileges
  expectKeyword "FROM"
  discard (sepBy ident)
  allowClause ["GRANTED","BY"] ident
  let cascade ← keyword "CASCADE"
  let restrict ← keyword "RESTRICT"
  if cascade && restrict then expected "CASCADE or RESTRICT, not both"

end QueryPlan.Sql.PrivilegeReading
