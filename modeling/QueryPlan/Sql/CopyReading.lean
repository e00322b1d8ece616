import QueryPlan.Sql.ExprReading

/-! # Reading COPY statements -/
namespace QueryPlan.Sql.CopyReading
open Reads ExprReading

/-- An option between brackets. -/
def copyOption : Reads Unit := do
  let switch : Reads Unit := allowOneOf ["TRUE","FALSE"]
  match ← expectOneOf ["FORMAT","FREEZE","DELIMITER","NULL","HEADER","QUOTE","ESCAPE",
      "FORCE_QUOTE","FORCE_NOT_NULL","FORCE_NULL","ENCODING"] with
  | "FORMAT" => discard ident
  | "FREEZE" | "HEADER" => switch
  | "DELIMITER" | "QUOTE" | "ESCAPE" => discard literalChar
  | "NULL" | "ENCODING" => discard literalString
  | _ => discard idents

/-- A text behind a word AS that may be left out. -/
def textAs (text : Reads String) : Reads Unit := do
  allow ["AS"]
  discard text

/-- An option for comma-separated values. -/
def separatedOption : Reads Unit := do
  match ← expectOneOf ["HEADER","QUOTE","ESCAPE","FORCE"] with
  | "HEADER" => return
  | "FORCE" =>
    if !(← keywords ["NOT","NULL"]) then expectKeyword "QUOTE"
    discard (sepBy ident)
  | _ => textAs literalChar

/-- An option without brackets around it. -/
def plainOption : Reads Unit := do
  match ← expectOneOf ["BINARY","DELIMITER","NULL","CSV"] with
  | "DELIMITER" => textAs literalChar
  | "NULL" => textAs literalString
  | "CSV" => whileRead do return (← attempt separatedOption).isSome
  | _ => return

/-- What follows the rows that stand behind the statement itself: they end with a backslash and a
point, or with the text. A backslash before anything else is taken with it. -/
def afterRows : List Token → List Token
  | [] => []
  | [_] => []
  | a :: b :: rest =>
    if a == .symbol "\\" then if b == .symbol "." then rest else afterRows rest
    else afterRows (b :: rest)

section
variable (g : Grammar)

/-- Where the rows go to or come from; a query has none to take rows in. -/
def direction : Reads Unit := do
  if ← symbol "(" then
    discard g.query
    expectSymbol ")"
    expectKeyword "TO"
  else
    discard objectName
    discard optionalIdents
    discard (expectOneOf ["FROM","TO"])

/-- A COPY behind that word. -/
def copy : Reads Unit := do
  direction g
  let rowsFollow ← keyword "STDIN"
  if !rowsFollow then
    if !(← keyword "STDOUT") then
      allow ["PROGRAM"]
      discard literalString
  allow ["WITH"]
  if ← symbol "(" then
    discard (sepBy copyOption)
    expectSymbol ")"
  whileRead do return (← attempt plainOption).isSome
  if rowsFollow then
    expectSymbol ";"
    modify afterRows

end
end QueryPlan.Sql.CopyReading
