import QueryPlan.Sql.ChangeReading

/-! # Reading queries -/
namespace QueryPlan.Sql.QueryReading
open Reads ExprReading SelectReading ChangeReading

section
variable (g : Grammar)

/-- The table named behind TABLE; the name takes three tokens, whether it is dotted or not. -/
def namedTable : Reads Body := do
  match ← next,← next,← next with
  | some (.word schema _),some (.symbol "."),some (.word name _) =>
    return .other ("TABLE " ++ schema ++ "." ++ name)
  | _,some (.symbol "."),_ => expected "Table name"
  | some (.word name _),_,_ => return .other ("TABLE " ++ name)
  | _,_,_ => expected "Table name"

/-- What a set operation does with equal rows; only unions may match columns by name. -/
def setQuantifier (union : Bool) : Reads String := do
  let byName (keys : List String) : Reads Bool := if union then keywords keys else return false
  if ← byName ["DISTINCT","BY","NAME"] then return " DISTINCT BY NAME"
  else if ← byName ["BY","NAME"] then return " BY NAME"
  else if ← keyword "ALL" then
    if ← byName ["BY","NAME"] then return " ALL BY NAME" else return " ALL"
  else if ← keyword "DISTINCT" then return " DISTINCT"
  else return ""

def operandBody : Reads Body := do
  if ← keyword "SELECT" then return .select (← select g)
  else if ← symbol "(" then
    let q ← g.query
    expectSymbol ")"
    return .query q
  else if ← keyword "VALUES" then values g
  else if ← keyword "TABLE" then namedTable
  else expected "SELECT, VALUES, or a subquery in the query body"

/-- Set operations of one precedence, taken from the left. -/
def setOperations (ops : List String) (operand : Reads Body) : Nat → Body → Reads Body
  | 0,left => return left
  | n+1,left => do
    match ← oneOf ops with
    | none => return left
    | some op =>
      let quantifier ← setQuantifier (op == "UNION")
      let right ← operand
      setOperations ops operand n
        (.setOperation (left.text ++ " " ++ op ++ quantifier ++ " " ++ right.text))

def intersections : Reads Body := do
  let first ← operandBody g
  setOperations ["INTERSECT"] (operandBody g) (← get).length first

def body : Reads Body := do
  let first ← intersections g
  setOperations ["UNION","EXCEPT"] (intersections g) (← get).length first

def commonTable : Reads String := do
  let name ← ident
  let columns ← if ← keyword "AS" then pure []
    else
      let columns ← optionalIdents
      expectKeyword "AS"
      pure columns
  let q ← bracketed g.query
  let source ← if ← keyword "FROM" then pure (" FROM " ++ (← ident).text) else pure ""
  return (TableAlias.mk name columns).text ++ " AS (" ++ q.text ++ ")" ++ source

def withClause : Reads String := do
  let recursive ← if ← keyword "RECURSIVE" then pure "RECURSIVE " else pure ""
  return "WITH " ++ recursive ++ commaList (← sepBy (commonTable g))

def offset : Reads String := do
  let e ← g.expr
  match ← oneOf ["ROW","ROWS"] with
  | some word => return "OFFSET " ++ e.text ++ " " ++ word
  | none => return "OFFSET " ++ e.text

def rowLimit : Reads (Option String) := do
  if ← keyword "LIMIT" then
    if ← keyword "ALL" then return none else return some (← g.expr).text
  else return none

/-- LIMIT and OFFSET in any order, and LIMIT with two values, of which the first is the offset. -/
def limits : Nat → Option String → Option String → Reads (Option String × Option String)
  | 0,limit,skip => return (limit,skip)
  | n+1,limit,skip => do
    let limit ← if limit.isNone then rowLimit g else pure limit
    let skip ← if skip.isNone then clause ["OFFSET"] (offset g) else pure skip
    match limit,skip with
    | some first,none =>
      if ← symbol "," then limits n (some (← g.expr).text) (some ("OFFSET " ++ first))
      else limits n limit skip
    | _,_ => limits n limit skip

def fetch : Reads String := do
  let _ ← expectOneOf ["FIRST","NEXT"]
  let quantity ← match ← oneOf ["ROW","ROWS"] with
    | some _ => pure ""
    | none =>
      let v ← value
      let percent ← if ← keyword "PERCENT" then pure " PERCENT" else pure ""
      let _ ← expectOneOf ["ROW","ROWS"]
      pure (" " ++ v.text ++ percent)
  let extent ← if ← keyword "ONLY" then pure "ONLY"
    else
      expectKeywords ["WITH","TIES"]
      pure "WITH TIES"
  return "FETCH FIRST" ++ quantity ++ " ROWS " ++ extent

def lock : Reads String := do
  let kind ← expectOneOf ["UPDATE","SHARE"]
  let table ← if ← keyword "OF" then pure (" OF " ++ (← objectName).text) else pure ""
  let wait ← if ← keyword "NOWAIT" then pure " NOWAIT"
    else if ← keywords ["SKIP","LOCKED"] then pure " SKIP LOCKED" else pure ""
  return "FOR " ++ kind ++ table ++ wait

/-- A text between brackets. -/
def bracketedText : Reads String := return "('" ++ (← bracketed literalString) ++ "')"

/-- Options of the form of a result, each behind a comma; the last one of a kind counts. A comma
before anything else is taken alone. -/
def formOptions (keys : List String) : Nat → List (String × String) → Reads (List (String × String))
  | 0,options => return options
  | n+1,options => do
    if ← symbol "," then
      match ← oneOf keys with
      | some key =>
        let detail ← if key == "ROOT" then bracketedText
          else if key == "BINARY" then do
            expectKeyword "BASE64"
            pure " BASE64"
          else pure ""
        formOptions keys n ((key,detail) :: options)
      | none => formOptions keys n options
    else return options

/-- Options as they are written back, in the order of `keys`. -/
def formOptionsText (keys : List String) (options : List (String × String)) : String :=
  String.join (keys.filterMap fun key => (options.lookup key).map fun detail => ", " ++ key ++ detail)

/-- The options of XML results, in the order in which they are written back. -/
def xmlOptions : List String := ["BINARY","TYPE","ROOT","ELEMENTS"]

/-- The options of JSON results, in the order in which they are written back. -/
def jsonOptions : List String := ["ROOT","INCLUDE_NULL_VALUES","WITHOUT_ARRAY_WRAPPER"]

/-- What follows FOR XML. -/
def xmlForm : Reads String := do
  let kind ← expectOneOf ["RAW","AUTO","EXPLICIT","PATH"]
  let element ← if ["RAW","PATH"].contains kind then
      if ← nextIsSymbol "(" then bracketedText else pure ""
    else pure ""
  let options ← formOptions xmlOptions (← get).length []
  return "FOR XML " ++ kind ++ element ++ formOptionsText xmlOptions options

/-- What follows FOR JSON. -/
def jsonForm : Reads String := do
  let kind ← expectOneOf ["AUTO","PATH"]
  let options ← formOptions jsonOptions (← get).length []
  return "FOR JSON " ++ kind ++ formOptionsText jsonOptions options

/-- Locks, or one clause for the form of the result, which ends them. -/
def forClauses : Nat → Reads (List String)
  | 0 => return []
  | n+1 => do
    if ← keyword "FOR" then
      if ← keyword "XML" then return [← xmlForm]
      else if ← keyword "JSON" then return [← jsonForm]
      else if ← keyword "BROWSE" then return ["FOR BROWSE"]
      else
        let first ← lock
        return first :: (← forClauses n)
    else return []

/-- A query, or an INSERT or UPDATE in its place. -/
def query : Reads Query := do
  let withClause ← clause ["WITH"] (withClause g)
  match ← oneOf ["INSERT","UPDATE"] with
  | some "INSERT" => return .mk { withClause } (.other (← insert g))
  | some _ => return .mk { withClause } (.other (← update g))
  | none =>
    let body ← body g
    let orderBy ← listClause ["ORDER","BY"] (orderBy g)
    let (limit,offset) ← limits g 2 none none
    let limitBy ← listClause ["BY"] g.expr
    let fetch ← clause ["FETCH"] fetch
    let locks ← forClauses (← get).length
    return .mk { withClause,orderBy,limit,offset,limitBy := limitBy.map Expr.text,fetch,locks }
      body

end
end QueryPlan.Sql.QueryReading
