import QueryPlan.Sql.Query
import QueryPlan.Sql.TypeReading

/-! # Reading expressions

Operators bind by precedence. Every expression nested in another one is read by the grammar
one level below, so the depth of nesting is limited. -/
namespace QueryPlan.Sql

/-- Readings one level of nesting further in. -/
structure Grammar where
  expr : Reads Expr
  query : Reads Query
  statement : Reads Statement

/-- Readings of operands inside an expression, which are no level of nesting: a primary expression,
and one with the operators behind it that bind tighter than a precedence. -/
structure Operands where
  primary : Reads Expr
  above : Nat → Reads Expr

namespace ExprReading
open Reads TypeReading

/-- The text of a literal; one with escapes has them written back. -/
def literalText (kind : LiteralKind) (value : String) : String :=
  match kind with
  | .escaped => kind.enclose (String.ofList (value.toList.flatMap fun c =>
      match c with
      | '\'' => ['\\','\'']
      | '\\' => ['\\','\\']
      | '\n' => ['\\','n']
      | '\t' => ['\\','t']
      | '\r' => ['\\','r']
      | c => [c]))
  | kind => kind.enclose value

/-- The name of a parameter behind its mark. -/
def parameterName : Reads String := do
  match ← next with
  | some (.word name _) => return name
  | some (.number text false) => return text
  | _ => expected "placeholder"

/-- Key words that may stand for a value, as any plain word may. -/
def valueKeywords : List String := ["LOCATION","TYPE","DATE","START","END"]

/-- A literal, a placeholder, or a word that stands for itself. -/
def value : Reads Value := do
  match ← next with
  | some (.number text long) => return .number text long
  | some (.string s) => return .string s
  | some (.literal kind s) => return .other (literalText kind s)
  | some (.placeholder s) => return .placeholder s
  | some (.symbol ":") => return .placeholder (":" ++ (← parameterName))
  | some (.symbol "@") => return .placeholder ("@" ++ (← parameterName))
  | some t@(.word s quote) =>
    if t.isKeyword "TRUE" then return .boolean true
    else if t.isKeyword "FALSE" then return .boolean false
    else if t.isKeyword "NULL" then return .null
    else if quote == some '"' then return .quoted s
    else if quote.isNone && (t.isPlainWord || t.isKeywordOf valueKeywords) then return .other s
    else expected "a concrete value"
  | _ => expected "a value"

/-- A number or a placeholder for one. -/
def numberValue : Reads Unit := do
  match ← value with
  | .number _ _ | .placeholder _ => return
  | _ => expected "literal number"

def dateTimeFields : List String :=
  ["YEAR","MONTH","WEEK","DAY","HOUR","MINUTE","SECOND","CENTURY","DECADE","DOY","DOW",
    "EPOCH","ISODOW","ISOYEAR","JULIAN","MICROSECOND","MICROSECONDS","MILLENIUM",
    "MILLENNIUM","MILLISECOND","MILLISECONDS","NANOSECOND","NANOSECONDS","QUARTER",
    "TIMEZONE","TIMEZONE_HOUR","TIMEZONE_MINUTE"]

def dateTimeField : Reads String :=
  expectOneOf (["DATE","DAYOFWEEK","DAYOFYEAR","ISOWEEK","TIME","TIMEZONE_ABBR","TIMEZONE_REGION"]
    ++ dateTimeFields)

private def withBlank (s : String) : String := if s.isEmpty then "" else " " ++ s

/-- The units and precisions behind the value of an interval, written back. -/
def intervalTail : Reads String := do
  match ← oneOf dateTimeFields with
  | some "SECOND" =>
    if ← symbol "(" then
      let n ← wholeNumber
      let digits ← if ← symbol "," then pure (", " ++ toString (← wholeNumber)) else pure ""
      expectSymbol ")"
      return " SECOND (" ++ toString n ++ digits ++ ")"
    else return " SECOND"
  | field =>
    let head := (match field with
      | some f => " " ++ f
      | none => "") ++ withBlank (← precision)
    if ← keyword "TO" then
      let last ← dateTimeField
      let digits ← if last == "SECOND" then precision else pure ""
      return head ++ " TO " ++ last ++ withBlank digits
    else return head

/-- Precedence of the operator that comes next; zero if none does. -/
def nextPrecedence : Reads Nat := do
  let ts ← get
  match ts with
  | .symbol s :: _ =>
    return if ["=","<","<=","<>","!=",">",">=","==","~","~*","!~","!~*","~~","~~*","!~~",
        "!~~*","<=>"].contains s then 20
      else if s == "|" then 21
      else if ["^","#",">>","<<"].contains s then 22
      else if s == "&" then 23
      else if s == "+" || s == "-" then 30
      else if ["*","/","//","%","||"].contains s then 40
      else if ["::",":","!","[","&&","^@","->","->>","#>","#>>","@>","<@","#-","@?",
        "@@"].contains s then 50
      else 0
  | t :: rest =>
    return if t.isKeyword "OR" then 5
      else if t.isKeyword "AND" then 10
      else if t.isKeyword "XOR" then 24
      else if t.isKeyword "AT" then
        match rest with
        | a :: b :: _ => if a.isKeyword "TIME" && b.isKeyword "ZONE" then 20 else 0
        | _ => 0
      else if t.isKeyword "NOT" then
        match rest with
        | a :: _ =>
          if a.isKeywordOf ["IN","BETWEEN"] then 20
          else if a.isKeywordOf ["LIKE","ILIKE","RLIKE","REGEXP","SIMILAR"] then 19 else 0
        | [] => 0
      else if t.isKeyword "IS" then 17
      else if t.isKeywordOf ["IN","BETWEEN","OPERATOR"] then 20
      else if t.isKeywordOf ["LIKE","ILIKE","RLIKE","REGEXP","SIMILAR"] then 19
      else if t.isKeyword "DIV" then 40
      else 0
  | [] => return 0

def symbolOperator? (s : String) : Option BinaryOp :=
  match s with
  | "=" | "==" => some .eq
  | "<>" | "!=" => some .notEq
  | "<" => some .lt
  | "<=" => some .ltEq
  | ">" => some .gt
  | ">=" => some .gtEq
  | "+" => some .plus
  | "-" => some .minus
  | "*" => some .multiply
  | "/" => some .divide
  | "%" => some .modulo
  | "<=>" | "||" | "|" | "^" | "&" | "//" | "<<" | ">>" | "&&" | "^@" | "~" | "~*" | "!~" | "!~*"
  | "~~" | "~~*" | "!~~" | "!~~*" => some (.other s)
  | _ => none

/-- The dotted name of an operator behind the word OPERATOR. -/
def operatorName : Nat → Reads (List String)
  | 0 => expected "operator"
  | n+1 => do
    match ← next with
    | some t => if ← symbol "." then return t.text :: (← operatorName n) else return [t.text]
    | none => return ["EOF"]

/-- A binary operator between two operands, if one is next. -/
def binaryOperator? : Reads (Option BinaryOp) := do
  match ← peek with
  | some (.symbol s) =>
    match symbolOperator? s with
    | some op =>
      let _ ← next
      return some op
    | none => return none
  | some t =>
    if t.isKeyword "AND" then
      let _ ← next
      return some .and
    else if t.isKeyword "OR" then
      let _ ← next
      return some .or
    else if t.isKeyword "XOR" then
      let _ ← next
      return some (.other "XOR")
    else if t.isKeyword "OPERATOR" then
      let _ ← next
      let parts ← bracketed (do operatorName ((← get).length+1))
      return some (.other ("OPERATOR(" ++ ".".intercalate parts ++ ")"))
    else return none
  | none => return none

def escapeChar : Reads (Option String) := do
  if ← keyword "ESCAPE" then return some (← literalChar) else return none

private def escapeText : Option String → String
  | some c => " ESCAPE '" ++ c ++ "'"
  | none => ""

private def notText (negated : Bool) : String := if negated then " NOT" else ""

section
variable (g : Grammar) (o : Operands)

/-- What follows IS. -/
def isTest (e : Expr) : Reads Expr := do
  let negated ← keyword "NOT"
  let text := e.text ++ " IS" ++ notText negated
  if ← keyword "NULL" then return if negated then .isNotNull e else .isNull e
  else if ← keyword "TRUE" then return .other (text ++ " TRUE")
  else if ← keyword "FALSE" then return .other (text ++ " FALSE")
  else if ← keyword "UNKNOWN" then return .other (text ++ " UNKNOWN")
  else if ← keywords ["DISTINCT","FROM"] then
    return .other (text ++ " DISTINCT FROM " ++ (← g.expr).text)
  else expected "NULL, TRUE, FALSE, UNKNOWN or DISTINCT FROM after IS"

def inTest (e : Expr) (negated : Bool) : Reads Expr := do
  if ← keyword "UNNEST" then
    let array ← bracketed g.expr
    return .other (e.text ++ notText negated ++ " IN UNNEST(" ++ array.text ++ ")")
  else bracketed do
    if (← peek).any (·.isKeywordOf ["SELECT","WITH"]) then
      return .subquery (e.text ++ notText negated ++ " IN (" ++ (← g.query).text ++ ")")
    else return .inList e (← sepBy g.expr) negated

/-- IN, BETWEEN and the pattern tests, negated or not. -/
def rangeTest (e : Expr) : Reads Expr := do
  let negated ← keyword "NOT"
  let text := e.text ++ notText negated
  let regexp ← keyword "REGEXP"
  let rlike ← keyword "RLIKE"
  if regexp then return .other (text ++ " REGEXP " ++ (← o.above 19).text)
  else if rlike then return .other (text ++ " RLIKE " ++ (← o.above 19).text)
  else if ← keyword "IN" then inTest g e negated
  else if ← keyword "BETWEEN" then
    let low ← o.above 20
    expectKeyword "AND"
    return .between e negated low (← o.above 20)
  else if ← keyword "LIKE" then
    let pattern ← o.above 19
    return .like negated e pattern (← escapeChar)
  else if ← keyword "ILIKE" then
    let pattern ← o.above 19
    return .other (text ++ " ILIKE " ++ pattern.text ++ escapeText (← escapeChar))
  else if ← keywords ["SIMILAR","TO"] then
    let pattern ← o.above 19
    return .other (text ++ " SIMILAR TO " ++ pattern.text ++ escapeText (← escapeChar))
  else expected "IN or BETWEEN after NOT"

/-- Subscripts behind the first opening bracket. -/
def subscripts : Nat → Reads String
  | 0 => expected "]"
  | n+1 => do
    let index ← g.expr
    expectSymbol "]"
    let more ← if ← symbol "[" then subscripts n else pure ""
    return "[" ++ index.text ++ "]" ++ more

/-- An operand with the operator of the given precedence behind it. -/
def applyOperator (e : Expr) (precedence : Nat) : Reads Expr := do
  match ← binaryOperator? with
  | some op =>
    match ← oneOf ["ANY","ALL"] with
    | some quantifier =>
      let right ← bracketed (o.above precedence)
      if [BinaryOp.gt,.lt,.gtEq,.ltEq,.eq,.notEq].contains op then
        return .other (e.text ++ " " ++ op.text ++ " " ++ quantifier ++ "(" ++ right.text ++ ")")
      else expected "a comparison before ANY or ALL"
    | none => return .binary e op (← o.above precedence)
  | none =>
    if ← keyword "IS" then isTest g e
    else if ← keyword "AT" then
      expectKeywords ["TIME","ZONE"]
      match ← next with
      | some (.string zone) => return .other (e.text ++ " AT TIME ZONE '" ++ zone ++ "'")
      | _ => expected "a string after AT TIME ZONE"
    else if (← peek).any (·.isKeywordOf
        ["NOT","IN","BETWEEN","LIKE","ILIKE","SIMILAR","REGEXP","RLIKE"]) then rangeTest g o e
    else
      match ← next with
      | some (.symbol "::") => return .cast e (← dataType) none
      | some (.symbol "!") => return .unary .factorial e
      | some (.symbol "[") => return .other (e.text ++ (← subscripts g (← get).length))
      | some (.symbol ":") => return .other (e.text ++ ":" ++ (← value).text)
      | some (.symbol s) =>
        if ["->","->>","#>","#>>","@>","<@","#-","@?","@@"].contains s then
          return .other (e.text ++ " " ++ s ++ " " ++ (← g.expr).text)
        else expected "an operator"
      | _ => expected "an operator"

/-- Operators that bind tighter than a precedence, as many as there are; `ofNext` tells how
tight the next one binds. -/
def operators (ofNext : Reads Nat) (precedence : Nat) : Nat → Expr → Reads Expr
  | 0,e => return e
  | n+1,e => do
    let found ← ofNext
    if found ≤ precedence then return e
    else operators ofNext precedence n (← applyOperator g o e found)

def orderBy : Reads String := do
  let e ← g.expr
  let direction ← oneOf ["ASC","DESC"]
  let nulls ← if ← keywords ["NULLS","FIRST"] then pure " NULLS FIRST"
    else if ← keywords ["NULLS","LAST"] then pure " NULLS LAST" else pure ""
  return e.text ++ (match direction with
    | some d => " " ++ d
    | none => "") ++ nulls

/-- Whether DISTINCT is asked for; ALL asks for the opposite. -/
def allOrDistinct : Reads (Option Distinct) := do
  let all ← keyword "ALL"
  if ← keyword "DISTINCT" then
    if all then expected "ALL or DISTINCT, not both"
    else if ← keyword "ON" then
      bracketed do
        if ← nextIsSymbol ")" then return some (.on [])
        else return some (.on ((← sepBy g.expr).map Expr.text))
    else return some .rows
  else return none

/-- A qualified wildcard, if one is next. -/
def qualifiedWildcard : Reads ObjectName := do
  let rec parts : Nat → Reads ObjectName
    | 0 => expected "*"
    | n+1 => do
      let part ← ident
      expectSymbol "."
      if ← symbol "*" then return [part] else return part :: (← parts n)
  parts (← get).length

/-- An argument of a function: an expression, a wildcard or a named one. -/
def functionArg : Reads FunctionArg := do
  let wildOr : Reads FunctionArg := do
    if ← symbol "*" then return .wildcard
    else match ← attempt qualifiedWildcard with
      | some name => return .other (name.text ++ ".*")
      | none => return .expr (← g.expr)
  if (← peekAt 1) == some (.symbol "=>") then
    let name ← ident
    expectSymbol "=>"
    return .other (name.text ++ " => " ++ (← wildOr).text)
  else wildOr

def functionArgs : Reads (List FunctionArg) := do
  if ← symbol ")" then return []
  else
    let args ← sepBy (functionArg g)
    expectSymbol ")"
    return args

end
end ExprReading
end QueryPlan.Sql
