import QueryPlan.Sql.CallReading

/-! # Reading primary expressions

A primary expression is what operators stand between. -/
namespace QueryPlan.Sql.PrimaryReading
open Reads TypeReading ExprReading CallReading

section
variable (g : Grammar) (o : Operands)

/-- A type with the text of a value behind it. Custom types cannot be written this way. -/
def typedString : Reads Expr := do
  match ← dataType with
  | .interval => interval g o
  | .custom _ => expected "a type of the language"
  | type => return .typedString type (← literalString)

def caseBranches : Nat → Reads String
  | 0 => expected "END"
  | n+1 => do
    let condition ← g.expr
    expectKeyword "THEN"
    let result ← g.expr
    let branch := " WHEN " ++ condition.text ++ " THEN " ++ result.text
    if ← keyword "WHEN" then return branch ++ (← caseBranches n) else return branch

def caseExpr : Reads Expr := do
  let operand ← if ← keyword "WHEN" then pure ""
    else
      let e ← g.expr
      expectKeyword "WHEN"
      pure (" " ++ e.text)
  let branches ← caseBranches g (← get).length
  let otherwise ← if ← keyword "ELSE" then pure (" ELSE " ++ (← g.expr).text) else pure ""
  expectKeyword "END"
  return .other ("CASE" ++ operand ++ branches ++ otherwise ++ " END")

def castFormat : Reads (Option String) := do
  if ← keyword "FORMAT" then
    let v ← value
    if ← keywords ["AT","TIME","ZONE"] then
      return some (v.text ++ " AT TIME ZONE " ++ (← value).text)
    else return some v.text
  else return none

def castParts : Reads (Expr × DataType × Option String) := bracketed do
  let e ← g.expr
  expectKeyword "AS"
  let type ← dataType
  return (e,type,← castFormat)

def castExpr : Reads Expr := do
  let (e,type,format) ← castParts g
  return .cast e type format

/-- A cast under another name, which has no counterpart in plans. -/
def castNamed (name : String) : Reads Expr := do
  let (e,type,format) ← castParts g
  return .other (name ++ "(" ++ e.text ++ " AS " ++ type.text
    ++ (match format with
      | some f => " FORMAT " ++ f
      | none => "") ++ ")")

def convertExpr : Reads Expr := bracketed do
  let e ← g.expr
  if ← keyword "USING" then
    return .other ("CONVERT(" ++ e.text ++ " USING " ++ (← objectName).text ++ ")")
  else
    expectSymbol ","
    let type ← dataType
    let charset ← if ← keywords ["CHARACTER","SET"] then
        pure (" CHARACTER SET " ++ (← objectName).text)
      else pure ""
    return .other ("CONVERT(" ++ e.text ++ ", " ++ type.text ++ charset ++ ")")

def existsExpr (negated : Bool) : Reads Expr := do
  let q ← bracketed g.query
  return .subquery ((if negated then "NOT " else "") ++ "EXISTS (" ++ q.text ++ ")")

def extractExpr : Reads Expr := bracketed do
  let field ← dateTimeField
  expectKeyword "FROM"
  return .other ("EXTRACT(" ++ field ++ " FROM " ++ (← g.expr).text ++ ")")

def roundExpr (name : String) : Reads Expr := bracketed do
  let e ← g.expr
  let unit ← if ← keyword "TO" then pure (" TO " ++ (← dateTimeField)) else pure ""
  return .other (name ++ "(" ++ e.text ++ unit ++ ")")

def positionExpr : Reads Expr := bracketed do
  let e ← o.above 20
  expectKeyword "IN"
  return .other ("POSITION(" ++ e.text ++ " IN " ++ (← g.expr).text ++ ")")

def substringExpr : Reads Expr := bracketed do
  let e ← g.expr
  let start ← if ← keyword "FROM" <||> symbol "," then pure (" FROM " ++ (← g.expr).text)
    else pure ""
  let count ← if ← keyword "FOR" <||> symbol "," then pure (" FOR " ++ (← g.expr).text)
    else pure ""
  return .other ("SUBSTRING(" ++ e.text ++ start ++ count ++ ")")

def overlayExpr : Reads Expr := bracketed do
  let e ← g.expr
  expectKeyword "PLACING"
  let what ← g.expr
  expectKeyword "FROM"
  let start ← g.expr
  let count ← if ← keyword "FOR" then pure (" FOR " ++ (← g.expr).text) else pure ""
  return .other ("OVERLAY(" ++ e.text ++ " PLACING " ++ what.text ++ " FROM " ++ start.text ++ count
    ++ ")")

def trimExpr : Reads Expr := bracketed do
  let side ← match ← oneOf ["BOTH","LEADING","TRAILING"] with
    | some word => pure (word ++ " ")
    | none => pure ""
  let e ← g.expr
  if ← keyword "FROM" then
    return .other ("TRIM(" ++ side ++ e.text ++ " FROM " ++ (← g.expr).text ++ ")")
  else if ← symbol "," then
    return .other ("TRIM(" ++ e.text ++ ", " ++ textAll (← sepBy g.expr) ++ ")")
  else return .other ("TRIM(" ++ side ++ e.text ++ ")")

/-- The elements of an array behind its opening bracket. -/
def arrayExpr (name : String) : Reads Expr := do
  if ← symbol "]" then return .other (name ++ "[]")
  else
    let elements ← sepBy g.expr
    expectSymbol "]"
    return .other (name ++ "[" ++ textAll elements ++ "]")

def searchModifier : Reads String := do
  if ← keywords ["IN","NATURAL","LANGUAGE","MODE"] then
    if ← keywords ["WITH","QUERY","EXPANSION"] then
      return " IN NATURAL LANGUAGE MODE WITH QUERY EXPANSION"
    else return " IN NATURAL LANGUAGE MODE"
  else if ← keywords ["IN","BOOLEAN","MODE"] then return " IN BOOLEAN MODE"
  else if ← keywords ["WITH","QUERY","EXPANSION"] then return " WITH QUERY EXPANSION"
  else return ""

def matchExpr : Reads Expr := do
  let columns ← idents
  expectKeyword "AGAINST"
  let against ← bracketed do return (← value).text ++ (← searchModifier)
  return .other ("MATCH (" ++ commaList (columns.map Ident.text) ++ ") AGAINST (" ++ against ++ ")")

/-- A structure of values; with the types of its fields in front the values have no names. -/
def structExpr : Reads Expr := do
  let fields ← if ← symbol "<" then structFields (← get).length else pure []
  let values ← bracketed (sepBy do
    let e ← g.expr
    if ← keyword "AS" then
      if fields.isEmpty then return e.text ++ " AS " ++ (← ident).text
      else expected "a value without name"
    else return e.text)
  let types := if fields.isEmpty then "" else "<" ++ commaList fields ++ ">"
  return .other ("STRUCT" ++ types ++ "(" ++ commaList values ++ ")")

def notExpr : Reads Expr := do
  if ← keyword "EXISTS" then existsExpr g true else return .unary .not (← o.above 15)

/-- An expression behind an opening bracket: a query, one expression or several. -/
def bracketExpr : Reads Expr := do
  let e ← if (← peek).any (·.isKeywordOf ["SELECT","WITH"]) then
      pure (Expr.subquery ("(" ++ (← g.query).text ++ ")"))
    else
      match ← sepBy g.expr with
      | [e] => pure (.nested e)
      | es => pure (.other ("(" ++ textAll es ++ ")"))
  expectSymbol ")"
  if ← symbol "." then
    match ← next with
    | some (.word key quote) => return .other (e.text ++ "." ++ Ident.text ⟨key,quote⟩)
    | _ => expected "identifier"
  else return e

/-- Names behind dots. -/
def dottedNames : Nat → Reads (List Ident)
  | 0 => return []
  | n+1 => do
    if ← symbol "." then
      match ← next with
      | some (.word value quote) => return ⟨value,quote⟩ :: (← dottedNames n)
      | some (.string value) => return ⟨value,some '\''⟩ :: (← dottedNames n)
      | _ => expected "an identifier or a '*' after '.'"
    else return []

/-- A name that may be a function's, a qualified column's, the mark of a string or a column's. -/
def named (name : Ident) : Reads Expr := do
  match ← peek with
  | some (.symbol "(") => call g o [name]
  | some (.symbol ".") =>
    let parts := name :: (← dottedNames (← get).length)
    if ← nextIsSymbol "(" then call g o parts else return .compound parts
  | some (.string s) =>
    if name.value.startsWith "_" then
      let _ ← next
      return .other (name.value ++ " " ++ between '\'' s)
    else return .identifier name
  | some (.literal .hex s) =>
    if name.value.startsWith "_" then
      let _ ← next
      return .other (name.value ++ " " ++ literalText .hex s)
    else return .identifier name
  | _ => return .identifier name

def timeWords : List String :=
  ["CURRENT_TIMESTAMP","CURRENT_TIME","CURRENT_DATE","LOCALTIME","LOCALTIMESTAMP"]

def bareWords : List String := ["CURRENT_CATALOG","CURRENT_USER","SESSION_USER","USER"]

/-- The expression that a word without delimiters opens; `before` are the tokens from the word
on. -/
def worded (before : List Token) (name : Ident) : Reads Expr := do
  match capitals name.value with
  | "TRUE" | "FALSE" | "NULL" =>
    set before
    return .value (← value)
  | "CASE" => caseExpr g
  | "CONVERT" => convertExpr g
  | "CAST" => castExpr g
  | "TRY_CAST" => castNamed g "TRY_CAST"
  | "SAFE_CAST" => castNamed g "SAFE_CAST"
  | "EXISTS" => existsExpr g false
  | "EXTRACT" => extractExpr g
  | "CEIL" => roundExpr g "CEIL"
  | "FLOOR" => roundExpr g "FLOOR"
  | "SUBSTRING" => substringExpr g
  | "OVERLAY" => overlayExpr g
  | "TRIM" => trimExpr g
  | "INTERVAL" => interval g o
  | "ARRAY_AGG" => arrayAggregate g
  | "LISTAGG" => listAggregate g
  | "NOT" => notExpr g o
  | "MATCH" => matchExpr
  | "STRUCT" => structExpr g
  | "POSITION" => if ← nextIsSymbol "(" then positionExpr g o else named g o name
  | "ARRAY" =>
    if ← symbol "[" then arrayExpr g "ARRAY"
    else if ← nextIsSymbol "(" then
      return .other ("ARRAY(" ++ (← bracketed g.query).text ++ ")")
    else named g o name
  | key =>
    if timeWords.contains key then timeFunction g [name]
    else if bareWords.contains key then return .function [name] [] none { bare := true }
    else named g o name

/-- A primary expression that is no typed string. -/
def untyped : Reads Expr := do
  let before ← get
  match ← next with
  | some (.word w none) => worded g o before ⟨w,none⟩
  | some (.word w quote) => named g o ⟨w,quote⟩
  | some (.symbol "[") => arrayExpr g ""
  | some (.symbol "+") => return .unary .plus (← o.above 40)
  | some (.symbol "-") => return .unary .minus (← o.above 40)
  | some (.symbol "(") => bracketExpr g
  | some (.symbol ":") | some (.symbol "@") =>
    set before
    return .value (← value)
  | some (.symbol _) | none => expected "an expression"
  | some _ =>
    set before
    return .value (← value)

def primary : Reads Expr := do
  match ← attempt (typedString g o) with
  | some e => return e
  | none =>
    let e ← untyped g o
    if ← keyword "COLLATE" then return .other (e.text ++ " COLLATE " ++ (← objectName).text)
    else return e

end

/-- A primary expression alone, or with the operators behind it that bind tighter than a
precedence. Operands nest no deeper than there are tokens. -/
def operand (g : Grammar) : Nat → Option Nat → Reads Expr
  | 0,_ => throw .tooDeep
  | n+1,precedence? => do
    let inner : Operands := ⟨operand g n none,fun precedence => operand g n (some precedence)⟩
    let e ← primary g inner
    match precedence? with
    | none => return e
    | some precedence => operators g inner nextPrecedence precedence (← get).length e

def operands (g : Grammar) : Reads Operands := do
  let n := (← get).length+1
  return ⟨operand g n none,fun precedence => operand g n (some precedence)⟩

/-- An expression, which may hold any operators. -/
def expr (g : Grammar) : Reads Expr := do (← operands g).above 0

end QueryPlan.Sql.PrimaryReading
