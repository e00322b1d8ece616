import QueryPlan.Sql.DataType
import QueryPlan.Sql.Name

/-! # SQL expressions

What has no counterpart in plans is kept as its normalised text: key words in capitals, single
blanks, names and literals as written. -/
namespace QueryPlan.Sql

inductive UnaryOp where
  | plus | minus | not | factorial
deriving DecidableEq,Repr

def UnaryOp.text : UnaryOp → String
  | plus => "+" | minus => "-" | not => "NOT" | factorial => "!"

inductive BinaryOp where
  | eq | notEq | lt | ltEq | gt | gtEq | and | or | plus | minus | multiply | divide | modulo
  | other (text : String)
deriving DecidableEq,Repr

def BinaryOp.text : BinaryOp → String
  | eq => "=" | notEq => "<>" | lt => "<" | ltEq => "<=" | gt => ">" | gtEq => ">="
  | and => "AND" | or => "OR"
  | plus => "+" | minus => "-" | multiply => "*" | divide => "/" | modulo => "%"
  | other text => text

/-- Values; a `quoted` one stands between double quotes. -/
inductive Value where
  | number (text : String) (long : Bool)
  | string (value : String)
  | boolean (value : Bool)
  | null
  | quoted (value : String)
  | placeholder (text : String)
  | other (text : String)
deriving DecidableEq,Repr

def Value.text : Value → String
  | number text long => if long then text ++ "L" else text
  | string value => between '\'' value
  | boolean value => if value then "true" else "false"
  | null => "NULL"
  | quoted value => between '"' value
  | placeholder text | other text => text

/-- What goes with a function call besides its name and arguments. -/
structure CallTail where
  distinct : Bool := false
  /-- Written without brackets. -/
  bare : Bool := false
  orderBy : List String := []
  nullTreatment : Option String := none
  window : Option String := none
deriving DecidableEq,Repr

mutual
inductive Expr where
  | identifier (name : Ident)
  | compound (parts : List Ident)
  | value (v : Value)
  | typedString (type : DataType) (value : String)
  | nested (e : Expr)
  | binary (left : Expr) (op : BinaryOp) (right : Expr)
  | unary (op : UnaryOp) (e : Expr)
  | isNull (e : Expr)
  | isNotNull (e : Expr)
  | between (e : Expr) (negated : Bool) (low high : Expr)
  | inList (e : Expr) (list : List Expr) (negated : Bool)
  | like (negated : Bool) (e pattern : Expr) (escape : Option String)
  | cast (e : Expr) (type : DataType) (format : Option String)
  | function (name : ObjectName) (args : List FunctionArg) (filter : Option Expr) (tail : CallTail)
  | subquery (text : String)
  | other (text : String)
inductive FunctionArg where
  | expr (e : Expr)
  | wildcard
  | other (text : String)
end

private def negation (negated : Bool) : String := if negated then " NOT" else ""

private def callText (name : ObjectName) (args filter : String) (tail : CallTail) : String :=
  if tail.bare then name.text
  else name.text ++ "(" ++ (if tail.distinct then "DISTINCT " else "") ++ args
    ++ (if tail.orderBy.isEmpty then "" else " ORDER BY " ++ commaList tail.orderBy) ++ ")" ++ filter
    ++ (match tail.nullTreatment with
      | some t => " " ++ t
      | none => "")
    ++ match tail.window with
      | some o => " OVER " ++ o
      | none => ""

mutual
/-- Normalised text. -/
def Expr.text : Expr → String
  | .identifier name => name.text
  | .compound parts => ObjectName.text parts
  | .value v => v.text
  | .typedString type value => type.text ++ " " ++ Sql.between '\'' value
  | .nested e => "(" ++ e.text ++ ")"
  | .binary left op right => left.text ++ " " ++ op.text ++ " " ++ right.text
  | .unary .factorial e => e.text ++ "!"
  | .unary .not e => "NOT " ++ e.text
  | .unary .plus e => "+" ++ e.text
  | .unary .minus e => "-" ++ e.text
  | .isNull e => e.text ++ " IS NULL"
  | .isNotNull e => e.text ++ " IS NOT NULL"
  | .between e negated low high =>
    e.text ++ negation negated ++ " BETWEEN " ++ low.text ++ " AND " ++ high.text
  | .inList e list negated => e.text ++ negation negated ++ " IN (" ++ textAll list ++ ")"
  | .like negated e pattern escape =>
    e.text ++ negation negated ++ " LIKE " ++ pattern.text
      ++ match escape with
        | some c => " ESCAPE '" ++ c ++ "'"
        | none => ""
  | .cast e type format =>
    "CAST(" ++ e.text ++ " AS " ++ type.text
      ++ (match format with
        | some f => " FORMAT " ++ f
        | none => "") ++ ")"
  | .function name args filter tail => callText name (argsText args) (filterText filter) tail
  | .subquery text => text
  | .other text => text
def FunctionArg.text : FunctionArg → String
  | .expr e => e.text
  | .wildcard => "*"
  | .other text => text
/-- Texts of expressions between commas. -/
def textAll : List Expr → String
  | [] => ""
  | [e] => e.text
  | e :: es => e.text ++ ", " ++ textAll es
def argsText : List FunctionArg → String
  | [] => ""
  | [a] => a.text
  | a :: as => a.text ++ ", " ++ argsText as
def filterText : Option Expr → String
  | none => ""
  | some e => " FILTER (WHERE " ++ e.text ++ ")"
end

end QueryPlan.Sql
