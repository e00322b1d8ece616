/-! # Tokens of SQL texts -/
namespace QueryPlan.Sql

/-- Spellings of string-like literals other than the plain single-quoted one. -/
inductive LiteralKind where
  | national
  | hex
  | byte (quote : Char)
  | raw
  | escaped
  | dollar (tag : String)
deriving DecidableEq,Repr

/-- A word keeps the mark that delimits it, if one does; blanks and comments are no tokens. -/
inductive Token where
  | word (value : String) (quote : Option Char)
  | number (text : String) (long : Bool)
  | string (value : String)
  | literal (kind : LiteralKind) (value : String)
  | placeholder (text : String)
  | symbol (text : String)
deriving DecidableEq,Repr

/-- A literal between its marks. -/
def LiteralKind.enclose (kind : LiteralKind) (value : String) : String :=
  match kind with
  | national => "N'" ++ value ++ "'"
  | hex => "X'" ++ value ++ "'"
  | byte mark => "B" ++ String.singleton mark ++ value ++ String.singleton mark
  | raw => "R'" ++ value ++ "'"
  | escaped => "E'" ++ value ++ "'"
  | dollar tag => "$" ++ tag ++ "$" ++ value ++ "$" ++ tag ++ "$"

/-- The plain spelling of a token: a value stands between its marks as it is, whatever it holds. -/
def Token.text : Token → String
  | word value none => value
  | word value (some mark) => String.singleton mark ++ value ++ String.singleton mark
  | number text long => if long then text ++ "L" else text
  | string value => "'" ++ value ++ "'"
  | literal kind value => kind.enclose value
  | placeholder text => text
  | symbol "!=" => "<>"
  | symbol text => text

end QueryPlan.Sql
