/-! # Names and quoted texts as they are written back -/
namespace QueryPlan.Sql

/-- Doubles a mark inside a text, but leaves one that is doubled or escaped already. -/
def doubleMark (mark : Char) (escaped : Bool) : List Char → List Char
  | [] => []
  | [c] => if c == mark && !escaped then [c,c] else [c]
  | c :: d :: rest =>
    if c == mark then
      if escaped then c :: doubleMark mark true (d :: rest)
      else if d == mark then c :: d :: doubleMark mark false rest
      else c :: c :: doubleMark mark false (d :: rest)
    else c :: doubleMark mark (c == '\\') (d :: rest)

/-- A text between marks. -/
def between (mark : Char) (s : String) : String :=
  String.ofList (mark :: (doubleMark mark false s.toList ++ [mark]))

/-- One part of a name, with the mark that delimits it. -/
structure Ident where
  value : String
  quote : Option Char
deriving DecidableEq,Repr

def Ident.text (i : Ident) : String :=
  match i.quote with
  | some mark => between mark i.value
  | none => i.value

/-- A name of one or more parts. -/
abbrev ObjectName := List Ident

def ObjectName.text (n : ObjectName) : String := ".".intercalate (n.map Ident.text)

def commaList (texts : List String) : String := ", ".intercalate texts

end QueryPlan.Sql
