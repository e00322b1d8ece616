import QueryPlan.Sql.Keyword
import QueryPlan.Sql.Lexer
import QueryPlan.Sql.Name

/-! # Reading token lists

A reading takes tokens off the front of a list; one that fails takes none. -/
namespace QueryPlan.Sql

abbrev Reads := StateT (List Token) (Except SyntaxError)

namespace Reads

def expected {α : Type} (what : String) : Reads α := throw (.expected what)

def peek : Reads (Option Token) := return (← get).head?

def peekAt (n : Nat) : Reads (Option Token) := return (← get)[n]?

def next : Reads (Option Token) := do
  let ts ← get
  set (ts.drop 1)
  return ts.head?

/-- Takes a key word if it is next. -/
def keyword (key : String) : Reads Bool := do
  match ← get with
  | t :: ts => if t.isKeyword key then set ts; return true else return false
  | [] => return false

/-- Takes several key words if all of them are next, else none. -/
def keywords (keys : List String) : Reads Bool := do
  let ts ← get
  if keys.length ≤ ts.length && (keys.zip ts).all (fun p => p.2.isKeyword p.1) then
    set (ts.drop keys.length)
    return true
  else return false

/-- Takes one of some key words. -/
def oneOf (keys : List String) : Reads (Option String) := do
  match ← get with
  | .word value none :: ts =>
    let key := capitals value
    if keys.contains key then set ts; return some key else return none
  | _ => return none

def expectKeyword (key : String) : Reads Unit := do
  if !(← keyword key) then expected key

def expectKeywords (keys : List String) : Reads Unit := keys.forM expectKeyword

def expectOneOf (keys : List String) : Reads String := do
  match ← oneOf keys with
  | some key => return key
  | none => expected (" or ".intercalate keys)

def nextIsKeyword (key : String) : Reads Bool := return (← peek).any (·.isKeyword key)

def nextIsSymbol (s : String) : Reads Bool := return (← peek) == some (.symbol s)

def symbol (s : String) : Reads Bool := do
  match ← get with
  | t :: ts => if t == .symbol s then set ts; return true else return false
  | [] => return false

def expectSymbol (s : String) : Reads Unit := do
  if !(← symbol s) then expected s

/-- Takes several key words if all of them are next, and forgets whether they were. -/
def allow (keys : List String) : Reads Unit := discard (keywords keys)

def allowOneOf (keys : List String) : Reads Unit := discard (oneOf keys)

/-- The reading, or nothing taken if it fails. -/
def attempt {α : Type} (p : Reads α) : Reads (Option α) := fun ts =>
  match p ts with
  | .ok (a,rest) => .ok (some a,rest)
  | .error _ => .ok (none,ts)

private def commaListOf {α : Type} (p : Reads α) : Nat → Reads (List α)
  | 0 => return [← p]
  | n+1 => do
    let a ← p
    if ← symbol "," then return a :: (← commaListOf p n) else return [a]

/-- One or more items between commas. -/
def sepBy {α : Type} (p : Reads α) : Reads (List α) := do commaListOf p (← get).length

/-- An item between brackets. -/
def bracketed {α : Type} (p : Reads α) : Reads α := do
  expectSymbol "("
  let a ← p
  expectSymbol ")"
  return a

/-- A clause that opens with some key words. -/
def clause {α : Type} (keys : List String) (p : Reads α) : Reads (Option α) := do
  if ← keywords keys then return some (← p) else return none

/-- A clause that opens with some key words, of which only the form counts. -/
def allowClause {α : Type} (keys : List String) (p : Reads α) : Reads Unit := discard (clause keys p)

/-- A list that opens with some key words; empty without them. -/
def listClause {α : Type} (keys : List String) (p : Reads α) : Reads (List α) := do
  if ← keywords keys then sepBy p else return []

/-- The reading, and that it has been done. -/
def done {α : Type} (p : Reads α) : Reads Bool := do
  discard p
  return true

private def repeated (p : Reads Bool) : Nat → Reads Unit
  | 0 => return
  | n+1 => do if ← p then repeated p n

/-- Reads something as long as it is there. -/
def whileRead (p : Reads Bool) : Reads Unit := do repeated p (← get).length

private def closedList (p : Reads Unit) : Nat → Reads Unit
  | 0 => expected ")"
  | n+1 => do
    p
    let comma ← symbol ","
    if ← symbol ")" then return
    else if comma then closedList p n
    else expected "',' or ')'"

/-- A list between brackets, which may be empty or end with a comma; nothing without a bracket. -/
def looseList (p : Reads Unit) : Reads Unit := do
  if ← symbol "(" then
    if !(← symbol ")") then closedList p (← get).length

private def statementsFrom {α : Type} (p : Reads α) : Nat → Reads (List α)
  | 0 => return []
  | n+1 => do
    modify (·.dropWhile (· == .symbol ";"))
    match ← peek with
    | none => return []
    | some _ =>
      let first ← p
      match ← peek with
      | none => return [first]
      | some t =>
        if t == .symbol ";" then return first :: (← statementsFrom p n)
        else if t.isKeyword "END" then return [first]
        else expected "end of statement"

/-- A list of statements. Semicolons stand between statements, and behind a statement the word END
ends the list as well. -/
def statements {α : Type} (p : Reads α) : Reads (List α) := do statementsFrom p (← get).length

/-- A name, also one written as a string. -/
def ident : Reads Ident := do
  match ← next with
  | some (.word value quote) => return ⟨value,quote⟩
  | some (.string value) => return ⟨value,some '\''⟩
  | _ => expected "identifier"

private def partsAfter : Nat → Reads (List Ident)
  | 0 => return []
  | n+1 => do
    if ← symbol "." then return (← ident) :: (← partsAfter n) else return []

def objectName : Reads ObjectName := do
  let first ← ident
  return first :: (← partsAfter (← get).length)

/-- A list of names between brackets. -/
def idents : Reads (List Ident) := bracketed (sepBy ident)

/-- Such a list if a bracket is next, else none. -/
def optionalIdents : Reads (List Ident) := do
  if ← nextIsSymbol "(" then idents else return []

/-- An alias: any name behind AS, without it any word but the reserved ones. -/
def optionalAlias (reserved : List String) : Reads (Option Ident) := do
  let afterAs ← keyword "AS"
  match ← peek with
  | some t@(.word value quote) =>
    if afterAs || !t.isKeywordOf reserved then
      let _ ← next
      return some ⟨value,quote⟩
    else return none
  | some (.string value) =>
    let _ ← next
    return some ⟨value,some '\''⟩
  | _ => if afterAs then expected "an identifier after AS" else return none

/-- A whole number that fits 64 bits. -/
def wholeNumber : Reads Nat := do
  match ← next with
  | some (.number text _) =>
    let ds := text.toList
    let n := ds.foldl (fun n c => 10*n+(c.toNat - '0'.toNat)) 0
    if !ds.isEmpty && ds.all Char.isDigit && n < UInt64.size then return n else expected "literal int"
  | _ => expected "literal int"

def quotedString : Reads String := do
  match ← next with
  | some (.string value) => return value
  | _ => expected "a string"

def word : Reads String := do
  match ← next with
  | some (.word value _) => return value
  | _ => expected "a word"

/-- The text of a string, or of a word that is no key word. -/
def literalString : Reads String := do
  match ← next with
  | some t@(.word value _) => if t.isPlainWord then return value else expected "literal string"
  | some (.string value) => return value
  | some (.literal .escaped value) => return value
  | _ => expected "literal string"

/-- Such a text of one byte. -/
def literalChar : Reads String := do
  let s ← literalString
  if s.utf8ByteSize == 1 then return s else expected "a char"

def fileFormat : Reads String :=
  expectOneOf ["AVRO","JSONFILE","ORC","PARQUET","RCFILE","SEQUENCEFILE","TEXTFILE"]

def ifExists : Reads Unit := allow ["IF","EXISTS"]

def ifNotExists : Reads Unit := allow ["IF","NOT","EXISTS"]

end Reads
end QueryPlan.Sql
