import QueryPlan.Sql.Token
import QueryPlan.Text.CharClass

/-! # Tokens from characters -/
namespace QueryPlan.Sql

/-- Why a text is no sequence of statements. -/
inductive SyntaxError where
  | unterminated (what : String)
  | expected (what : String)
  | tooDeep
deriving DecidableEq,Repr

def SyntaxError.message : SyntaxError → String
  | unterminated what => "Unterminated " ++ what
  | expected what => "Expected " ++ what
  | tooDeep => "Nested too deep"

namespace Lexer

def startsWord (c : Char) : Bool := Text.isAlphabetic c || c == '_' || c == '#' || c == '@'

def continuesWord (c : Char) : Bool :=
  Text.isAlphabetic c || c.isDigit || c == '@' || c == '$' || c == '#' || c == '_'

/-- The text up to a closing mark, which stands for itself when doubled, and what follows. -/
def untilMark (mark : Char) : List Char → Option (List Char × List Char)
  | [] => none
  | [c] => if c == mark then some ([],[]) else none
  | c :: d :: rest =>
    if c == mark then
      if d == mark then (untilMark mark rest).map fun (s,r) => (c :: s,r) else some ([],d :: rest)
    else (untilMark mark (d :: rest)).map fun (s,r) => (c :: s,r)

/-- What follows a comment whose opening has been read. Comments nest; `last` is the character
before. -/
def afterComment (depth : Nat) (last : Char) : List Char → Option (List Char)
  | [] => none
  | c :: rest =>
    if last == '/' && c == '*' then afterComment (depth+1) c rest
    else if last == '*' && c == '/' then
      if depth ≤ 1 then some rest else afterComment (depth-1) c rest
    else afterComment depth c rest

def isHexDigit (c : Char) : Bool :=
  c.isDigit || ('a' ≤ c && c ≤ 'f') || ('A' ≤ c && c ≤ 'F')

/-- The character that a backslash and a letter stand for: a line feed, a carriage return or a tab;
any other character stands for itself. -/
def escapedChar (c : Char) : Char :=
  match c with
  | 'n' => '\n'
  | 'r' => '\r'
  | 't' => '\t'
  | c => c

/-- The value of a string with backslash escapes behind its opening quote, and what follows. A
doubled quote stands for one. -/
def escapedString : List Char → Option (List Char × List Char)
  | [] => none
  | [c] => if c == '\'' then some ([],[]) else none
  | c :: d :: rest =>
    if c == '\\' then (escapedString rest).map fun (s,r) => (escapedChar d :: s,r)
    else if c == '\'' then
      if d == '\'' then (escapedString rest).map fun (s,r) => (c :: s,r) else some ([],d :: rest)
    else (escapedString (d :: rest)).map fun (s,r) => (c :: s,r)

/-- The body of a string between doubled dollars and what follows; `seen` tells whether the
character before was a dollar. -/
def dollarString (seen : Bool) : List Char → Option (List Char × List Char)
  | [] => none
  | c :: rest =>
    if seen then
      if c == '$' then some ([],rest)
      else (dollarString false rest).map fun (s,r) => ('$' :: c :: s,r)
    else if c == '$' then dollarString true rest
    else (dollarString false rest).map fun (s,r) => (c :: s,r)

/-- The body of a string between two tags in dollars and what follows. The body holds no dollar, so
the first one belongs to the closing tag. -/
def taggedString (tag : List Char) (cs : List Char) : Option (List Char × List Char) :=
  let rest := cs.dropWhile (· != '$')
  let closing := '$' :: (tag ++ ['$'])
  if closing.isPrefixOf rest then some (cs.takeWhile (· != '$'),rest.drop closing.length) else none

/-- An exponent: a letter E, a sign or none, and digits. -/
def exponent (cs : List Char) : List Char × List Char :=
  match cs with
  | e :: rest =>
    if e == 'e' || e == 'E' then
      let (sign,digits) := match rest with
        | '+' :: ds => (['+'],ds)
        | '-' :: ds => (['-'],ds)
        | ds => ([],ds)
      let ds := digits.takeWhile Char.isDigit
      if ds.isEmpty then ([],cs) else (e :: sign ++ ds,digits.dropWhile Char.isDigit)
    else ([],cs)
  | [] => ([],cs)

/-- A number, a hexadecimal literal or a lone point. -/
def number (cs : List Char) : Token × List Char :=
  let whole := cs.takeWhile Char.isDigit
  let rest := cs.dropWhile Char.isDigit
  match whole,rest with
  | ['0'],'x' :: hex =>
    (.literal .hex (String.ofList (hex.takeWhile isHexDigit)),hex.dropWhile isHexDigit)
  | _,_ =>
    let (point,rest) := match rest with
      | '.' :: r => (['.'],r)
      | r => ([],r)
    let text := whole ++ point ++ rest.takeWhile Char.isDigit
    let rest := rest.dropWhile Char.isDigit
    if text == ['.'] then (.symbol ".",rest)
    else
      let (exp,rest) := exponent rest
      let text := String.ofList (text ++ exp)
      match rest with
      | 'L' :: rest => (.number text true,rest)
      | rest => (.number text false,rest)

/-- A word with given first characters. One of nothing but digits and points is a number. -/
def word (first : List Char) (cs : List Char) : Token × List Char :=
  let text := first ++ cs.takeWhile continuesWord
  let rest := cs.dropWhile continuesWord
  let inNumber (c : Char) := c.isDigit || c == '.'
  if text.all inNumber then
    (.number (String.ofList (text ++ rest.takeWhile inNumber)) false,rest.dropWhile inNumber)
  else (.word (String.ofList text) none,rest)

/-- The symbols of more than one character, longer ones before those they start with. -/
def symbols : List String :=
  ["!~~*","!~~","!~*","->>","#>>","<=>","||/","~~*","->","|/","||","=>","==","!=","!!",
    "!~","<=","<>","<<","<@",">=",">>","::",":=","&&","^@","~~","~*","#-","#>","@>",
    "@?","@@","//"]

def symbol? (cs : List Char) : Option (String × List Char) :=
  (symbols.find? fun s => s.toList.isPrefixOf cs).map fun s => (s,cs.drop s.length)

/-- A word behind `@`, `@@` or `#`, whose next character belongs to it whatever it is. -/
def markedWord (mark : List Char) : List Char → Token × List Char
  | c :: rest => if c == ' ' then (.symbol (String.ofList mark),c :: rest) else word (mark ++ [c]) rest
  | [] => (.symbol (String.ofList mark),[])

def quotedBy (what : String) (mark : Char) (make : String → Token) (cs : List Char) :
    Except SyntaxError (Option Token × List Char) :=
  match untilMark mark cs with
  | some (s,rest) => .ok (some (make (String.ofList s)),rest)
  | none => .error (.unterminated what)

def single (t : Token × List Char) : Except SyntaxError (Option Token × List Char) :=
  .ok (some t.1,t.2)

/-- A token or a blank stretch at the front of a text, and what follows. -/
def next : List Char → Except SyntaxError (Option Token × List Char)
  | [] => .ok (none,[])
  | c :: rest =>
    let plain := word [c] rest
    if c == '\'' then quotedBy "string literal" '\'' .string rest
    else if c == '"' || c == '`' then quotedBy "identifier" c (.word · (some c)) rest
    else if c == 'b' || c == 'B' then
      match rest with
      | '\'' :: r => quotedBy "string literal" '\'' (.literal (.byte '\'')) r
      | '"' :: r => quotedBy "string literal" '"' (.literal (.byte '"')) r
      | _ => single plain
    else if c == 'r' || c == 'R' then
      match rest with
      | '\'' :: r => quotedBy "string literal" '\'' (.literal .raw) r
      | '"' :: r => quotedBy "string literal" '"' (.literal .raw) r
      | _ => single plain
    else if c == 'n' || c == 'N' then
      match rest with
      | '\'' :: r => quotedBy "string literal" '\'' (.literal .national) r
      | _ => single plain
    else if c == 'x' || c == 'X' then
      match rest with
      | '\'' :: r => quotedBy "string literal" '\'' (.literal .hex) r
      | _ => single plain
    else if c == 'e' || c == 'E' then
      match rest with
      | '\'' :: r => match escapedString r with
        | some (s,r) => .ok (some (.literal .escaped (String.ofList s)),r)
        | none => .error (.unterminated "encoded string literal")
      | _ => single plain
    else if c.isDigit || c == '.' then single (number (c :: rest))
    else if c == '$' then
      match rest with
      | '$' :: r => match dollarString false r with
        | some (s,r) => .ok (some (.literal (.dollar "") (String.ofList s)),r)
        | none => .error (.unterminated "dollar-quoted string")
      | _ =>
        let inTag (c : Char) := Text.isAlphabetic c || Text.isNumeric c || c == '_'
        let tag := rest.takeWhile inTag
        match rest.dropWhile inTag with
        | '$' :: r => match taggedString tag r with
          | some (s,r) => .ok (some (.literal (.dollar (String.ofList tag)) (String.ofList s)),r)
          | none => .error (.unterminated "dollar-quoted string")
        | r => .ok (some (.placeholder (String.ofList ('$' :: tag))),r)
    else if c == '?' then
      .ok (some (.placeholder (String.ofList (c :: rest.takeWhile Text.isNumeric))),
        rest.dropWhile Text.isNumeric)
    else match c,rest with
      | '-','-' :: r => .ok (none,(r.dropWhile (· != '\n')).drop 1)
      | '/','*' :: r => match afterComment 1 ' ' r with
        | some r => .ok (none,r)
        | none => .error (.unterminated "comment")
      | _,_ => match symbol? (c :: rest) with
        | some ("@@",r) => single (markedWord ['@','@'] r)
        | some (s,r) => .ok (some (.symbol s),r)
        | none =>
          if c == '@' || c == '#' then single (markedWord [c] rest)
          else if startsWord c then single plain
          else if Text.isBlank c then .ok (none,rest)
          else .ok (some (.symbol (String.singleton c)),rest)

/-- The tokens of a text. Every step reads at least one character. -/
def tokens (cs : List Char) : Except SyntaxError (List Token) :=
  if cs.isEmpty then .ok []
  else
    match next cs with
    | .error e => .error e
    | .ok (t,rest) =>
      if rest.length < cs.length then (tokens rest).map fun ts => t.toList ++ ts
      else .ok []
termination_by cs.length

end Lexer

/-- Reads a text into tokens, without blanks and comments. -/
def Token.scan (text : String) : Except SyntaxError (List Token) := Lexer.tokens text.toList

end QueryPlan.Sql
