import QueryPlan.Json.Basic
import QueryPlan.Json.Numeral

/-! # Reading JSON

A text is read in two steps. The first follows the grammar alone and keeps numerals and code
units as they are written. The second gives the value: nesting is limited, units have to form
characters, and numbers have to be in range. -/
namespace QueryPlan.Json

/-- What the grammar gives: texts are lists of 16-bit units or whole characters. -/
inductive Raw where
  | null
  | boolean (b : Bool)
  | number (n : Numeral)
  | text (units : List Nat)
  | array (items : List Raw)
  | object (members : List (List Nat × Raw))
deriving Inhabited

private def isSpace (c : Char) : Bool := c == ' ' || c == '\n' || c == '\r' || c == '\t'

def skipSpace (cs : List Char) : List Char := cs.dropWhile isSpace

def hexValue? (c : Char) : Option Nat :=
  if '0' ≤ c && c ≤ '9' then some (c.toNat - '0'.toNat)
  else if 'a' ≤ c && c ≤ 'f' then some (c.toNat - 'a'.toNat + 10)
  else if 'A' ≤ c && c ≤ 'F' then some (c.toNat - 'A'.toNat + 10)
  else none

/-- An escaped unit. Only units in the two surrogate ranges can fail to be characters. -/
def hexUnit? (a b c d : Char) : Option Nat := do
  return (((← hexValue? a)*16 + (← hexValue? b))*16 + (← hexValue? c))*16 + (← hexValue? d)

def escapedUnit? : Char → Option Nat
  | '"' => some 0x22
  | '\\' => some 0x5C
  | '/' => some 0x2F
  | 'b' => some 0x08
  | 'f' => some 0x0C
  | 'n' => some 0x0A
  | 'r' => some 0x0D
  | 't' => some 0x09
  | _ => none

/-- The units of a text behind its opening quote, and what follows the closing one. -/
def textUnits : List Char → Option (List Nat × List Char)
  | [] => none
  | '"' :: rest => some ([],rest)
  | '\\' :: 'u' :: a :: b :: c :: d :: rest => do
    let unit ← hexUnit? a b c d
    let (units,rest) ← textUnits rest
    return (unit :: units,rest)
  | '\\' :: c :: rest => do
    let unit ← escapedUnit? c
    let (units,rest) ← textUnits rest
    return (unit :: units,rest)
  | c :: rest =>
    if c.toNat < 0x20 || c = '\\' then none
    else do
      let (units,rest) ← textUnits rest
      return (c.toNat :: units,rest)

private def digitsOf (cs : List Char) : List Nat × List Char :=
  ((cs.takeWhile Char.isDigit).map fun c => c.toNat - '0'.toNat,cs.dropWhile Char.isDigit)

/-- The fraction of a numeral, if a point follows. -/
def fraction? : List Char → Option (Option (List Nat) × List Char)
  | '.' :: rest =>
    match digitsOf rest with
    | ([],_) => none
    | (ds,rest) => some (some ds,rest)
  | cs => some (none,cs)

/-- The exponent of a numeral and whether it is negative, if the letter follows. -/
def exponent? (cs : List Char) : Option (Option (Bool × List Nat) × List Char) :=
  match cs with
  | c :: rest =>
    if c = 'e' || c = 'E' then
      let (negative,rest) := match rest with
        | '+' :: rest => (false,rest)
        | '-' :: rest => (true,rest)
        | rest => (false,rest)
      match digitsOf rest with
      | ([],_) => none
      | (ds,rest) => some (some (negative,ds),rest)
    else some (none,cs)
  | [] => some (none,cs)

/-- A numeral behind its sign; no digit follows a leading zero. -/
def numeral? (negative : Bool) (cs : List Char) : Option (Numeral × List Char) := do
  let (whole,rest) := digitsOf cs
  match whole with
  | [] => none
  | 0 :: _ :: _ => none
  | _ =>
    let (fraction,rest) ← fraction? rest
    let (exponent,rest) ← exponent? rest
    return ({ negative,whole,fraction,exponent },rest)

mutual

/-- Reads a value in at most so many steps. -/
def rawValue : Nat → List Char → Option (Raw × List Char)
  | 0,_ => none
  | fuel+1,cs =>
    match skipSpace cs with
    | 'n' :: 'u' :: 'l' :: 'l' :: rest => some (.null,rest)
    | 't' :: 'r' :: 'u' :: 'e' :: rest => some (.boolean true,rest)
    | 'f' :: 'a' :: 'l' :: 's' :: 'e' :: rest => some (.boolean false,rest)
    | '"' :: rest => (textUnits rest).map fun (units,rest) => (.text units,rest)
    | '[' :: rest =>
      match skipSpace rest with
      | ']' :: rest => some (.array [],rest)
      | rest => (rawItems fuel rest).map fun (items,rest) => (.array items,rest)
    | '\x7b' :: rest =>
      match skipSpace rest with
      | '\x7d' :: rest => some (.object [],rest)
      | rest => (rawMembers fuel rest).map fun (members,rest) => (.object members,rest)
    | '-' :: rest => (numeral? true rest).map fun (n,rest) => (.number n,rest)
    | rest => (numeral? false rest).map fun (n,rest) => (.number n,rest)

/-- The items of an array up to its closing bracket. -/
def rawItems : Nat → List Char → Option (List Raw × List Char)
  | 0,_ => none
  | fuel+1,cs => do
    let (item,rest) ← rawValue fuel cs
    match skipSpace rest with
    | ',' :: rest =>
      let (items,rest) ← rawItems fuel rest
      return (item :: items,rest)
    | ']' :: rest => return ([item],rest)
    | _ => none

/-- The members of an object up to its closing bracket. -/
def rawMembers : Nat → List Char → Option (List (List Nat × Raw) × List Char)
  | 0,_ => none
  | fuel+1,cs => do
    match skipSpace cs with
    | '"' :: rest =>
      let (key,rest) ← textUnits rest
      match skipSpace rest with
      | ':' :: rest =>
        let (value,rest) ← rawValue fuel rest
        match skipSpace rest with
        | ',' :: rest =>
          let (members,rest) ← rawMembers fuel rest
          return ((key,value) :: members,rest)
        | '\x7d' :: rest => return ([(key,value)],rest)
        | _ => none
      | _ => none
    | _ => none

end

/-- Reads a text that holds one value and blanks around it. -/
def Raw.ofText? (text : String) : Option Raw :=
  let cs := text.toList
  match rawValue (cs.length+1) cs with
  | some (raw,rest) => if (skipSpace rest).isEmpty then some raw else none
  | none => none

/-- The characters that units stand for. A high surrogate is followed by a low one, and no low
one stands alone. -/
def charsOf? : List Nat → Option (List Char)
  | [] => some []
  | [u] => if 0xD800 ≤ u && u < 0xE000 then none else some [Char.ofNat u]
  | u :: v :: rest =>
    if 0xD800 ≤ u && u < 0xDC00 then
      if 0xDC00 ≤ v && v < 0xE000 then
        (charsOf? rest).map (Char.ofNat (0x10000 + (u-0xD800)*0x400 + (v-0xDC00)) :: ·)
      else none
    else if 0xDC00 ≤ u && u < 0xE000 then none
    else (charsOf? (v :: rest)).map (Char.ofNat u :: ·)

def stringOf? (units : List Nat) : Option String := (charsOf? units).map String.ofList

def Raw.number? (n : Numeral) : Option Json :=
  n.value?.map fun
    | .integer n => .integer n
    | .float x => .float x

mutual

/-- The value of what the grammar gave, with brackets at most so deep. -/
def Raw.value? (depth : Nat) : Raw → Option Json
  | .null => some .null
  | .boolean b => some (.boolean b)
  | .number n => Raw.number? n
  | .text units => (stringOf? units).map .text
  | .array items =>
    if depth = 0 then none else (valuesOf? (depth-1) items).map .array
  | .object members =>
    if depth = 0 then none else (membersOf? (depth-1) members).map ofMembers

def valuesOf? (depth : Nat) : List Raw → Option (List Json)
  | [] => some []
  | item :: items => do return (← item.value? depth) :: (← valuesOf? depth items)

def membersOf? (depth : Nat) : List (List Nat × Raw) → Option (List (String × Json))
  | [] => some []
  | (key,value) :: members => do
    return (← stringOf? key,← value.value? depth) :: (← membersOf? depth members)

end

/-- How deep brackets may be nested. -/
def maxDepth : Nat := 127

def ofText? (text : String) : Option Json := (Raw.ofText? text).bind (Raw.value? maxDepth)

end QueryPlan.Json
