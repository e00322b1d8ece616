import QueryPlan.QueryError

/-! # Literal values

Numbers with a fraction keep the spelling they were written with; whole numbers
that fit 64 bits are kept as values. -/
namespace QueryPlan

inductive Literal where
  | integer (value : Int64)
  | decimal (text : String)
  | double (text : String)
  | string (value : String)
  | date (text : String)
  | boolean (value : Bool)
  | null
deriving DecidableEq,Repr

namespace Literal

private def digitsIn (cs : List Char) : Nat := (cs.filter Char.isDigit).length

/-- Every digit counts for the precision, those after the point for the scale. -/
def decimalType (text : String) : SqlType :=
  let precision := max (digitsIn text.toList) 1
  let scale := digitsIn ((text.toList.dropWhile (· != '.')).drop 1)
  .decimal (UInt8.ofNat precision) (Int8.ofNat (min scale precision))

/-- Whole numbers are INTEGER when they fit 32 bits. -/
def type : Literal → SqlType
  | integer v => if -2147483648 ≤ v.toInt && v.toInt ≤ 2147483647 then .integer else .bigInt
  | decimal text => decimalType text
  | double _ => .double
  | string value => .char (UInt32.ofNat value.length)
  | date _ => .date
  | boolean _ => .boolean
  | null => .null

/-- Value of a non-empty run of ASCII digits. -/
def digitsValue? (cs : List Char) : Option Nat :=
  if !cs.isEmpty && cs.all Char.isDigit then
    some (cs.foldl (fun n c => 10*n+(c.toNat - '0'.toNat)) 0)
  else none

def fit64? (v : Int) : Option Int64 :=
  if -9223372036854775808 ≤ v && v ≤ 9223372036854775807 then some (Int64.ofInt v) else none

/-- A whole number with an optional sign, if it fits 64 bits. -/
def wholeNumber? (cs : List Char) : Option Int64 := do
  match cs with
  | '+' :: ds => fit64? (← digitsValue? ds)
  | '-' :: ds => fit64? (-(← digitsValue? ds))
  | ds => fit64? (← digitsValue? ds)

/-- Reads a numeric token: an exponent makes it approximate, a point or a size beyond
64 bits makes it a decimal, and a decimal holds at most 38 digits. -/
def ofNumber (text : String) : Except QueryError Literal :=
  let cs := text.toList
  let exact : Except QueryError Literal :=
    if SqlType.maxPrecision.toNat < digitsIn cs then .error (.invalid (.numberTooWide text))
    else .ok (decimal text)
  if cs.any (fun c => c == 'e' || c == 'E') then .ok (double text)
  else if cs.contains '.' then exact
  else match wholeNumber? cs with
    | some v => .ok (integer v)
    | none => exact

/-- Drops a leading minus sign, or puts one in front. -/
def negateText (text : String) : String :=
  match text.toList with
  | '-' :: cs => String.ofList cs
  | cs => String.ofList ('-' :: cs)

/-- The negated number; the least 64-bit integer has none. -/
def negate? : Literal → Option Literal
  | integer v => if v == Int64.minValue then none else some (integer (-v))
  | decimal text => some (decimal (negateText text))
  | double text => some (double (negateText text))
  | _ => none

/-- A quote inside a string is written twice. -/
def quoted (value : String) : String :=
  "'" ++ String.ofList (value.toList.flatMap fun c => if c == '\'' then ['\'','\''] else [c]) ++ "'"

def text : Literal → String
  | integer v => toString v.toInt
  | decimal text => text ++ ":" ++ (decimalType text).text
  | double text => text ++ ":DOUBLE"
  | string value => quoted value
  | date text => text
  | boolean value => if value then "true" else "false"
  | null => "null"

end Literal
end QueryPlan
