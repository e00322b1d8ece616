import QueryPlan.Decimal.Shortest
import QueryPlan.Json.Quoted

/-! # JSON values

Members of an object stand in the order of their keys, and a key stands once. -/
namespace QueryPlan

inductive Json where
  | null
  | boolean (b : Bool)
  | integer (n : Int)
  | float (x : Float)
  | text (s : String)
  | array (items : List Json)
  | object (members : List (String × Json))
deriving Inhabited

namespace Json

/-- Sets a member; the last value of a key counts. -/
def insert (key : String) (value : Json) : List (String × Json) → List (String × Json)
  | [] => [(key,value)]
  | m :: members =>
    if key < m.1 then (key,value) :: m :: members
    else if key = m.1 then (key,value) :: members
    else m :: insert key value members

def ofMembers (members : List (String × Json)) : Json :=
  object (members.foldl (fun ms m => insert m.1 m.2 ms) [])

private def zeros (n : Nat) : String := String.ofList (List.replicate n '0')

/-- Digits around a point, or one digit before it and a power of ten behind. Powers are written
from 10^16 on, with their sign, and below 10^-5. -/
def digitsText (d : Decimal.Shortest) : String :=
  let ds := toString d.digits
  let count := ds.length
  let before := (count : Int) + d.exponent
  if 0 ≤ d.exponent && before ≤ 16 then ds ++ zeros d.exponent.toNat ++ ".0"
  else if 0 < before && before ≤ 16 then
    (ds.take before.toNat).toString ++ "." ++ (ds.drop before.toNat).toString
  else if -5 < before && before ≤ 0 then "0." ++ zeros (-before).toNat ++ ds
  else
    let tail := (if 0 < before then "e+" else "e") ++ toString (before-1)
    if count = 1 then ds ++ tail
    else (ds.take 1).toString ++ "." ++ (ds.drop 1).toString ++ tail

/-- The text of a finite number of 64 bits. -/
def floatText (x : Float) : String :=
  let sign := if Decimal.isNegative x then "-" else ""
  sign ++ (if x == 0 then "0.0" else digitsText (Decimal.shortestOf x))

mutual

/-- The written form, without blanks. -/
def written : Json → String
  | null => "null"
  | boolean b => if b then "true" else "false"
  | integer n => toString n
  | float x => floatText x
  | text s => quoted s
  | array items => "[" ++ ",".intercalate (writtenItems items) ++ "]"
  | object members => "\x7b" ++ ",".intercalate (writtenMembers members) ++ "\x7d"

def writtenItems : List Json → List String
  | [] => []
  | item :: items => item.written :: writtenItems items

def writtenMembers : List (String × Json) → List String
  | [] => []
  | (key,value) :: members => (quoted key ++ ":" ++ value.written) :: writtenMembers members

end

end Json
end QueryPlan
