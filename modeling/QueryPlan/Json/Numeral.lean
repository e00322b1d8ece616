/-! # Numbers as JSON writes them

A numeral without point and exponent that fits 64 bits is an integer. Every other one is a
binary fraction: its leading digits are kept as long as they fit 64 bits, and powers of ten are
multiplied or divided in. -/
namespace QueryPlan.Json

/-- The parts of a numeral; a missing fraction or exponent is no part. -/
structure Numeral where
  negative : Bool
  whole : List Nat
  fraction : Option (List Nat)
  exponent : Option (Bool × List Nat)
deriving DecidableEq,Repr

inductive Number where
  | integer (n : Int)
  | float (x : Float)

/-- Appends digits as long as the number stays below 2^64, and gives the digits left over. -/
def appendDigits (n : Nat) : List Nat → Nat × List Nat
  | [] => (n,[])
  | d :: ds => if 10*n+d < UInt64.size then appendDigits (10*n+d) ds else (n,d :: ds)

def powerOfTen (n : Nat) : Float := Float.ofScientific 1 false n

/-- Divides by a power of ten in steps of 10^308. -/
def scaleDown (x : Float) (n : Nat) : Float :=
  if n ≤ 308 then x / powerOfTen n
  else if x == 0 then x else scaleDown (x / powerOfTen 308) (n-308)
termination_by n

/-- The fraction `significand · 10^exponent`, unless it is out of range. -/
def floatOf (significand : Nat) (exponent : Int) : Option Float :=
  let x := significand.toUInt64.toFloat
  if exponent < 0 then some (scaleDown x exponent.natAbs)
  else if exponent ≤ 308 then
    let y := x * powerOfTen exponent.toNat
    if y.isInf then none else some y
  else if significand = 0 then some x else none

/-- The largest exponent that is told apart from infinity. -/
def maxExponent : Nat := 2147483647

private def decimal (ds : List Nat) : Nat := ds.foldl (fun n d => 10*n+d) 0

def Numeral.value? (n : Numeral) : Option Number :=
  let (head,rest) := appendDigits 0 n.whole
  match n.fraction,n.exponent,rest with
  | none,none,[] =>
    if !n.negative then some (.integer head)
    else if head = 0 || 0x8000000000000000 < head then some (.float (-head.toUInt64.toFloat))
    else some (.integer (-head))
  | _,_,_ =>
    let places := n.fraction.getD []
    let (significand,dropped) := appendDigits head places
    let shift : Int := (rest.length : Int) - ((places.length - dropped.length : Nat) : Int)
    let x := match n.exponent with
      | none => floatOf significand shift
      | some (down,ds) =>
        let e := decimal ds
        if maxExponent < e then
          if significand ≠ 0 && !down then none else some 0
        else floatOf significand (if down then shift - e else shift + e)
    x.map fun x => .float (if n.negative then -x else x)

end QueryPlan.Json
