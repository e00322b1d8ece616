/-! # Shortest decimals of binary fractions

Among the decimals that round to a binary fraction, those with the fewest digits are sought,
and of these the nearest. -/
namespace QueryPlan.Decimal

/-- A number `digits · 10^exponent`. -/
structure Shortest where
  digits : Nat
  exponent : Int
deriving DecidableEq,Repr

/-- A positive number `num / den` and the distances, over the same denominator, within which
other numbers round to it. -/
structure Rounded where
  num : Nat
  den : Nat
  below : Nat
  above : Nat
  closed : Bool

/-- The number `mantissa · 2^exponent` among its neighbours of the same width. The gap below a
power of two is half as wide, but for the smallest exponent. -/
def Rounded.ofBinary (mantissa : Nat) (exponent : Int) (narrow : Bool) : Rounded :=
  let up := Nat.pow 2 (exponent-2).toNat
  { num := 4*mantissa*up,den := Nat.pow 2 (2-exponent).toNat,below := (if narrow then 1 else 2)*up,
    above := 2*up,closed := mantissa % 2 == 0 }

namespace Rounded

/-- Whether `digits · 10^exponent` rounds to the number, and how far away it is over a
denominator that depends on the exponent alone. -/
def distance? (r : Rounded) (digits : Nat) (exponent : Int) : Option Nat :=
  let up := Nat.pow 10 exponent.toNat
  let down := Nat.pow 10 (-exponent).toNat
  let point := digits*up*r.den
  let value := r.num*down
  if point ≤ value then
    let far := value-point
    if far < r.below*down || (r.closed && far == r.below*down) then some far else none
  else
    let far := point-value
    if far < r.above*down || (r.closed && far == r.above*down) then some far else none

/-- The better of the two points of a grid that stand around the number, if one rounds to it. -/
def onGrid? (r : Rounded) (exponent : Int) : Option Nat :=
  let floor := r.num*Nat.pow 10 (-exponent).toNat / (r.den*Nat.pow 10 exponent.toNat)
  match r.distance? floor exponent,r.distance? (floor+1) exponent with
  | some a,some b => some (if a < b || (a == b && floor % 2 == 0) then floor else floor+1)
  | some _,none => some floor
  | none,some _ => some (floor+1)
  | none,none => none

/-- The number of digits before the point, zero or less for numbers below one tenth. -/
def magnitude (r : Rounded) : Int :=
  if r.den ≤ r.num then (Nat.toDigits 10 (r.num/r.den)).length
  else match (List.range 400).find? fun j => r.den ≤ r.num*Nat.pow 10 j with
    | some j => 1 - (j : Int)
    | none => 0

/-- Moves zeros at the end of the digits into the exponent. -/
def stripped : Nat → Nat → Int → Shortest
  | 0,digits,exponent => ⟨digits,exponent⟩
  | fuel+1,digits,exponent =>
    if digits ≠ 0 && digits % 10 == 0 then stripped fuel (digits/10) (exponent+1)
    else ⟨digits,exponent⟩

/-- Tries grids of one digit, two digits and so on; seventeen always suffice for 53 bits. -/
def shortest (r : Rounded) : Shortest :=
  let magnitude := r.magnitude
  let found := (List.range 17).findSome? fun n =>
    let exponent := magnitude - (n+1 : Nat)
    (r.onGrid? exponent).map fun digits => stripped 17 digits exponent
  found.getD ⟨0,0⟩

end Rounded

/-- The weight of the sign in the bits of a number of 64 bits. -/
def signWeight : Nat := 0x8000000000000000

/-- The weight of the exponent's lowest bit, and of the leading bit of a mantissa. -/
def exponentWeight : Nat := 0x10000000000000

def isNegative (x : Float) : Bool := signWeight ≤ x.toBits.toNat

/-- The shortest decimal of a finite number of 64 bits other than zero, without its sign. -/
def shortestOf (x : Float) : Shortest :=
  let bits : Nat := x.toBits.toNat % signWeight
  let fraction : Nat := bits % exponentWeight
  let exponent : Nat := bits / exponentWeight
  if exponent = 0 then (Rounded.ofBinary fraction (-1074) false).shortest
  else
    let narrow := fraction == 0 && exponent != 1
    (Rounded.ofBinary (fraction+exponentWeight) ((exponent : Int)-1075) narrow).shortest

end QueryPlan.Decimal
