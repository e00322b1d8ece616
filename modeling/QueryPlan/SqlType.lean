/-! # SQL types and the arithmetic on their digits

Precisions are unsigned bytes, scales signed bytes, and the sums between them
are taken in sixteen bits. -/
namespace QueryPlan

/-- Type of a column or of an expression; `null` is the type of the NULL literal. -/
inductive SqlType where
  | integer
  | bigInt
  | char (width : UInt32)
  | varchar
  | decimal (precision : UInt8) (scale : Int8)
  | date
  | double
  | boolean
  | null
deriving DecidableEq,Repr,Inhabited

namespace SqlType

/-- The widest precision a derived DECIMAL can have. -/
def maxPrecision : UInt8 := 38

def text : SqlType → String
  | integer => "INTEGER"
  | bigInt => "BIGINT"
  | char width => "CHAR(" ++ toString width.toNat ++ ")"
  | varchar => "VARCHAR"
  | decimal precision scale =>
    "DECIMAL(" ++ toString precision.toNat ++ ", " ++ toString scale.toInt ++ ")"
  | date => "DATE"
  | double => "DOUBLE"
  | boolean => "BOOLEAN"
  | null => "NULL"

def isNumeric : SqlType → Bool
  | integer | bigInt | decimal _ _ | double => true
  | _ => false

def isCharacter : SqlType → Bool
  | char _ | varchar => true
  | _ => false

/-- A condition has type BOOLEAN, or is the NULL literal. -/
def isBooleanLike : SqlType → Bool
  | boolean | null => true
  | _ => false

/-- Types whose values `=`, `<`, … can compare. -/
def comparableWith (a b : SqlType) : Bool :=
  a == null || b == null || (a.isNumeric && b.isNumeric)
    || (a.isCharacter && b.isCharacter) || a == b

/-- Precision and scale of the exact numeric types. -/
def exactDigits : SqlType → Option (UInt8 × Int8)
  | integer => some (10,0)
  | bigInt => some (19,0)
  | decimal precision scale => some (precision,scale)
  | _ => none

/-- Brings a precision into the range from one to the widest. -/
def clampPrecision (p : Int16) : UInt8 :=
  if p < 1 then 1 else if 38 < p then maxPrecision else UInt8.ofNat p.toInt.toNat

private def wide (p : UInt8) : Int16 := Int16.ofNat p.toNat

/-- Result type of an arithmetic operator. NULL takes the other side's type, DOUBLE
absorbs every other numeric type, integers stay integers, and `digits` decides the rest. -/
def arithmetic (digits : UInt8 × Int8 → UInt8 × Int8 → UInt8 × Int8) (a b : SqlType) :
    Option SqlType :=
  if !(a.isNumeric || a == null) || !(b.isNumeric || b == null) then none
  else match a,b with
    | null,t | t,null => some t
    | double,_ | _,double => some double
    | integer,integer => some integer
    | integer,bigInt | bigInt,integer | bigInt,bigInt => some bigInt
    | a,b => do
      let (precision,scale) := digits (← a.exactDigits) (← b.exactDigits)
      return decimal precision (min scale (Int8.ofNat precision.toNat))

/-- Digits of a sum: room for the wider integral part, the longer fraction and a carry. -/
def sumDigits (a b : UInt8 × Int8) : UInt8 × Int8 :=
  let scale := max a.2 b.2
  let integral := max (wide a.1 - a.2.toInt16) (wide b.1 - b.2.toInt16)
  (clampPrecision (integral + scale.toInt16 + 1),scale)

/-- Digits of a product: both add up, and the scale stops at the ends of its range. -/
def productDigits (a b : UInt8 × Int8) : UInt8 × Int8 :=
  (clampPrecision (wide a.1 + wide b.1),Int8.ofIntClamp (a.2.toInt + b.2.toInt))

/-- Digits of a quotient or remainder: at least six places after the point. -/
def quotientDigits (a b : UInt8 × Int8) : UInt8 × Int8 :=
  let scale := max (max a.2 b.2) 6
  (clampPrecision (wide a.1 + scale.toInt16),scale)

/-- Result type of `+` and `-`. -/
def additive : SqlType → SqlType → Option SqlType := arithmetic sumDigits

/-- Result type of `*`. -/
def multiplicative : SqlType → SqlType → Option SqlType := arithmetic productDigits

/-- Result type of `/` and `MOD`. -/
def divisive : SqlType → SqlType → Option SqlType := arithmetic quotientDigits

/-- Types a CAST can convert between: anything to and from text, numbers to
numbers, NULL to everything. -/
def castableTo (source target : SqlType) : Bool :=
  source == null || source == target || source.isCharacter || target.isCharacter
    || (source.isNumeric && target.isNumeric)

end SqlType
end QueryPlan
