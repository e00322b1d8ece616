/-! # Types as they are written in SQL -/
namespace QueryPlan.Sql

/-- Precision and scale of an exact numeric type. -/
inductive ExactDigits where
  | none
  | precision (p : Nat)
  | scaled (p s : Nat)
deriving DecidableEq,Repr

def ExactDigits.text : ExactDigits → String
  | none => ""
  | precision p => "(" ++ toString p ++ ")"
  | scaled p s => "(" ++ toString p ++ "," ++ toString s ++ ")"

/-- Length of a character type, with its unit if one is named. -/
inductive CharLength where
  | max
  | units (n : Nat) (unit : Option String)
deriving DecidableEq,Repr

def CharLength.text : CharLength → String
  | max => "MAX"
  | units n none => toString n
  | units n (some unit) => toString n ++ " " ++ unit

/-- Types with a counterpart in plans, each under the name it was written with; a `custom` type
has a name of its own, an `other` type is one of the language. -/
inductive DataType where
  | integer (text : String)
  | bigInt (text : String)
  | decimal (name : String) (digits : ExactDigits)
  | double (text : String)
  | char (name : String) (length : Option CharLength)
  | varchar (text : String)
  | date
  | boolean
  | interval
  | custom (text : String)
  | other (text : String)
deriving DecidableEq,Repr

def DataType.text : DataType → String
  | integer text | bigInt text | double text | varchar text | custom text | other text => text
  | decimal name digits => name ++ digits.text
  | char name none => name
  | char name (some length) => name ++ "(" ++ length.text ++ ")"
  | date => "DATE"
  | boolean => "BOOLEAN"
  | interval => "INTERVAL"

end QueryPlan.Sql
