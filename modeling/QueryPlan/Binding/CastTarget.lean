import QueryPlan.QueryError
import QueryPlan.Sql.DataType

/-! # Types that a CAST can name -/
namespace QueryPlan.Sql.DataType

/-- Precision and scale of a DECIMAL, if it can have them. -/
def decimalTarget (precision scale : Nat) : Except QueryError SqlType :=
  if precision = 0 || SqlType.maxPrecision.toNat < precision || precision < scale then
    .error (.invalid (.decimalShape precision scale))
  else .ok (.decimal (UInt8.ofNat precision) (Int8.ofNat scale))

/-- Width of a character type; one where no plain length is given. -/
def charWidth : Option CharLength → UInt32
  | some (.units n none) => if n < UInt32.size then UInt32.ofNat n else 1
  | _ => 1

/-- The type of plans that stands for a type of SQL. A DECIMAL without digits has the widest
precision. -/
def target : DataType → Except QueryError SqlType
  | integer _ => .ok .integer
  | bigInt _ => .ok .bigInt
  | decimal _ .none => decimalTarget SqlType.maxPrecision.toNat 0
  | decimal _ (.precision p) => decimalTarget p 0
  | decimal _ (.scaled p s) => decimalTarget p s
  | double _ => .ok .double
  | char _ length => .ok (.char (charWidth length))
  | varchar _ => .ok .varchar
  | date => .ok .date
  | boolean => .ok .boolean
  | t@interval | t@(custom _) | t@(other _) => .error (.unsupported (.dataType t.text))

end QueryPlan.Sql.DataType
