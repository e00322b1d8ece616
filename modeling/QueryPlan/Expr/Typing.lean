import QueryPlan.Expr.Operator
import QueryPlan.QueryError

/-! # Result types of operators -/
namespace QueryPlan.Operator

/-- The type of `op` applied to operands of the given types, if they fit. A CAST names its
type itself, so none is derived for it. -/
def resultType? : Operator → List SqlType → Option SqlType
  | and,types | or,types =>
    if 2 ≤ types.length && types.all SqlType.isBooleanLike then some .boolean else none
  | not,[t] => if t.isBooleanLike then some .boolean else none
  | negate,[t] => if t.isNumeric then some t else none
  | isNull,[_] | isNotNull,[_] => some .boolean
  | plus,[l,r] | minus,[l,r] => SqlType.additive l r
  | multiply,[l,r] => SqlType.multiplicative l r
  | divide,[l,r] | modulo,[l,r] => SqlType.divisive l r
  | like,[l,r] =>
    if (l.isCharacter || l == .null) && (r.isCharacter || r == .null) then some .boolean else none
  | op,[l,r] => if op.isComparison && l.comparableWith r then some .boolean else none
  | _,_ => none

/-- Result type, or the mismatch that names the operator and the types. -/
def deriveType (op : Operator) (types : List SqlType) : Except QueryError SqlType :=
  match op.resultType? types with
  | some t => .ok t
  | none => .error (.mismatch (.operands op.name types))

theorem deriveType_eq_ok_iff {op : Operator} {types : List SqlType} {t : SqlType} :
    op.deriveType types = .ok t ↔ op.resultType? types = some t := by
  unfold deriveType
  cases op.resultType? types <;> simp

end QueryPlan.Operator
