import Mathlib.Order.Defs.LinearOrder
import QueryPlan.Proofs.Meaning.Algebra

/-! # Comparisons and negation in three-valued logic

Comparisons with NULL are unknown. All others follow the order of the ranks that values have, so the
opposite of a comparison is its negation. -/
namespace QueryPlan

namespace Operator

/-- What a comparison says of two ranks. -/
def compares {β : Type} [LinearOrder β] : Operator → β → β → Bool
  | eq,a,b => a = b
  | notEq,a,b => a ≠ b
  | lt,a,b => a < b
  | ltEq,a,b => a ≤ b
  | gt,a,b => b < a
  | gtEq,a,b => b ≤ a
  | _,_,_ => false

/-- The comparison that is true of ranks exactly where another one is false. -/
def opposite : Operator → Operator
  | eq => notEq | notEq => eq | lt => gtEq | gtEq => lt | gt => ltEq | ltEq => gt
  | op => op

theorem isComparison_opposite {op : Operator} (hop : op.isComparison) : op.opposite.isComparison := by
  cases op <;> first | rfl | cases hop

theorem compares_opposite {β : Type} [LinearOrder β] {op : Operator} (hop : op.isComparison) (a b : β) :
    op.opposite.compares a b = !op.compares a b := by
  rw [Bool.eq_iff_iff]
  cases op <;> simp [isComparison] at hop <;> simp [opposite,compares]

end Operator

namespace Value
variable {α : Type} {v w : Value α} {b : Bool}

/-- The negation of three-valued logic. -/
def negation : Value α → Value α
  | truth b => truth !b
  | _ => null

@[simp] theorem isTrue_negation : v.negation.isTrue = v.isFalse := by cases v <;> rfl

@[simp] theorem isFalse_negation : v.negation.isFalse = v.isTrue := by
  cases v with
  | truth b => exact Bool.not_not b
  | _ => rfl

theorem conjunction_negation (vs : List (Value α)) :
    conjunction (vs.map negation) = (disjunction vs).negation := by
  have hfalse : (vs.map negation).any isFalse = vs.any isTrue := by simp [Function.comp_def]
  have htrue : (vs.map negation).all isTrue = vs.all isFalse := by simp [Function.comp_def]
  rw [conjunction,disjunction,hfalse,htrue]
  split
  · rfl
  · split <;> rfl

theorem disjunction_negation (vs : List (Value α)) :
    disjunction (vs.map negation) = (conjunction vs).negation := by
  have htrue : (vs.map negation).any isTrue = vs.any isFalse := by simp [Function.comp_def]
  have hfalse : (vs.map negation).all isFalse = vs.all isTrue := by simp [Function.comp_def]
  rw [conjunction,disjunction,hfalse,htrue]
  split
  · rfl
  · split <;> rfl

/-- A truth value, unless one of two values is NULL. -/
def unlessNull (b : Bool) : Value α → Value α → Value α
  | null,_ | _,null => null
  | _,_ => truth b

theorem negation_unlessNull : (unlessNull b v w).negation = unlessNull (!b) v w := by
  cases v <;> cases w <;> rfl

/-- What is unknown or a truth value is the disjunction of itself alone. -/
theorem disjunction_unlessNull : disjunction [unlessNull b v w] = unlessNull b v w := by
  cases v <;> cases w <;> cases b <;> rfl

end Value

namespace Interpretation
variable {α β : Type} [LinearOrder β] {I : Interpretation α} {rank : Value α → β}

/-- Comparisons follow the order of ranks where none of the values is NULL, and NOT is the negation of
three-valued logic. -/
structure Ordered (I : Interpretation α) (rank : Value α → β) : Prop where
  comparison : ∀ op : Operator, op.isComparison → ∀ v w,
    I.operator op .boolean [v,w] = .unlessNull (op.compares (rank v) (rank w)) v w
  not : ∀ v, I.operator .not .boolean [v] = v.negation

theorem Ordered.opposite (h : I.Ordered rank) {op : Operator} (hop : op.isComparison) (v w : Value α) :
    I.operator op.opposite .boolean [v,w] = (I.operator op .boolean [v,w]).negation := by
  rw [h.comparison _ (Operator.isComparison_opposite hop),h.comparison op hop,
    Operator.compares_opposite hop,Value.negation_unlessNull]

/-- A comparison alone is the disjunction of itself. -/
theorem Ordered.disjunction (h : I.Ordered rank) {op : Operator} (hop : op.isComparison) (v w : Value α) :
    Value.disjunction [I.operator op .boolean [v,w]] = I.operator op .boolean [v,w] := by
  rw [h.comparison op hop,Value.disjunction_unlessNull]

variable {row : Row α}

theorem eval_comparison {op : Operator} (hop : op.isComparison) (a b : Expr) :
    I.semantics.eval row (.call op [a,b] .boolean)
      = I.operator op .boolean [I.semantics.eval row a,I.semantics.eval row b] := by
  rw [Semantics.eval_call]
  cases op <;> first | rfl | cases hop

theorem eval_and (args : List Expr) : I.semantics.eval row (.call .and args .boolean)
    = .conjunction (args.map (I.semantics.eval row)) := Semantics.eval_call ..

theorem eval_or (args : List Expr) : I.semantics.eval row (.call .or args .boolean)
    = .disjunction (args.map (I.semantics.eval row)) := Semantics.eval_call ..

end Interpretation

/-! ## Whole numbers -/

/-- The number of a value. Truth values are numbers like others. -/
def Value.wholeNumber : Value Int → Int
  | truth b => if b then 1 else 0
  | null => 0
  | datum a => a

def wholeNumbers : Interpretation Int where
  literal
    | .integer v => .datum v.toInt
    | _ => .null
  operator
    | .not,_,[v] => v.negation
    | op,_,[v,w] => .unlessNull (op.compares v.wholeNumber w.wholeNumber) v w
    | _,_,_ => .null
  aggregate _ _ rows := .datum rows.card

theorem ordered_wholeNumbers : wholeNumbers.Ordered Value.wholeNumber where
  comparison op _ v w := by cases op <;> rfl
  not _ := rfl

end QueryPlan
