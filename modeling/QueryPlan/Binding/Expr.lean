import QueryPlan.Binding.Aggregates
import QueryPlan.Binding.CastTarget
import QueryPlan.Binding.Scope
import QueryPlan.Date

/-! # From SQL expressions to row expressions

One binding serves both places where expressions stand: over the rows of the FROM clause,
and over the rows of an aggregate, where some expressions are bound as a whole first. -/
namespace QueryPlan.Binding

/-- What names mean in a query, and how they compare. -/
structure Names where
  scope : Scope
  caseSensitive : Bool

def Names.resolve (n : Names) (qualifier : Option String) (name : String) : Except QueryError Expr :=
  n.scope.resolve n.caseSensitive qualifier name

/-- A name with dots: its last two parts count. -/
def Names.resolveParts (n : Names) (parts : List Sql.Ident) : Except QueryError Expr :=
  match parts.reverse with
  | [] => .error (.invalid .emptyIdentifier)
  | [name] => n.resolve none name.value
  | name :: qualifier :: _ => n.resolve (some qualifier.value) name.value

def operator : Sql.BinaryOp → Except QueryError Operator
  | .eq => .ok .eq
  | .notEq => .ok .notEq
  | .lt => .ok .lt
  | .ltEq => .ok .ltEq
  | .gt => .ok .gt
  | .gtEq => .ok .gtEq
  | .and => .ok .and
  | .or => .ok .or
  | .plus => .ok .plus
  | .minus => .ok .minus
  | .multiply => .ok .multiply
  | .divide => .ok .divide
  | .modulo => .ok .modulo
  | .other text => .error (.unsupported (.operator text))

def value : Sql.Value → Except QueryError Expr
  | .number text _ => return .literal (← Literal.ofNumber text)
  | .string s => .ok (.literal (.string s))
  | .boolean b => .ok (.literal (.boolean b))
  | .null => .ok (.literal .null)
  | v => .error (.unsupported (.literal v.text))

/-- A literal with its type in front; only dates can be written so. -/
def typedString (type : Sql.DataType) (text : String) : Except QueryError Expr :=
  match type with
  | .date =>
    match Date.ofText? text with
    | some d => .ok (.literal (.date d.text))
    | none => .error (.invalid (.dateText text))
  | t => .error (.unsupported (.typedLiteral t.text))

/-- A minus sign becomes part of a number where it can. -/
def negated (e : Expr) : Except QueryError Expr :=
  match e with
  | .literal v =>
    match v.negate? with
    | some w => .ok (.literal w)
    | none => Expr.ofCall .negate [e]
  | _ => Expr.ofCall .negate [e]

def unary (op : Sql.UnaryOp) (e : Expr) : Except QueryError Expr :=
  match op with
  | .plus => .ok e
  | .minus => negated e
  | .not => Expr.ofCall .not [e]
  | .factorial => .error (.unsupported (.operator op.text))

/-- A value between two bounds, or outside them. -/
def between (outside : Bool) (v low high : Expr) : Except QueryError Expr := do
  if outside then
    let below ← Expr.ofCall .lt [v,low]
    let above ← Expr.ofCall .gt [v,high]
    Expr.ofCall .or [below,above]
  else
    let above ← Expr.ofCall .gtEq [v,low]
    let below ← Expr.ofCall .ltEq [v,high]
    Expr.ofCall .and [above,below]

/-- The comparison of a value with one member of a list. -/
def membership (absent : Bool) : Operator := if absent then .notEq else .eq

/-- One comparison for each member, all of them or any of them. -/
def inList (absent : Bool) : List Expr → Except QueryError Expr
  | [] => .error (.invalid .emptyInList)
  | [term] => .ok term
  | terms => Expr.ofCall (if absent then .and else .or) terms

def like (absent : Bool) (v pattern : Expr) : Except QueryError Expr := do
  let e ← Expr.ofCall .like [v,pattern]
  if absent then Expr.ofCall .not [e] else return e

def cast (e : Expr) (type : Sql.DataType) : Except QueryError Expr := do
  let target ← type.target
  if e.type.castableTo target then return e.cast target
  else .error (.mismatch (.noConversion e.type target))

/-- Functions have no counterpart in plans, and an aggregate has none where it stands. -/
def function (clause : Clause) (name : Sql.ObjectName) : QueryError :=
  if (AggregateFunction.ofName? name.text).isSome then
    .invalid (if clause = .aggregateArgument then .nestedAggregate else .aggregateIn clause)
  else .unsupported (.function name.text)

section
variable {m : Type → Type} [Monad m] [MonadLiftT (Except QueryError) m]

mutual
/-- Binds an expression from its parts, unless `whole` binds it as a whole. -/
def exprWith (n : Names) (clause : Clause) (whole : Sql.Expr → m (Option Expr)) (e : Sql.Expr) :
    m Expr := do
  match ← whole e with
  | some bound => return bound
  | none =>
    match e with
    | .identifier name => n.resolve none name.value
    | .compound parts => n.resolveParts parts
    | .value v => value v
    | .typedString type text => typedString type text
    | .nested e => exprWith n clause whole e
    | .binary left op right =>
      let op ← operator op
      let left ← exprWith n clause whole left
      let right ← exprWith n clause whole right
      Expr.ofCall op [left,right]
    | .unary op e => unary op (← exprWith n clause whole e)
    | .isNull e => Expr.ofCall .isNull [← exprWith n clause whole e]
    | .isNotNull e => Expr.ofCall .isNotNull [← exprWith n clause whole e]
    | .between e outside low high =>
      let v ← exprWith n clause whole e
      let low ← exprWith n clause whole low
      let high ← exprWith n clause whole high
      between outside v low high
    | .inList e list absent =>
      let v ← exprWith n clause whole e
      inList absent (← termsWith n clause whole (membership absent) v list)
    | .like absent e pattern _ =>
      let v ← exprWith n clause whole e
      like absent v (← exprWith n clause whole pattern)
    | .cast e type _ => cast (← exprWith n clause whole e) type
    | .function name _ _ _ => (.error (function clause name) : Except QueryError Expr)
    | .subquery _ => (.error (.unsupported .subquery) : Except QueryError Expr)
    | .other text => (.error (.unsupported (.expression text)) : Except QueryError Expr)
termination_by structural e
/-- Comparisons of a value with the members of a list. -/
def termsWith (n : Names) (clause : Clause) (whole : Sql.Expr → m (Option Expr)) (op : Operator)
    (v : Expr) : List Sql.Expr → m (List Expr)
  | [] => return []
  | e :: es => do
    let item ← exprWith n clause whole e
    let term ← Expr.ofCall op [v,item]
    return term :: (← termsWith n clause whole op v es)
termination_by structural es => es
end

end

/-- Binds an expression over the rows of the FROM clause. -/
def expr (n : Names) (clause : Clause) (e : Sql.Expr) : Except QueryError Expr :=
  exprWith n clause (fun _ => .ok none) e

/-- A condition must be able to be true. -/
def checkCondition (clause : Clause) (e : Expr) : Except QueryError Unit :=
  if e.type.isBooleanLike then .ok () else .error (.mismatch (.notACondition clause e.type))

def condition (n : Names) (clause : Clause) (e : Sql.Expr) : Except QueryError Expr := do
  let bound ← expr n clause e
  checkCondition clause bound
  return bound

end QueryPlan.Binding
