import QueryPlan.Binding.Expr
import QueryPlan.Catalog.Basic
import QueryPlan.Sql.Query

/-! # Binding FROM clauses -/
namespace QueryPlan.Binding

/-- The scan of a table and the columns it makes visible. -/
def table (c : Catalog) : Sql.TableFactor → Except QueryError (Plan × Scope)
  | .table [name] label _ _ _ =>
    match c.lookup name.value with
    | none => .error (.unknownTable name.value)
    | some t =>
      match label with
      | none => .ok (.scan t,.ofTable t.name t)
      | some a =>
        if a.columns.isEmpty then .ok (.scan t,.ofTable a.name.value t)
        else .error (.unsupported .columnAliases)
  | .table name _ _ _ _ => .error (.unknownTable name.text)
  | .derived _ _ => .error (.unsupported .subquery)
  | .nestedJoin _ _ => .error (.unsupported .parenthesizedJoin)
  | t@(.other _ _ _) => .error (.unsupported (.tableExpression t.text))

/-- The kind of a join, and whether it takes a condition. -/
def joinKind : Sql.JoinForm → Except QueryError (JoinKind × Bool)
  | .inner => .ok (.inner,true)
  | .left => .ok (.left,true)
  | .right => .ok (.right,true)
  | .full => .ok (.full,true)
  | .cross => .ok (.inner,false)
  | .other _ => .error (.unsupported .semiJoin)

/-- The condition of a join over the columns of both sides. -/
def joinCondition (n : Names) (kind : JoinKind) (constrained : Bool) (c : Sql.JoinConstraint) :
    Except QueryError Expr :=
  let bare : Except QueryError Expr :=
    if kind = .inner then .ok .true
    else .error (.invalid (.joinWithoutCondition kind.name.toUpper))
  if !constrained then bare
  else match c with
    | .none => bare
    | .on e => condition n .on e
    | .using _ => .error (.unsupported .joinUsing)
    | .natural => .error (.unsupported .naturalJoin)

/-- Puts one more table to the right of those bound so far. -/
def join (c : Catalog) (bound : Plan × Scope) (j : Sql.Join) : Except QueryError (Plan × Scope) := do
  let (right,rightScope) ← table c j.factor
  let scope ← bound.2.beside c.caseSensitive rightScope
  let (kind,constrained) ← joinKind j.form
  let on ← joinCondition ⟨scope,c.caseSensitive⟩ kind constrained j.constraint
  return (.join bound.1 right on kind,scope)

def tableWithJoins (c : Catalog) (t : Sql.TableWithJoins) : Except QueryError (Plan × Scope) := do
  t.joins.foldlM (join c) (← table c t.first)

/-- Tables between commas are joined from the left without condition. -/
def fromClause (c : Catalog) : List Sql.TableWithJoins → Except QueryError (Plan × Scope)
  | [] => .error (.unsupported .withoutFrom)
  | first :: rest => do
    rest.foldlM (fun bound t => do
      let (right,rightScope) ← tableWithJoins c t
      let scope ← bound.2.beside c.caseSensitive rightScope
      return (.join bound.1 right .true .inner,scope)) (← tableWithJoins c first)

end QueryPlan.Binding
