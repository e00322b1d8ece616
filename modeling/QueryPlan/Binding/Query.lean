import QueryPlan.Binding.From
import QueryPlan.Binding.Grouping
import QueryPlan.Sql.StatementReading

/-! # Binding queries

A query becomes a tree of tables and joins, with a filter, an aggregate over a projection and a
filter of groups where it asks for them, below the projection of its select list. -/
namespace QueryPlan.Binding

/-- One output column: an expression with its label, or a column that a wildcard stands for. -/
inductive Target where
  | expr (e : Sql.Expr) (label : Option Sql.Ident)
  | column (index : Nat) (c : ScopeColumn)

/-- The output columns of one item of a select list. -/
def targetsOf (n : Names) : Sql.SelectItem → Except QueryError (List Target)
  | .expr e label => .ok [.expr e label]
  | .wildcard _ => .ok (n.scope.places.map fun p => .column p.2 p.1)
  | .qualifiedWildcard name _ =>
    let relation := (name.getLast?.map Sql.Ident.value).getD ""
    if n.scope.hasRelation n.caseSensitive relation then
      .ok ((n.scope.places.filter fun p =>
        sameName n.caseSensitive p.1.relation relation).map fun p => .column p.2 p.1)
    else .error (.unknownTable name.text)

def targets (n : Names) (items : List Sql.SelectItem) : Except QueryError (List Target) :=
  return (← items.mapM (targetsOf n)).flatten

/-- The label, else the name of a column, else a name made from the position. -/
def Target.name (position : Nat) : Target → String
  | .expr _ (some label) => label.value
  | .expr (.identifier name) none => name.value
  | .expr (.compound parts) none =>
    match parts.getLast? with
    | some name => name.value
    | none => "EXPR$" ++ toString position
  | .expr _ none => "EXPR$" ++ toString position
  | .column _ c => c.name

def Target.hasAggregate : Target → Bool
  | .expr e _ => e.hasAggregate
  | .column _ _ => false

/-- Output names, made distinct. -/
def targetNames (ts : List Target) : List String :=
  uniquify (ts.zipIdx.map fun p => p.1.name p.2)

def Target.bind (n : Names) : Target → Except QueryError Expr
  | .expr e _ => Binding.expr n .select e
  | .column i c => .ok (.column i c.type)

def Target.bindGrouped (n : Names) (keys : List Expr) : Target → Gathering Expr
  | .expr e _ => groupedExpr n keys .select e
  | .column i c => groupedColumn keys i c

/-- The name for the call behind an output column that is one aggregate and nothing else. -/
def nameCall (keyCount : Nat) (calls : List AggregateCall) (t : Target) (e : Expr) (name : String) :
    List AggregateCall :=
  match t,e with
  | .expr source _,.column i _ =>
    if keyCount ≤ i && source.aggregate?.isSome then
      calls.modify (i - keyCount) fun c => if c.name.startsWith "$f" then { c with name } else c
    else calls
  | _,_ => calls

def nameCalls (keyCount : Nat) : List Target → List Expr → List String → List AggregateCall →
    List AggregateCall
  | t :: ts,e :: es,name :: names,calls =>
    nameCalls keyCount ts es names (nameCall keyCount calls t e name)
  | _,_,_,calls => calls

/-- The output columns and the condition of a grouped query, with what its aggregate needs. -/
def gather (n : Names) (keys : List Expr) (ts : List Target) (having : Option Sql.Expr) :
    Except QueryError ((List Expr × Option Expr) × Gathered) :=
  let gathering : Gathering (List Expr × Option Expr) := do
    let es ← ts.mapM (Target.bindGrouped n keys)
    return (es,← having.mapM (groupedCondition n keys))
  gathering.run ⟨keys,[]⟩

/-- The aggregate of a grouped query over its input, and the output columns over it. The
aggregate reads at least one column. -/
def aggregation (n : Names) (input : Plan) (groupBy : List Sql.Expr) (ts : List Target)
    (names : List String) (having : Option Sql.Expr) : Except QueryError (Plan × List Expr) := do
  let keys ← groupKeys n groupBy
  let ((es,condition),gathered) ← gather n keys ts having
  let calls := nameCalls keys.length ts es names gathered.calls
  let inputs := if gathered.inputs.isEmpty then [.literal (.integer 0)] else gathered.inputs
  let plan : Plan := .aggregate (input.projectDerived inputs) (List.range keys.length) calls
  match condition with
  | some e => return (.filter plan e,es)
  | none => return (plan,es)

/-- Rows that satisfy the condition of a WHERE clause; TRUE needs no filter. -/
def filtered (n : Names) (input : Plan) : Option Sql.Expr → Except QueryError Plan
  | none => .ok input
  | some e => do
    let bound ← condition n .whereClause e
    return if bound.isTrue then input else .filter input bound

def groupExprs : Sql.GroupBy → Except QueryError (List Sql.Expr)
  | .all => .error (.unsupported .groupByAll)
  | .exprs keys => .ok keys

/-- Drops repeated rows where a query asks for it. -/
def distinct (p : Plan) : Option Sql.Distinct → Except QueryError Plan
  | none => .ok p
  | some .rows => .ok (.aggregate p (List.range p.width) [])
  | some (.on _) => .error (.unsupported .distinctOn)

def select (c : Catalog) (s : Sql.Select) : Except QueryError Plan := do
  if s.top.isSome then throw (.unsupported .top)
  if s.into.isSome then throw (.unsupported .selectInto)
  let (tables,scope) ← fromClause c s.tables
  let n : Names := ⟨scope,c.caseSensitive⟩
  let input ← filtered n tables s.selection
  let groupBy ← groupExprs s.groupBy
  let ts ← targets n s.items
  let names := targetNames ts
  let grouped := !groupBy.isEmpty || s.having.isSome || ts.any Target.hasAggregate
  let (plan,es) ← if grouped then aggregation n input groupBy ts names s.having
    else pure (input,← ts.mapM (Target.bind n))
  distinct (.project plan es names) s.distinct

/-- Clauses around the body of a query that plans have no counterpart for. -/
def checkClauses (q : Sql.QueryClauses) : Except QueryError Unit := do
  if q.withClause.isSome then throw (.unsupported .withClause)
  if !q.orderBy.isEmpty then throw (.unsupported .orderBy)
  if q.limit.isSome then throw (.unsupported .limit)
  if q.offset.isSome then throw (.unsupported .offset)
  if q.fetch.isSome then throw (.unsupported .fetch)

mutual
def query (c : Catalog) : Sql.Query → Except QueryError Plan
  | .mk clauses b => do
    checkClauses clauses
    body c b
def body (c : Catalog) : Sql.Body → Except QueryError Plan
  | .select s => select c s
  | .query q => query c q
  | .setOperation _ => .error (.unsupported .setOperation)
  | .other _ => .error (.unsupported .otherBody)
end

end Binding

/-- The one query of a text. -/
def Sql.Query.ofText (text : String) : Except QueryError Sql.Query :=
  match Sql.Statement.ofText text with
  | .error e => .error (.unparsable e.message)
  | .ok [.query q] => .ok q
  | .ok [_] => .error (.invalid .notASelect)
  | .ok [] => .error (.invalid .noStatement)
  | .ok (_ :: _ :: _) => .error (.invalid .severalStatements)

namespace Catalog

/-- The plan of a query over the tables of a catalog. -/
def bind (c : Catalog) (q : Sql.Query) : Except QueryError Plan := Binding.query c q

def bindText (c : Catalog) (text : String) : Except QueryError Plan := do
  c.bind (← Sql.Query.ofText text)

end Catalog
end QueryPlan
