import QueryPlan.Binding.Query
import QueryPlan.Proofs.Relation.WellFormed

/-! # Clauses that binding passes over

FILTER in a call, ESCAPE behind LIKE, options of wildcards, arguments of tables, LATERAL VIEW and
QUALIFY are read into syntax trees, and change nothing in the plans that are made of these. -/
namespace QueryPlan

namespace Sql

/-! ## Queries without these clauses -/

mutual
/-- An expression without FILTER and ESCAPE. -/
def Expr.plain : Expr → Expr
  | .identifier name => .identifier name
  | .compound parts => .compound parts
  | .value v => .value v
  | .typedString type value => .typedString type value
  | .nested e => .nested e.plain
  | .binary left op right => .binary left.plain op right.plain
  | .unary op e => .unary op e.plain
  | .isNull e => .isNull e.plain
  | .isNotNull e => .isNotNull e.plain
  | .between e negated low high => .between e.plain negated low.plain high.plain
  | .inList e list negated => .inList e.plain (plainAll list) negated
  | .like negated e pattern _ => .like negated e.plain pattern.plain none
  | .cast e type format => .cast e.plain type format
  | .function name args _ tail => .function name (plainArgs args) none tail
  | .subquery text => .subquery text
  | .other text => .other text
def FunctionArg.plain : FunctionArg → FunctionArg
  | .expr e => .expr e.plain
  | .wildcard => .wildcard
  | .other text => .other text
def plainAll : List Expr → List Expr
  | [] => []
  | e :: es => e.plain :: plainAll es
def plainArgs : List FunctionArg → List FunctionArg
  | [] => []
  | a :: as => a.plain :: plainArgs as
end

def SelectItem.plain : SelectItem → SelectItem
  | expr e label => expr e.plain label
  | wildcard _ => wildcard []
  | qualifiedWildcard name _ => qualifiedWildcard name []

def TableFactor.plain : TableFactor → TableFactor
  | table name label _ partitions hints => table name label none partitions hints
  | factor => factor

def JoinConstraint.plain : JoinConstraint → JoinConstraint
  | on condition => on condition.plain
  | constraint => constraint

def Join.plain (j : Join) : Join :=
  { j with factor := j.factor.plain,constraint := j.constraint.plain }

def TableWithJoins.plain (t : TableWithJoins) : TableWithJoins :=
  ⟨t.first.plain,t.joins.map Join.plain⟩

def GroupBy.plain : GroupBy → GroupBy
  | all => all
  | exprs keys => exprs (keys.map Expr.plain)

def Select.plain (s : Select) : Select :=
  { s with
    items := s.items.map SelectItem.plain
    tables := s.tables.map TableWithJoins.plain
    lateralViews := []
    selection := s.selection.map Expr.plain
    groupBy := s.groupBy.plain
    having := s.having.map Expr.plain
    qualify := none }

mutual
/-- A query without the clauses that binding passes over. -/
def Query.plain : Query → Query
  | .mk clauses body => .mk clauses body.plain
def Body.plain : Body → Body
  | .select s => .select s.plain
  | .query q => .query q.plain
  | .setOperation text => .setOperation text
  | .other text => .other text
end

mutual
@[simp] theorem Expr.plain_plain : (e : Expr) → e.plain.plain = e.plain
  | .identifier _ | .compound _ | .value _ | .typedString _ _ | .subquery _ | .other _ => rfl
  | .nested e | .unary _ e | .isNull e | .isNotNull e | .cast e _ _ => by
    simp only [Expr.plain,e.plain_plain]
  | .binary left _ right | .like _ left right _ => by
    simp only [Expr.plain,left.plain_plain,right.plain_plain]
  | .between e _ low high => by
    simp only [Expr.plain,e.plain_plain,low.plain_plain,high.plain_plain]
  | .inList e list _ => by simp only [Expr.plain,e.plain_plain,plainAll_plainAll list]
  | .function _ args _ _ => by simp only [Expr.plain,plainArgs_plainArgs args]
theorem FunctionArg.plain_plain : (a : FunctionArg) → a.plain.plain = a.plain
  | .expr e => by simp only [FunctionArg.plain,e.plain_plain]
  | .wildcard | .other _ => rfl
theorem plainAll_plainAll : (es : List Expr) → plainAll (plainAll es) = plainAll es
  | [] => rfl
  | e :: es => by simp only [plainAll,e.plain_plain,plainAll_plainAll es]
theorem plainArgs_plainArgs : (as : List FunctionArg) → plainArgs (plainArgs as) = plainArgs as
  | [] => rfl
  | a :: as => by simp only [plainArgs,a.plain_plain,plainArgs_plainArgs as]
end

@[simp] theorem SelectItem.plain_plain (item : SelectItem) : item.plain.plain = item.plain := by
  cases item <;> simp [plain]

@[simp] theorem TableFactor.plain_plain (factor : TableFactor) : factor.plain.plain = factor.plain := by
  cases factor <;> rfl

@[simp] theorem JoinConstraint.plain_plain (constraint : JoinConstraint) :
    constraint.plain.plain = constraint.plain := by
  cases constraint <;> simp [plain]

@[simp] theorem Join.plain_plain (j : Join) : j.plain.plain = j.plain := by simp [plain]

@[simp] theorem TableWithJoins.plain_plain (t : TableWithJoins) : t.plain.plain = t.plain := by
  simp [plain]

@[simp] theorem GroupBy.plain_plain (g : GroupBy) : g.plain.plain = g.plain := by
  cases g <;> simp [plain]

theorem Select.plain_plain (s : Select) : s.plain.plain = s.plain := by
  simp [plain,Function.comp_def]

mutual
theorem Query.plain_plain : (q : Query) → q.plain.plain = q.plain
  | .mk _ body => by simp only [Query.plain,body.plain_plain]
theorem Body.plain_plain : (b : Body) → b.plain.plain = b.plain
  | .select s => by simp only [Body.plain,s.plain_plain]
  | .query q => by simp only [Body.plain,q.plain_plain]
  | .setOperation _ | .other _ => rfl
end

/-! ## What shows of an expression at its root -/

@[simp] theorem Expr.aggregate?_plain (e : Expr) : e.plain.aggregate? = e.aggregate? := by
  cases e <;> rfl

mutual
@[simp] theorem Expr.hasAggregate_plain : (e : Expr) → e.plain.hasAggregate = e.hasAggregate
  | .identifier _ | .compound _ | .value _ | .typedString _ _ | .subquery _ | .other _ => rfl
  | .nested e | .unary _ e | .isNull e | .isNotNull e | .cast e _ _ => e.hasAggregate_plain
  | .binary left _ right | .like _ left right _ => by
    simp only [Expr.plain,Expr.hasAggregate,left.hasAggregate_plain,right.hasAggregate_plain]
  | .between e _ low high => by
    simp only [Expr.plain,Expr.hasAggregate,e.hasAggregate_plain,low.hasAggregate_plain,
      high.hasAggregate_plain]
  | .inList e list _ => by
    simp only [Expr.plain,Expr.hasAggregate,e.hasAggregate_plain,anyAggregate_plain list]
  | .function name args _ _ => by
    simp only [Expr.plain,Expr.hasAggregate,argsAggregate_plain args]
theorem FunctionArg.hasAggregate_plain : (a : FunctionArg) → a.plain.hasAggregate = a.hasAggregate
  | .expr e => e.hasAggregate_plain
  | .wildcard | .other _ => rfl
theorem anyAggregate_plain : (es : List Expr) → anyAggregate (plainAll es) = anyAggregate es
  | [] => rfl
  | e :: es => by simp only [plainAll,anyAggregate,e.hasAggregate_plain,anyAggregate_plain es]
theorem argsAggregate_plain : (as : List FunctionArg) →
    argsAggregate (plainArgs as) = argsAggregate as
  | [] => rfl
  | a :: as => by simp only [plainArgs,argsAggregate,a.hasAggregate_plain,argsAggregate_plain as]
end

end Sql

namespace Binding

variable {n : Names} {clause : Clause}

/-! ## Expressions -/

section
variable {m : Type → Type} [Monad m] [MonadLiftT (Except QueryError) m]
  {whole : Sql.Expr → m (Option Expr)}

mutual
theorem exprWith_plain (hwhole : ∀ e, whole e.plain = whole e) (e : Sql.Expr) :
    exprWith n clause whole e.plain = exprWith n clause whole e := by
  rw [exprWith.eq_def,exprWith.eq_def n clause whole e,hwhole]
  congr 1
  funext result
  cases result with
  | some bound => rfl
  | none =>
    cases e with
    | identifier name => rfl
    | compound parts => rfl
    | value v => rfl
    | typedString t s => rfl
    | nested e => exact exprWith_plain hwhole e
    | binary left op right =>
      simp only [Sql.Expr.plain,exprWith_plain hwhole left,exprWith_plain hwhole right]
    | unary op e => simp only [Sql.Expr.plain,exprWith_plain hwhole e]
    | isNull e => simp only [Sql.Expr.plain,exprWith_plain hwhole e]
    | isNotNull e => simp only [Sql.Expr.plain,exprWith_plain hwhole e]
    | between e outside low high =>
      simp only [Sql.Expr.plain,exprWith_plain hwhole e,exprWith_plain hwhole low,
        exprWith_plain hwhole high]
    | inList e list absent =>
      simp only [Sql.Expr.plain,exprWith_plain hwhole e,termsWith_plain hwhole _ _ list]
    | like absent e pattern escape =>
      simp only [Sql.Expr.plain,exprWith_plain hwhole e,exprWith_plain hwhole pattern]
    | cast e t format => simp only [Sql.Expr.plain,exprWith_plain hwhole e]
    | function name args filter tail => rfl
    | subquery text => rfl
    | other text => rfl
termination_by structural e
theorem termsWith_plain (hwhole : ∀ e, whole e.plain = whole e) (op : Operator) (v : Expr)
    (es : List Sql.Expr) :
    termsWith n clause whole op v (Sql.plainAll es) = termsWith n clause whole op v es := by
  cases es with
  | nil => rfl
  | cons e es =>
    simp only [Sql.plainAll,termsWith,exprWith_plain hwhole e,termsWith_plain hwhole op v es]
termination_by structural es
end

end

@[simp] theorem expr_plain (e : Sql.Expr) : expr n clause e.plain = expr n clause e :=
  exprWith_plain (fun _ => rfl) e

@[simp] theorem condition_plain (e : Sql.Expr) : condition n clause e.plain = condition n clause e := by
  rw [condition,condition,expr_plain]

/-! ## Grouped queries -/

variable {keys : List Expr} {keyCount : Nat}

theorem groupKeys_plain (groupBy : List Sql.Expr) :
    groupKeys n (groupBy.map Sql.Expr.plain) = groupKeys n groupBy := by
  simp only [groupKeys,List.foldlM_map,expr_plain]

theorem aggregateArgument_plain (f : AggregateFunction) (distinct : Bool)
    (args : List Sql.FunctionArg) :
    aggregateArgument n f distinct (Sql.plainArgs args) = aggregateArgument n f distinct args := by
  match args with
  | [] => rfl
  | [.expr e] => simp only [Sql.plainArgs,Sql.FunctionArg.plain,aggregateArgument,expr_plain]
  | [.wildcard] | [.other _] => rfl
  | a :: b :: rest => cases a <;> rfl

theorem aggregateCall_plain (f : AggregateFunction) (args : List Sql.FunctionArg) (tail : Sql.CallTail) :
    aggregateCall n keyCount f (Sql.plainArgs args) tail = aggregateCall n keyCount f args tail := by
  simp only [aggregateCall,aggregateArgument_plain]

theorem groupedWhole_plain (e : Sql.Expr) :
    groupedWhole n keys clause e.plain = groupedWhole n keys clause e := by
  unfold groupedWhole
  simp only [Sql.Expr.aggregate?_plain,Sql.Expr.hasAggregate_plain,expr_plain]
  cases e with
  | function name args filter tail =>
    cases hname : AggregateFunction.ofName? name.text with
    | none => simp only [Sql.Expr.plain,Sql.Expr.aggregate?,hname]; rfl
    | some f => simp only [Sql.Expr.plain,Sql.Expr.aggregate?,hname,aggregateCall_plain]
  | _ => rfl

theorem groupedExpr_plain (e : Sql.Expr) :
    groupedExpr n keys clause e.plain = groupedExpr n keys clause e :=
  exprWith_plain groupedWhole_plain e

theorem groupedCondition_plain (e : Sql.Expr) :
    groupedCondition n keys e.plain = groupedCondition n keys e := by
  rw [groupedCondition,groupedCondition,groupedExpr_plain]

/-! ## Output columns -/

def Target.plain : Target → Target
  | .expr e label => .expr e.plain label
  | .column i c => .column i c

theorem targetsOf_plain (item : Sql.SelectItem) :
    targetsOf n item.plain = (targetsOf n item).map (List.map Target.plain) := by
  cases item with
  | expr e label => rfl
  | wildcard options => simp [targetsOf,Sql.SelectItem.plain,Except.map,Target.plain]
  | qualifiedWildcard name options =>
    simp only [targetsOf,Sql.SelectItem.plain]
    split <;> simp [Except.map,Target.plain]

theorem targets_plain (items : List Sql.SelectItem) :
    targets n (items.map Sql.SelectItem.plain) = (targets n items).map (List.map Target.plain) := by
  have hitems : (items.map Sql.SelectItem.plain).mapM (targetsOf n) =
      (items.mapM (targetsOf n)).map (List.map (List.map Target.plain)) := by
    induction items with
    | nil => rfl
    | cons item items ih =>
      simp only [List.map_cons,List.mapM_cons,targetsOf_plain,ih]
      cases targetsOf n item with
      | error e => rfl
      | ok ts => cases items.mapM (targetsOf n) <;> rfl
  rw [targets,targets,hitems]
  cases items.mapM (targetsOf n) with
  | error e => rfl
  | ok tss => simp [Except.map,bind,Except.bind,pure,Except.pure]

@[simp] theorem Target.name_plain (position : Nat) (t : Target) :
    t.plain.name position = t.name position := by
  cases t with
  | column i c => rfl
  | expr e label =>
    cases label with
    | some label => rfl
    | none => cases e <;> rfl

@[simp] theorem Target.hasAggregate_plain (t : Target) : t.plain.hasAggregate = t.hasAggregate := by
  cases t with
  | expr e label => exact e.hasAggregate_plain
  | column i c => rfl

@[simp] theorem Target.bind_plain (t : Target) : t.plain.bind n = t.bind n := by
  cases t with
  | expr e label => exact expr_plain e
  | column i c => rfl

@[simp] theorem Target.bindGrouped_plain (t : Target) :
    t.plain.bindGrouped n keys = t.bindGrouped n keys := by
  cases t with
  | expr e label => exact groupedExpr_plain e
  | column i c => rfl

theorem targetNames_plain (ts : List Target) : targetNames (ts.map Target.plain) = targetNames ts := by
  simp [targetNames,List.zipIdx_map,Function.comp_def]

theorem nameCall_plain (calls : List AggregateCall) (t : Target) (e : Expr) (name : String) :
    nameCall keyCount calls t.plain e name = nameCall keyCount calls t e name := by
  cases t with
  | column i c => rfl
  | expr source label => cases e <;> simp only [nameCall,Target.plain,Sql.Expr.aggregate?_plain]

theorem nameCalls_plain (ts : List Target) (es : List Expr) (names : List String)
    (calls : List AggregateCall) :
    nameCalls keyCount (ts.map Target.plain) es names calls = nameCalls keyCount ts es names calls := by
  induction ts generalizing es names calls with
  | nil => rfl
  | cons t ts ih =>
    cases es with
    | nil => rfl
    | cons e es =>
      cases names with
      | nil => rfl
      | cons name names => rw [List.map_cons,nameCalls,nameCalls,nameCall_plain,ih]

theorem gather_plain (ts : List Target) (having : Option Sql.Expr) :
    gather n keys (ts.map Target.plain) (having.map Sql.Expr.plain) = gather n keys ts having := by
  have hhaving : (having.map Sql.Expr.plain).mapM (groupedCondition n keys) =
      having.mapM (groupedCondition n keys) := by
    cases having with
    | none => rfl
    | some e => simp only [Option.map_some,Option.mapM_some,groupedCondition_plain]
  simp only [gather,List.mapM_map,Function.comp_def,Target.bindGrouped_plain,hhaving]

theorem aggregation_plain (input : Plan) (groupBy : List Sql.Expr) (ts : List Target)
    (names : List String) (having : Option Sql.Expr) :
    aggregation n input (groupBy.map Sql.Expr.plain) (ts.map Target.plain) names
      (having.map Sql.Expr.plain) = aggregation n input groupBy ts names having := by
  simp only [aggregation,groupKeys_plain,gather_plain,nameCalls_plain]

/-! ## Tables -/

variable {c : Catalog}

@[simp] theorem table_plain (factor : Sql.TableFactor) : table c factor.plain = table c factor := by
  cases factor with
  | table name label args partitions hints =>
    match name with
    | [] | [_] | _ :: _ :: _ => rfl
  | _ => rfl

theorem joinCondition_plain (kind : JoinKind) (constrained : Bool) (constraint : Sql.JoinConstraint) :
    joinCondition n kind constrained constraint.plain = joinCondition n kind constrained constraint := by
  cases constraint with
  | on e => simp only [joinCondition,Sql.JoinConstraint.plain,condition_plain]
  | _ => rfl

theorem join_plain (bound : Plan × Scope) (j : Sql.Join) : join c bound j.plain = join c bound j := by
  simp only [join,Sql.Join.plain,table_plain,joinCondition_plain]

theorem tableWithJoins_plain (t : Sql.TableWithJoins) : tableWithJoins c t.plain = tableWithJoins c t := by
  simp only [tableWithJoins,Sql.TableWithJoins.plain,table_plain,List.foldlM_map,join_plain]

theorem fromClause_plain (ts : List Sql.TableWithJoins) :
    fromClause c (ts.map Sql.TableWithJoins.plain) = fromClause c ts := by
  cases ts with
  | nil => rfl
  | cons first rest => simp only [List.map_cons,fromClause,List.foldlM_map,tableWithJoins_plain]

/-! ## Queries -/

theorem filtered_plain (input : Plan) (selection : Option Sql.Expr) :
    filtered n input (selection.map Sql.Expr.plain) = filtered n input selection := by
  cases selection with
  | none => rfl
  | some e => simp only [Option.map_some,filtered,condition_plain]

theorem groupExprs_plain (groupBy : Sql.GroupBy) :
    groupExprs groupBy.plain = (groupExprs groupBy).map (List.map Sql.Expr.plain) := by
  cases groupBy <;> rfl

theorem select_plain (s : Sql.Select) : select c s.plain = select c s := by
  have hbind {α β γ : Type} (x : Except QueryError α) (f : α → β) (g : β → Except QueryError γ) :
      (x.map f >>= g) = x >>= fun a => g (f a) := by cases x <;> rfl
  simp only [select,Sql.Select.plain,fromClause_plain,filtered_plain,groupExprs_plain,targets_plain,
    hbind,targetNames_plain,aggregation_plain,List.isEmpty_map,Option.isSome_map,List.any_map,
    Function.comp_def,Target.hasAggregate_plain,List.mapM_map,Target.bind_plain]

mutual
theorem query_plain : (q : Sql.Query) → query c q.plain = query c q
  | .mk clauses b => by simp only [Sql.Query.plain,query,body_plain b]
theorem body_plain : (b : Sql.Body) → body c b.plain = body c b
  | .select s => select_plain s
  | .query q => query_plain q
  | .setOperation _ | .other _ => rfl
end

end Binding

/-- Binding never sees these clauses: it gives a query and the query without them the same plan or
the same error. -/
theorem Catalog.bind_plainQuery (c : Catalog) (q : Sql.Query) :
    c.bind q.plain = c.bind q ∧ q.plain.plain = q.plain :=
  ⟨Binding.query_plain q,q.plain_plain⟩

section
open Sql

private def idColumn : Sql.Expr := .identifier ⟨"id",none⟩

private def cityColumn : Sql.Expr := .identifier ⟨"city",none⟩

private def idAboveOne : Sql.Expr := .binary idColumn .gt (.value (.number "1" false))

/-- The select `SELECT id FROM customers`. -/
def customerIds : Select where
  distinct := none
  top := none
  items := [.expr idColumn none]
  into := none
  tables := [⟨.table [⟨"customers",none⟩] none none [] [],[]⟩]
  lateralViews := []
  selection := none
  groupBy := .exprs []
  clusterBy := []
  distributeBy := []
  sortBy := []
  having := none
  windows := []
  qualify := none

/-- Queries with one of the clauses each. -/
def clauseCarriers : List Select := [
  { customerIds with
    items := [.expr (.function [⟨"COUNT",none⟩] [.expr idColumn] (some idAboveOne) {}) none] },
  { customerIds with qualify := some idAboveOne },
  { customerIds with items := [.wildcard ["EXCEPT (id)"]] },
  { customerIds with
    selection := some (.like false cityColumn (.value (.string "a")) (some "b")) },
  { customerIds with lateralViews := ["LATERAL VIEW explode(id) t AS y"] },
  { customerIds with tables := [⟨.table [⟨"customers",none⟩] none (some ["1","2"]) [] [],[]⟩] }]

/-- Each of the clauses is dropped from some query that is planned, alone in a syntax tree and,
but for FILTER, together in a text. -/
theorem bind_clauseCarriers :
    (∀ s ∈ clauseCarriers, s.plain ≠ s ∧ (shop.bind (.mk {} (.select s))).isOk = true) ∧
    ∃ p, shop.bindText "SELECT * FROM customers WHERE city LIKE 'a'" = .ok p ∧
      shop.bindText ("SELECT * EXCEPT (id) FROM customers(1) LATERAL VIEW explode(id) t AS y " ++
        "WHERE city LIKE 'a' ESCAPE 'b' QUALIFY id > 1") = .ok p := by
  have hplain : ∀ s ∈ clauseCarriers, s.plain ≠ s := by
    simp [clauseCarriers,customerIds,Select.plain,SelectItem.plain,Sql.Expr.plain,plainArgs,
      TableWithJoins.plain,TableFactor.plain]
  have hplans : ∀ s ∈ clauseCarriers, (shop.bind (.mk {} (.select s))).isOk = true := by
    decide +kernel
  exact ⟨fun s hs => ⟨hplain s hs,hplans s hs⟩,.project (.filter (.scan customers)
    (.call .like [.column 1 .varchar,.literal (.string "a")] .boolean))
    [.column 0 .integer,.column 1 .varchar] ["id","city"],by decide +kernel,by decide +kernel⟩

end

end QueryPlan
