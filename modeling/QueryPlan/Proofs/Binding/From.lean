import QueryPlan.Proofs.Binding.Expr
import QueryPlan.Proofs.Binding.Inversion

/-! # FROM clauses are bound well -/
namespace QueryPlan

namespace Plan

/-- What can be said of every operator of a bound plan. -/
structure BoundAt (p : Plan) : Prop where
  columns : p.ColumnsFit
  names : p.NamesFit
  calls : p.CallsTyped
  condition : p.ConditionFits
  flat : ∀ e ∈ p.exprs, e.Everywhere Expr.ConnectiveFlat

/-- A plan all of whose operators are bound well. -/
def Bound (p : Plan) : Prop := p.Everywhere BoundAt

variable {input left right : Plan} {condition : Expr} {es : List Expr} {ns : List String}
  {kind : JoinKind} {groups : List Nat} {calls : List AggregateCall}

theorem Bound.wellPlaced {p : Plan} (h : p.Bound) : p.WellPlaced :=
  ⟨fun n hn => (h n hn).columns,fun n hn => (h n hn).names⟩

theorem Bound.scan (t : Table) : (scan t).Bound :=
  everywhere_scan.2 ⟨columnsFit_scan,trivial,by simp [CallsTyped,exprs],trivial,by simp [exprs]⟩

theorem Bound.filter (hi : input.Bound) (hc : condition.Bound input.types)
    (hb : condition.type.isBooleanLike) : (filter input condition).Bound :=
  everywhere_filter.2 ⟨⟨columnsFit_filter.2 hc.fits,trivial,by simpa [CallsTyped,exprs] using hc.typed,
    hb,by simpa [exprs] using hc.flat⟩,hi⟩

theorem Bound.project (hi : input.Bound) (he : ∀ e ∈ es, e.Bound input.types)
    (hn : es.length = ns.length) : (project input es ns).Bound :=
  everywhere_project.2 ⟨⟨columnsFit_project.2 fun e h => (he e h).fits,hn,fun e h => (he e h).typed,
    trivial,fun e h => (he e h).flat⟩,hi⟩

theorem Bound.join (hl : left.Bound) (hr : right.Bound)
    (hc : condition.Bound (left.types ++ right.types)) (hb : condition.type.isBooleanLike) :
    (join left right condition kind).Bound :=
  everywhere_join.2 ⟨⟨columnsFit_join.2 hc.fits,trivial,by simpa [CallsTyped,exprs] using hc.typed,
    hb,by simpa [exprs] using hc.flat⟩,hl,hr⟩

theorem Bound.aggregate (hi : input.Bound) (hg : ∀ g ∈ groups, g < input.width)
    (hc : ∀ c ∈ calls, c.Fits input.types) : (aggregate input groups calls).Bound :=
  everywhere_aggregate.2 ⟨⟨columnsFit_aggregate.2 ⟨hg,hc⟩,trivial,by simp [CallsTyped,exprs],trivial,
    by simp [exprs]⟩,hi⟩

end Plan

namespace Scope

/-- The types of the columns in scope, by position. -/
def types (s : Scope) : List SqlType := s.columns.map ScopeColumn.type

theorem getElem?_types_of_mem_places {s : Scope} {c : ScopeColumn} {i : Nat}
    (h : (c,i) ∈ s.places) : s.types[i]? = some c.type := by
  rw [types,List.getElem?_map,List.mem_zipIdx_iff_getElem?.1 h]
  rfl

/-- A name that means a column means one of the scope, with its type. -/
theorem resolve_bound {s : Scope} {caseSensitive : Bool} {qualifier : Option String} {name : String}
    {e : Expr} (h : s.resolve caseSensitive qualifier name = .ok e) : e.Bound s.types := by
  obtain ⟨-,col,i,hplaces,rfl⟩ := resolve_eq_ok_iff.1 h
  have hmem : (col,i) ∈ s.places.filter (matchesName caseSensitive qualifier name ·.1) := by
    rw [hplaces]
    exact List.mem_singleton_self _
  exact .column (getElem?_types_of_mem_places (List.mem_filter.1 hmem).1)

theorem types_ofTable (relation : String) (t : Table) :
    (ofTable relation t).types = (Plan.scan t).types := by
  simp [types,ofTable,Plan.types]

theorem types_beside {caseSensitive : Bool} {left right s : Scope}
    (h : left.beside caseSensitive right = .ok s) : s.types = left.types ++ right.types := by
  obtain ⟨-,rfl⟩ := beside_eq_ok h
  exact List.map_append

end Scope

namespace Binding

/-- A bound plan with the scope of its columns. -/
def InScope (bound : Plan × Scope) : Prop := bound.1.Bound ∧ bound.2.types = bound.1.types

variable {c : Catalog} {bound bound' : Plan × Scope}

theorem names_bound {n : Names} {qualifier : Option String} {name : String} {e : Expr}
    (h : n.resolve qualifier name = .ok e) : e.Bound n.scope.types := Scope.resolve_bound h

theorem table_inScope {t : Sql.TableFactor} (h : table c t = .ok bound) : InScope bound := by
  obtain ⟨t,-,relation,rfl⟩ := table_eq_ok h
  exact ⟨.scan t,Scope.types_ofTable relation t⟩

/-- Rows side by side keep their columns in place. -/
theorem beside_inScope {left right : Plan × Scope} {s : Scope} {on : Expr} {kind : JoinKind}
    (hl : InScope left) (hr : InScope right) (hs : left.2.beside c.caseSensitive right.2 = .ok s)
    (hon : on.Bound s.types ∧ on.type.isBooleanLike) : InScope (.join left.1 right.1 on kind,s) := by
  have htypes : s.types = left.1.types ++ right.1.types := by
    rw [Scope.types_beside hs,hl.2,hr.2]
  exact ⟨.join hl.1 hr.1 (htypes ▸ hon.1) hon.2,htypes⟩

theorem inScope_closedUnderJoins (c : Catalog) : ClosedUnderJoins c InScope where
  table _ _ := table_inScope
  beside left right s on kind hl hr hs hon := by
    refine beside_inScope hl hr hs ?_
    obtain rfl|⟨e,he⟩ := hon
    · exact ⟨.literal _,rfl⟩
    · exact condition_bound (fun _ _ _ => names_bound) he

theorem fromClause_inScope {ts : List Sql.TableWithJoins} (h : fromClause c ts = .ok bound) :
    InScope bound := (inScope_closedUnderJoins c).fromClause h

end Binding
end QueryPlan
