import QueryPlan.Proofs.Binding.Layers
import QueryPlan.Proofs.Binding.Query
import QueryPlan.Proofs.Catalog.Types
import QueryPlan.Proofs.Rewrite.BareFilters

/-! # Conditions of bound plans

Where no column has the type of a condition, what a query filters and joins by are calls and
constants. A bare filter is then one of a single table by FALSE or NULL. -/
namespace QueryPlan
open Plan

/-- A condition over columns none of which has the type of one. -/
theorem Expr.tests_of_condition {types : List SqlType} {e : Expr} (hc : Condition e)
    (hfits : e.Fits types) (htypes : ∀ t ∈ types, ¬ t.isBooleanLike) : e.Tests := fun _ _ hi =>
  htypes _ (List.mem_of_getElem? (fits_column.1 (Everywhere.conjuncts hfits _ hi))) (hc.conjuncts _ hi).2

theorem Expr.eq_literal_of_not_isCall {e : Expr} (h : ¬ e.isCall) (htests : e.Tests) :
    ∃ v, e = .literal v := by
  cases e with
  | column i t => exact absurd (List.mem_singleton_self _) (htests i t)
  | literal v => exact ⟨v,rfl⟩
  | call op args t => exact absurd rfl h

theorem Literal.eq_of_isBooleanLike {v : Literal} (h : v.type.isBooleanLike) (htrue : v ≠ .boolean true) :
    v = .boolean false ∨ v = .null := by
  cases v with
  | boolean b => cases b <;> simp_all
  | null => exact .inr rfl
  | integer n =>
    rw [type] at h
    split at h <;> cases h
  | _ => cases h

theorem Plan.not_bare_of_source {p : Plan} (h : p.face.IsSource) : ¬ p.Bare := by
  cases p with
  | filter input c => cases h
  | project input es ns =>
    rw [face] at h
    split at h <;> cases h
  | _ => exact id

namespace Binding

variable {c : Catalog} {bound : Plan × Scope} {n : Names} {tables input p : Plan} {scope : Scope}
  {s : Sql.Select}

/-! ## Conditions are firm -/

/-- Tables and their joins, none of whose columns has the type of a condition. -/
structure Columnar (p : Plan) : Prop where
  source : p.face.IsSource
  firm : p.Everywhere Firm
  stuck : ¬ p.Stuck
  types : ∀ t ∈ p.types, ¬ t.isBooleanLike

theorem fromClause_columnar (hc : c.BooleanFree) {ts : List Sql.TableWithJoins}
    (h : fromClause c ts = .ok bound) : Columnar bound.1 := by
  refine fromClause_induction (P := fun p => p.Bound → Columnar p) (fun t ht _ => ?_)
    (fun left right on kind hl hr hb => ?_) h (fromClause_inScope h).1
  · refine ⟨.scan,everywhere_scan.2 trivial,id,List.forall_mem_map.2 fun column hcolumn => ?_⟩
    obtain ⟨hboolean,hnull⟩ := hc t ht column hcolumn
    unfold SqlType.isBooleanLike
    split <;> simp_all
  · obtain ⟨hroot,hleft,hright⟩ := everywhere_join.1 hb
    have hl := hl hleft
    have hr := hr hright
    have htypes : ∀ t ∈ left.types ++ right.types, ¬ t.isBooleanLike :=
      List.forall_mem_append.2 ⟨hl.types,hr.types⟩
    have hon : on.Tests := Expr.tests_of_condition ⟨hroot.calls on (by simp [exprs]),hroot.condition⟩
      (columnsFit_join.1 hroot.columns) htypes
    exact ⟨.join _ _ _ _,everywhere_join.2 ⟨⟨hon,not_bare_of_source hl.source,
      not_bare_of_source hr.source⟩,hl.firm,hr.firm⟩,not_or.2 ⟨hl.stuck,hr.stuck⟩,htypes⟩

theorem condition_tests {e : Sql.Expr} {b : Expr} {clause : Clause} (ht : Columnar tables)
    (hscope : n.scope.types = tables.types) (h : condition n clause e = .ok b) : b.Tests := by
  obtain ⟨hbound,hb⟩ := condition_bound (fun _ _ _ => names_bound) h
  exact Expr.tests_of_condition ⟨hbound.typed,hb⟩ (hscope ▸ hbound.fits) ht.types

theorem filtered_firm {selection : Option Sql.Expr} (ht : Columnar tables)
    (hscope : n.scope.types = tables.types) (h : filtered n tables selection = .ok p) :
    p.Everywhere Firm ∧ ¬ p.Stuck := by
  obtain rfl|⟨_,e,-,he,-,rfl⟩ := filtered_eq_ok h
  · exact ⟨ht.firm,ht.stuck⟩
  · exact ⟨everywhere_filter.2 ⟨.inl (condition_tests ht hscope he),ht.firm⟩,ht.stuck⟩

theorem aggregation_firm {groupBy : List Sql.Expr} {ts : List Target} {names : List String}
    {having : Option Sql.Expr} {es : List Expr} (hi : input.Everywhere Firm)
    (h : aggregation n input groupBy ts names having = .ok (p,es)) : p.Everywhere Firm := by
  obtain ⟨inputs,keyCount,calls,hp⟩ := aggregation_eq_ok h
  have hgroups : (aggregate (input.projectDerived inputs) (List.range keyCount) calls).Everywhere Firm :=
    everywhere_aggregate.2 ⟨trivial,everywhere_project.2 ⟨trivial,hi⟩⟩
  obtain rfl|⟨e,rfl⟩ := hp
  · exact hgroups
  · exact everywhere_filter.2 ⟨.inr trivial,hgroups⟩

theorem select_firm (hc : c.BooleanFree) (h : select c s = .ok p) : p.Everywhere Firm := by
  obtain ⟨tables,scope,input,ts,plan,es,htables,hinput,-,hplan,hp⟩ := select_eq_ok h
  have hi := (filtered_firm (fromClause_columnar hc htables) (fromClause_inScope htables).2 hinput).1
  have htop : (project plan es (targetNames ts)).Everywhere Firm := by
    refine everywhere_project.2 ⟨trivial,?_⟩
    obtain ⟨rfl,-⟩|⟨_,hagg⟩ := hplan
    · exact hi
    · exact aggregation_firm hi hagg
  obtain rfl|rfl := distinct_eq_ok hp
  · exact htop
  · exact everywhere_aggregate.2 ⟨trivial,htop⟩

/-! ## Bare filters -/

/-- Somewhere in a plan a projection that does something stands on an input. -/
def ProjectedFrom (input p : Plan) : Prop :=
  ∃ es ns, project input es ns ∈ p.operators ∧ ¬ Expr.isIdentity es input.width

theorem ProjectedFrom.mono {q : Plan} (h : ProjectedFrom input p) (hpq : p.operators ⊆ q.operators) :
    ProjectedFrom input q := by
  obtain ⟨es,ns,hmem,hid⟩ := h
  exact ⟨es,ns,hpq hmem,hid⟩

theorem projectedFrom_of_stuck {es : List Expr} {ns : List String} (hi : ¬ input.Stuck)
    (h : (project input es ns).Stuck) : input.Bare ∧ ProjectedFrom input (project input es ns) := by
  obtain ⟨hid,hbare⟩ := h.resolve_right hi
  exact ⟨hbare,es,ns,List.mem_cons_self,hid⟩

/-- Groups are never bare, filtered or not; if their plan is stuck, their input is bare. -/
theorem aggregation_stuck {groupBy : List Sql.Expr} {ts : List Target} {names : List String}
    {having : Option Sql.Expr} {es : List Expr} (hi : ¬ input.Stuck)
    (h : aggregation n input groupBy ts names having = .ok (p,es)) :
    ¬ p.Bare ∧ (p.Stuck → input.Bare ∧ ProjectedFrom input p) := by
  obtain ⟨inputs,keyCount,calls,rfl|⟨e,rfl⟩⟩ := aggregation_eq_ok h
  · refine ⟨id,fun hstuck => ?_⟩
    obtain ⟨hbare,hprojected⟩ := projectedFrom_of_stuck hi hstuck
    exact ⟨hbare,hprojected.mono (List.subset_cons_self _ _)⟩
  · refine ⟨fun hbare => hbare.2,fun hstuck => ?_⟩
    obtain ⟨hbare,hprojected⟩ := projectedFrom_of_stuck hi hstuck
    exact ⟨hbare,(hprojected.mono (List.subset_cons_self _ _)).mono (List.subset_cons_self _ _)⟩

/-- If the plan of a SELECT is stuck, the rows that it takes are bare. -/
theorem select_stuck (hc : c.BooleanFree) (h : select c s = .ok p) (hstuck : p.Stuck) :
    ∃ tables scope input, fromClause c s.tables = .ok (tables,scope) ∧
      filtered ⟨scope,c.caseSensitive⟩ tables s.selection = .ok input ∧ input.Bare ∧
      ProjectedFrom input p := by
  obtain ⟨tables,scope,input,ts,plan,es,htables,hinput,-,hplan,hp⟩ := select_eq_ok h
  refine ⟨tables,scope,input,htables,hinput,?_⟩
  have hi := (filtered_firm (fromClause_columnar hc htables) (fromClause_inScope htables).2 hinput).2
  have htop (hstuck : (project plan es (targetNames ts)).Stuck) :
      input.Bare ∧ ProjectedFrom input (project plan es (targetNames ts)) := by
    obtain ⟨rfl,-⟩|⟨_,hagg⟩ := hplan
    · exact projectedFrom_of_stuck hi hstuck
    · obtain ⟨hgroups,hprojected⟩ := aggregation_stuck hi hagg
      obtain ⟨hbare,hprojected⟩ := hprojected (hstuck.resolve_left fun h => hgroups h.2)
      exact ⟨hbare,hprojected.mono (List.subset_cons_self _ _)⟩
  obtain rfl|rfl := distinct_eq_ok hp
  · exact htop hstuck
  · obtain ⟨hbare,hprojected⟩ := htop hstuck
    exact ⟨hbare,hprojected.mono (List.subset_cons_self _ _)⟩

/-- A SELECT from one table whose WHERE clause comes to a constant. -/
def ConstantWhere (c : Catalog) (s : Sql.Select) (t : Table) (v : Literal) : Prop :=
  ∃ first scope e, s.tables = [⟨first,[]⟩] ∧ table c first = .ok (.scan t,scope) ∧
    s.selection = some e ∧ condition ⟨scope,c.caseSensitive⟩ .whereClause e = .ok (.literal v)

theorem constantWhere_of_bare (hc : c.BooleanFree) (htables : fromClause c s.tables = .ok (tables,scope))
    (hinput : filtered ⟨scope,c.caseSensitive⟩ tables s.selection = .ok input) (hbare : input.Bare) :
    ∃ t v, ConstantWhere c s t v ∧ (v = .boolean false ∨ v = .null) ∧
      input = .filter (.scan t) (.literal v) := by
  have hcolumnar := fromClause_columnar hc htables
  obtain rfl|⟨e,b,he,hb,htrue,rfl⟩ := filtered_eq_ok hinput
  · exact absurd hbare (not_bare_of_source hcolumnar.source)
  · obtain ⟨hcall,hwhole⟩ := hbare
    obtain ⟨v,rfl⟩ := Expr.eq_literal_of_not_isCall hcall
      (condition_tests hcolumnar (fromClause_inScope htables).2 hb)
    have hv := Literal.eq_of_isBooleanLike (condition_bound (fun _ _ _ => names_bound) hb).2
      (by rintro rfl; exact htrue rfl)
    obtain ⟨first,hfirst,hscan⟩|⟨left,right,on,kind,rfl⟩ := fromClause_eq_ok htables
    · obtain ⟨t,-,relation,heq⟩ := table_eq_ok hscan
      cases heq
      exact ⟨t,v,⟨first,_,e,hfirst,hscan,he,hb⟩,hv,rfl⟩
    · exact hwhole.elim

end Binding
end QueryPlan
