import QueryPlan.Proofs.Binding.Inversion
import QueryPlan.Proofs.Rewrite.Layers

/-! # The layers of bound plans

A query is bound to tables and their joins, a filter on top of these, an aggregate of a projection
with a filter of groups, and the projection of the select list, each of them only below the next. -/
namespace QueryPlan.Binding
open Plan

/-- Tables and their joins, without any filter. -/
def Joined (p : Plan) : Prop := p.Everywhere Unrewritten ∧ p.face.IsSource

/-- A plan that a projection may be put on. -/
def Stacked (p : Plan) : Prop := p.Everywhere Unrewritten ∧ p.face ≠ .project

variable {c : Catalog} {bound : Plan × Scope} {n : Names} {input p : Plan}

theorem Joined.join {left right : Plan} {on : Expr} {kind : JoinKind} (hl : Joined left)
    (hr : Joined right) : Joined (.join left right on kind) :=
  ⟨everywhere_join.2 ⟨⟨trivial,hl.2,hr.2⟩,hl.1,hr.1⟩,.join _ _ _ _⟩

theorem Joined.stacked (h : Joined p) : Stacked p := ⟨h.1,h.2.ne_project⟩

theorem Stacked.project {es : List Expr} {ns : List String} (h : Stacked p) :
    (project p es ns).Everywhere Unrewritten :=
  everywhere_project.2 ⟨⟨h.2,trivial⟩,h.1⟩

theorem fromClause_joined {ts : List Sql.TableWithJoins} (h : fromClause c ts = .ok bound) :
    Joined bound.1 :=
  fromClause_induction (P := Joined) (fun _ _ => ⟨everywhere_scan.2 ⟨trivial,trivial⟩,.scan⟩)
    (fun _ _ _ _ hl hr => hl.join hr) h

theorem filtered_stacked {selection : Option Sql.Expr} (hi : Joined input)
    (h : filtered n input selection = .ok p) : Stacked p := by
  obtain rfl|⟨_,e,-,-,-,rfl⟩ := filtered_eq_ok h
  · exact hi.stacked
  · have hroot : (filter input e).Unrewritten := ⟨⟨hi.2.ne_project,hi.2.ne_filter⟩,trivial⟩
    exact ⟨everywhere_filter.2 ⟨hroot,hi.1⟩,by simp [face]⟩

theorem aggregation_stacked {groupBy : List Sql.Expr} {ts : List Target} {names : List String}
    {having : Option Sql.Expr} {es : List Expr} (hi : Stacked input)
    (h : aggregation n input groupBy ts names having = .ok (p,es)) : Stacked p := by
  obtain ⟨inputs,keyCount,calls,hp⟩ := aggregation_eq_ok h
  have hgroups : (aggregate (input.projectDerived inputs) (List.range keyCount) calls).Everywhere Unrewritten :=
    everywhere_aggregate.2 ⟨⟨trivial,trivial⟩,hi.project⟩
  obtain rfl|⟨e,rfl⟩ := hp
  · exact ⟨hgroups,by simp [face]⟩
  · refine ⟨everywhere_filter.2 ⟨⟨?_,trivial⟩,hgroups⟩,by simp [face]⟩
    simp [Layered,face]

theorem distinct_unrewritten {d : Option Sql.Distinct} {q : Plan} (hp : p.Everywhere Unrewritten)
    (h : distinct p d = .ok q) : q.Everywhere Unrewritten := by
  obtain rfl|rfl := distinct_eq_ok h
  · exact hp
  · exact everywhere_aggregate.2 ⟨⟨trivial,trivial⟩,hp⟩

theorem select_unrewritten {s : Sql.Select} (h : select c s = .ok p) : p.Everywhere Unrewritten := by
  obtain ⟨tables,scope,input,ts,plan,es,htables,hinput,-,hplan,hp⟩ := select_eq_ok h
  have hi : Stacked input := filtered_stacked (fromClause_joined htables) hinput
  refine distinct_unrewritten (Stacked.project ?_) hp
  obtain ⟨rfl,-⟩|⟨_,hagg⟩ := hplan
  · exact hi
  · exact aggregation_stacked hi hagg

theorem query_unrewritten {q : Sql.Query} (h : query c q = .ok p) : p.Everywhere Unrewritten := by
  obtain ⟨s,-,hs⟩ := select_of_query h
  exact select_unrewritten hs

end QueryPlan.Binding
