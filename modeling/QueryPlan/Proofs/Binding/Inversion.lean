import QueryPlan.Binding.Query
import QueryPlan.Proofs.Except

/-! # What the binder builds

What a plan is made of, and which steps led to it, for each function of the binder that ends in one. -/
namespace QueryPlan

namespace Sql

mutual
/-- The SELECT that a query comes down to, in whatever brackets. -/
def Query.select? : Query → Option Select
  | .mk _ b => b.select?
def Body.select? : Body → Option Select
  | .select s => some s
  | .query q => q.select?
  | .setOperation _ | .other _ => none
end

end Sql

namespace Scope

/-- A name is resolved if its relation is there and one column of it has that name. -/
theorem resolve_eq_ok_iff {s : Scope} {cs : Bool} {qualifier : Option String} {name : String}
    {e : Expr} : s.resolve cs qualifier name = .ok e ↔
      (∀ q, qualifier = some q → s.hasRelation cs q) ∧
      ∃ col i, s.places.filter (matchesName cs qualifier name ·.1) = [(col,i)] ∧ e = .column i col.type := by
  unfold resolve
  split
  · rename_i q hq
    obtain ⟨hsome,hmissing⟩ := Option.filter_eq_some_iff.1 hq
    refine iff_of_false nofun fun ⟨hrelation,_⟩ => ?_
    rw [hrelation q hsome] at hmissing
    cases hmissing
  · rename_i hnone
    have hrelation : ∀ q, qualifier = some q → s.hasRelation cs q := fun q hq => by
      simpa using Option.filter_eq_none_iff.1 hnone q hq
    dsimp only
    split
    · rename_i col i hplaces
      constructor
      · intro h
        cases h
        exact ⟨hrelation,col,i,hplaces,rfl⟩
      · rintro ⟨-,col',i',hplaces',rfl⟩
        cases hplaces.symm.trans hplaces'
        rfl
    · rename_i hplaces
      exact iff_of_false nofun fun ⟨_,_,_,h,_⟩ => nomatch hplaces.symm.trans h
    · rename_i hplaces
      exact iff_of_false nofun fun ⟨_,_,_,h,_⟩ => nomatch hplaces.symm.trans h

theorem beside_eq_ok {cs : Bool} {left right s : Scope} (h : left.beside cs right = .ok s) :
    (∀ relation ∈ right.relations, left.hasRelation cs relation = false) ∧
      s = ⟨left.columns ++ right.columns,left.relations ++ right.relations⟩ := by
  unfold beside at h
  split at h
  · cases h
  · rename_i hfind
    cases h
    exact ⟨fun relation hmem => by simpa using List.find?_eq_none.1 hfind relation hmem,rfl⟩

end Scope

namespace Binding

variable {c : Catalog} {bound bound' : Plan × Scope} {n : Names} {input p q : Plan}

/-! ## Tables -/

theorem table_eq_ok {factor : Sql.TableFactor} (h : table c factor = .ok bound) :
    ∃ t ∈ c.tables, ∃ relation, bound = (.scan t,.ofTable relation t) := by
  unfold table at h
  split at h
  · split at h
    · cases h
    · rename_i t hlookup
      have ht : t ∈ c.tables := List.mem_of_find?_eq_some hlookup
      split at h
      · cases h
        exact ⟨t,ht,_,rfl⟩
      · split at h
        · cases h
          exact ⟨t,ht,_,rfl⟩
        · cases h
  all_goals cases h

/-- A join has no condition, or that of its text. -/
theorem joinCondition_eq_ok {kind : JoinKind} {constrained : Bool} {constraint : Sql.JoinConstraint}
    {on : Expr} (h : joinCondition n kind constrained constraint = .ok on) :
    on = .true ∨ ∃ e, constraint = .on e ∧ condition n .on e = .ok on := by
  have hbare {x : QueryError} (h : (if kind = .inner then .ok .true else .error x) = Except.ok on) :
      on = .true := by
    split at h
    · exact (Except.ok.inj h).symm
    · cases h
  unfold joinCondition at h
  dsimp only at h
  split at h
  · exact .inl (hbare h)
  · split at h
    · exact .inl (hbare h)
    · rename_i e
      exact .inr ⟨e,rfl,h⟩
    · cases h
    · cases h

/-- A join puts one table to the right of what is bound, under a condition over the columns of both. -/
theorem join_eq_ok {j : Sql.Join} (h : join c bound j = .ok bound') :
    ∃ right s on kind constrained, table c j.factor = .ok right ∧
      bound.2.beside c.caseSensitive right.2 = .ok s ∧ joinKind j.form = .ok (kind,constrained) ∧
      joinCondition ⟨s,c.caseSensitive⟩ kind constrained j.constraint = .ok on ∧
      bound' = (.join bound.1 right.1 on kind,s) := by
  obtain ⟨right,hr,h⟩ := bind_eq_ok_iff.1 h
  obtain ⟨s,hs,h⟩ := bind_eq_ok_iff.1 h
  obtain ⟨⟨kind,constrained⟩,hkind,h⟩ := bind_eq_ok_iff.1 h
  obtain ⟨on,hon,h⟩ := bind_eq_ok_iff.1 h
  cases h
  exact ⟨right,s,on,kind,constrained,hr,hs,hkind,hon,rfl⟩

/-- A property of what FROM clauses come to: tables have it, and so has what is put side by side of
two parts that have it, under a condition over the columns of both or none. -/
structure ClosedUnderJoins (c : Catalog) (P : Plan × Scope → Prop) : Prop where
  table : ∀ factor b, Binding.table c factor = .ok b → P b
  beside : ∀ left right s on kind, P left → P right → left.2.beside c.caseSensitive right.2 = .ok s →
    (on = .true ∨ ∃ e, condition ⟨s,c.caseSensitive⟩ .on e = .ok on) →
    P (.join left.1 right.1 on kind,s)

section
variable {ts : List Sql.TableWithJoins}

theorem ClosedUnderJoins.tableWithJoins {P : Plan × Scope → Prop} (hP : ClosedUnderJoins c P)
    {t : Sql.TableWithJoins} (h : tableWithJoins c t = .ok bound) : P bound := by
  obtain ⟨first,hfirst,h⟩ := bind_eq_ok_iff.1 h
  refine foldlM_induction (fun b j b' hb hj => ?_) (hP.table _ _ hfirst) h
  obtain ⟨right,s,on,kind,constrained,hr,hs,-,hon,rfl⟩ := join_eq_ok hj
  refine hP.beside b right s on kind hb (hP.table _ _ hr) hs ?_
  exact (joinCondition_eq_ok hon).imp_right fun ⟨e,_,he⟩ => ⟨e,he⟩

theorem ClosedUnderJoins.fromClause {P : Plan × Scope → Prop} (hP : ClosedUnderJoins c P)
    (h : fromClause c ts = .ok bound) : P bound := by
  unfold Binding.fromClause at h
  split at h
  · cases h
  · obtain ⟨first,hfirst,h⟩ := bind_eq_ok_iff.1 h
    refine foldlM_induction (fun b t b' hb hstep => ?_) (hP.tableWithJoins hfirst) h
    obtain ⟨right,hr,hstep⟩ := bind_eq_ok_iff.1 hstep
    obtain ⟨s,hs,hstep⟩ := bind_eq_ok_iff.1 hstep
    cases hstep
    exact hP.beside b right s .true .inner hb (hP.tableWithJoins hr) hs (.inl rfl)

/-- What holds of the scans of tables and goes over to joins holds of a whole FROM clause. -/
theorem fromClause_induction {P : Plan → Prop} (hscan : ∀ t ∈ c.tables, P (.scan t))
    (hjoin : ∀ left right on kind, P left → P right → P (.join left right on kind))
    (h : fromClause c ts = .ok bound) : P bound.1 := by
  refine ClosedUnderJoins.fromClause (P := fun b => P b.1) ⟨fun factor b hb => ?_,?_⟩ h
  · obtain ⟨t,ht,_,rfl⟩ := table_eq_ok hb
    exact hscan t ht
  · exact fun left right _ on kind hl hr _ _ => hjoin left.1 right.1 on kind hl hr

/-- A FROM clause is one table alone, or it comes to a join. -/
theorem fromClause_eq_ok (h : fromClause c ts = .ok bound) :
    (∃ first, ts = [⟨first,[]⟩] ∧ table c first = .ok bound) ∨
      ∃ left right on kind, bound.1 = .join left right on kind := by
  unfold fromClause at h
  split at h
  · cases h
  · rename_i first rest
    obtain ⟨first,joins⟩ := first
    obtain ⟨left,hleft,h⟩ := bind_eq_ok_iff.1 h
    cases rest with
    | cons t rest =>
      refine .inr (foldlM_cons_spec (P := fun b => ∃ left right on kind, b.1 = .join left right on kind)
        (fun b t b' hstep => ?_) h)
      obtain ⟨right,-,hstep⟩ := bind_eq_ok_iff.1 hstep
      obtain ⟨s,-,hstep⟩ := bind_eq_ok_iff.1 hstep
      cases hstep
      exact ⟨_,_,_,_,rfl⟩
    | nil =>
      cases h
      obtain ⟨scanned,hscanned,h⟩ := bind_eq_ok_iff.1 hleft
      cases joins with
      | nil =>
        cases h
        exact .inl ⟨first,rfl,hscanned⟩
      | cons j joins =>
        refine .inr (foldlM_cons_spec
          (P := fun b => ∃ left right on kind, b.1 = .join left right on kind) (fun b j b' hj => ?_) h)
        obtain ⟨right,s,on,kind,-,-,-,-,-,rfl⟩ := join_eq_ok hj
        exact ⟨_,_,on,kind,rfl⟩

end

/-! ## Queries -/

theorem filtered_eq_ok {selection : Option Sql.Expr} (h : filtered n input selection = .ok p) :
    p = input ∨ ∃ e bound, selection = some e ∧ condition n .whereClause e = .ok bound ∧
      bound ≠ .true ∧ p = .filter input bound := by
  unfold filtered at h
  split at h
  · cases h
    exact .inl rfl
  · rename_i e
    obtain ⟨bound,hbound,h⟩ := bind_eq_ok_iff.1 h
    cases h
    split
    · exact .inl rfl
    · rename_i htrue
      exact .inr ⟨e,bound,rfl,hbound,by simpa [Expr.isTrue] using htrue,rfl⟩

theorem aggregation_eq_ok {groupBy : List Sql.Expr} {ts : List Target} {names : List String}
    {having : Option Sql.Expr} {es : List Expr}
    (h : aggregation n input groupBy ts names having = .ok (p,es)) :
    ∃ inputs keyCount calls, p = .aggregate (input.projectDerived inputs) (List.range keyCount) calls ∨
      ∃ e, p = .filter (.aggregate (input.projectDerived inputs) (List.range keyCount) calls) e := by
  obtain ⟨keys,-,h⟩ := bind_eq_ok_iff.1 h
  obtain ⟨⟨⟨es',condition⟩,g⟩,-,h⟩ := bind_eq_ok_iff.1 h
  cases condition with
  | none =>
    cases h
    exact ⟨_,_,_,.inl rfl⟩
  | some e =>
    cases h
    exact ⟨_,_,_,.inr ⟨e,rfl⟩⟩

theorem distinct_eq_ok {d : Option Sql.Distinct} (h : distinct p d = .ok q) :
    q = p ∨ q = .aggregate p (List.range p.width) [] := by
  unfold distinct at h
  split at h
  · cases h
    exact .inl rfl
  · cases h
    exact .inr rfl
  · cases h

/-- A SELECT comes to the rows of its tables that it asks for, or to groups of them, under the
projection of its columns. -/
theorem select_eq_ok {s : Sql.Select} (h : select c s = .ok p) :
    ∃ tables scope input ts plan es, fromClause c s.tables = .ok (tables,scope) ∧
      filtered ⟨scope,c.caseSensitive⟩ tables s.selection = .ok input ∧
      targets ⟨scope,c.caseSensitive⟩ s.items = .ok ts ∧
      (plan = input ∧ ts.mapM (Target.bind ⟨scope,c.caseSensitive⟩) = .ok es ∨
        ∃ groupBy, aggregation ⟨scope,c.caseSensitive⟩ input groupBy ts (targetNames ts) s.having
          = .ok (plan,es)) ∧
      distinct (.project plan es (targetNames ts)) s.distinct = .ok p := by
  unfold select at h
  dsimp only at h
  split at h
  · obtain ⟨_,ht,-⟩ := bind_eq_ok_iff.1 h
    cases ht
  split at h
  · obtain ⟨_,ht,-⟩ := bind_eq_ok_iff.1 h
    cases ht
  obtain ⟨⟨tables,scope⟩,htables,h⟩ := bind_eq_ok_iff.1 h
  obtain ⟨input,hinput,h⟩ := bind_eq_ok_iff.1 h
  obtain ⟨groupBy,-,h⟩ := bind_eq_ok_iff.1 h
  obtain ⟨ts,hts,h⟩ := bind_eq_ok_iff.1 h
  split at h
  · obtain ⟨⟨plan,es⟩,hagg,h⟩ := bind_eq_ok_iff.1 h
    exact ⟨tables,scope,input,ts,plan,es,htables,hinput,hts,.inr ⟨groupBy,hagg⟩,h⟩
  · obtain ⟨es,hes,h⟩ := bind_eq_ok_iff.1 h
    exact ⟨tables,scope,input,ts,input,es,htables,hinput,hts,.inl ⟨rfl,hes⟩,h⟩

mutual
/-- A query that is bound is bound as its SELECT is. -/
theorem select_of_query : {q : Sql.Query} → query c q = .ok p →
    ∃ s, q.select? = some s ∧ select c s = .ok p
  | .mk _ _,h => by
    obtain ⟨_,-,h⟩ := bind_eq_ok_iff.1 h
    exact select_of_body h
theorem select_of_body : {b : Sql.Body} → body c b = .ok p →
    ∃ s, b.select? = some s ∧ select c s = .ok p
  | .select s,h => ⟨s,rfl,h⟩
  | .query _,h => select_of_query h
  | .setOperation _,h => nomatch h
  | .other _,h => nomatch h
end

end Binding
end QueryPlan
