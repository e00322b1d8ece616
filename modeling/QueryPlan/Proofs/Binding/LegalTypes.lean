import QueryPlan.Proofs.Binding.Building
import QueryPlan.Proofs.Binding.Inherited
import QueryPlan.Proofs.Relation.LegalTypes

/-! # Bound plans have legal types

The types of literals, casts and operators are legal, and so are those of the columns in scope; the
rest is inherited. -/
namespace QueryPlan.Binding

/-! ## Expressions -/

theorem inherited_legal : Inherited Expr.Legal where
  value {v e} h := by
    unfold Binding.value at h
    split at h
    · obtain ⟨w,hw,h⟩ := bind_eq_ok_iff.1 h
      cases h
      exact Expr.legal_literal.2 (Literal.ofNumber_legal hw)
    · cases h
      exact Expr.legal_literal.2 trivial
    · cases h
      exact Expr.legal_literal.2 trivial
    · cases h
      exact Expr.legal_literal.2 trivial
    · cases h
  typedString {t s e} h := by
    unfold Binding.typedString at h
    split at h
    · split at h
      · cases h
        exact Expr.legal_literal.2 trivial
      · cases h
    · cases h
  negate hv h := Expr.legal_literal.2 (Literal.negate?_legal (Expr.legal_literal.1 hv) h)
  ofCall := Expr.Legal.ofCall
  cast he h := he.cast (Sql.DataType.target_legal h)

/-- The columns in scope have legal types. -/
def Names.Legal (n : Names) : Prop := ∀ t ∈ n.scope.types, t.Legal

variable {n : Names} {clause : Clause} {keys : List Expr} {g g' : Gathered} {e : Expr}

theorem Names.Legal.resolve (hn : n.Legal) (qualifier : Option String) (name : String) (c : Expr)
    (h : n.resolve qualifier name = .ok c) : c.Legal := by
  obtain ⟨i,t,rfl⟩ := Scope.eq_column_of_resolve h
  exact Expr.legal_column.2 (hn t (List.mem_of_getElem? (Expr.fits_column.1 (names_bound h).fits)))

theorem expr_legal {sql : Sql.Expr} (hn : n.Legal) (h : expr n clause sql = .ok e) : e.Legal := by
  have h : plainEnds.To () (expr n clause sql) () e := h
  refine (inherited_legal.exprWith (I := fun _ => True) hn.resolve
    (fun _ _ _ r _ hr => ⟨trivial,fun a ha => ?_⟩) trivial h).2
  cases hr
  cases ha

theorem condition_legal {sql : Sql.Expr} (hn : n.Legal) (h : condition n clause sql = .ok e) :
    e.Legal := by
  obtain ⟨b,hb,h⟩ := bind_eq_ok_iff.1 h
  obtain ⟨_,-,h⟩ := bind_eq_ok_iff.1 h
  cases h
  exact expr_legal hn hb

/-! ## Groups -/

/-- What the aggregate reads and computes has legal types. -/
structure Gathered.Legal (g : Gathered) : Prop where
  inputs : ∀ e ∈ g.inputs, e.Legal
  calls : ∀ c ∈ g.calls, c.type.Legal

theorem inputOf_legal {i : Nat} (he : e.Legal) (hg : g.Legal) (h : gatheringEnds.To g (inputOf e) g' i) :
    g'.Legal := by
  obtain ⟨-,rfl|⟨-,rfl⟩⟩ := inputOf_eq_ok h
  · exact hg
  · exact ⟨List.forall_mem_append.2 ⟨hg.inputs,by simpa using he⟩,hg.calls⟩

theorem aggregateCall_legal {args : List Sql.FunctionArg} {tail : Sql.CallTail} {f : AggregateFunction}
    {keyCount : Nat} (hn : n.Legal) (hg : g.Legal)
    (h : gatheringEnds.To g (aggregateCall n keyCount f args tail) g' e) : g'.Legal ∧ e.Legal := by
  obtain ⟨arg,inputs,g₁,k,harg,-,hsome,hnone,hk,rfl⟩ := aggregateCall_to h
  have hinput : ∀ input, arg = some input → input.Legal := by
    rintro input rfl
    obtain ⟨sql,_,-,hsql,heq⟩|⟨heq,-⟩ := aggregateArgument_ok harg
    · cases heq
      exact expr_legal hn hsql
    · cases heq
  have htype : (f.resultType (arg.map Expr.type)).Legal := by
    refine AggregateFunction.legal_resultType fun s hs => ?_
    obtain ⟨input,hsome,rfl⟩ := Option.map_eq_some_iff.1 hs
    exact (hinput input hsome).type
  have hg₁ : g₁.Legal := by
    cases harg' : arg with
    | none =>
      obtain ⟨rfl,-⟩ := hnone harg'
      exact hg
    | some input =>
      obtain ⟨i,hi,-⟩ := hsome input harg'
      exact inputOf_legal (hinput input harg') hg hi
  obtain ⟨hinputs,hcalls⟩ := callOf_asked hk
  refine ⟨⟨hinputs ▸ hg₁.inputs,fun d hd => ?_⟩,Expr.legal_column.2 htype⟩
  obtain hd|⟨-,hd⟩ := hcalls d hd
  · exact hg₁.calls d hd
  · exact hd ▸ htype

theorem groupedWhole_legal {sql : Sql.Expr} {r : Option Expr} (hn : n.Legal) (hg : g.Legal)
    (h : gatheringEnds.To g (groupedWhole n keys clause sql) g' r) :
    g'.Legal ∧ ∀ a, r = some a → a.Legal := by
  cases hagg : sql.hasAggregate with
  | false =>
    obtain ⟨p,hp,rfl,hr⟩ := (to_groupedWhole hagg).1 h
    have hp := expr_legal hn hp
    refine ⟨hg,fun a ha => ?_⟩
    subst ha
    split at hr
    · cases hr
      exact Expr.legal_column.2 hp.type
    · split at hr
      · cases hr
        exact hp
      · cases hr.2
  | true =>
    cases hf : sql.aggregate? with
    | none =>
      simp only [groupedWhole,hf,hagg,if_true] at h
      obtain ⟨rfl,rfl⟩ := gatheringEnds.pure.1 h
      refine ⟨hg,fun a ha => ?_⟩
      cases ha
    | some f =>
      cases sql with
      | function name args filter tail =>
        simp only [groupedWhole,hf] at h
        obtain ⟨g₁,b,hcall,hpure⟩ := gatheringEnds.bind.1 h
        obtain ⟨rfl,rfl⟩ := gatheringEnds.pure.1 hpure
        obtain ⟨hg₁,hb⟩ := aggregateCall_legal hn hg hcall
        exact ⟨hg₁,fun a ha => Option.some.inj ha ▸ hb⟩
      | _ => cases hf

theorem groupedExpr_legal {sql : Sql.Expr} (hn : n.Legal) (hg : g.Legal)
    (h : gatheringEnds.To g (groupedExpr n keys clause sql) g' e) : g'.Legal ∧ e.Legal :=
  inherited_legal.exprWith hn.resolve (fun _ _ _ _ hg h => groupedWhole_legal hn hg h) hg h

theorem bindGrouped_legal {t : Target} (hn : n.Legal) (hkeys : ∀ k ∈ keys, k.Legal) (hg : g.Legal)
    (h : gatheringEnds.To g (t.bindGrouped n keys) g' e) : g'.Legal ∧ e.Legal := by
  cases t with
  | expr sql label => exact groupedExpr_legal hn hg h
  | column i c =>
    obtain ⟨rfl,hcolumn⟩ := gatheringEnds.lift.1 h
    refine ⟨hg,?_⟩
    unfold groupedColumn at hcolumn
    split at hcolumn
    · rename_i k hk
      cases hcolumn
      have hmem : Expr.column i c.type ∈ keys := by
        by_contra hmem
        rw [List.idxOf?_eq_none_iff.2 hmem] at hk
        cases hk
      exact Expr.legal_column.2 (hkeys _ hmem).type
    · cases hcolumn

/-- The output columns, the condition and what the aggregate of a grouped query needs. -/
theorem gather_legal {ts : List Target} {having : Option Sql.Expr} {es : List Expr}
    {condition : Option Expr} (hn : n.Legal) (hkeys : ∀ k ∈ keys, k.Legal)
    (h : gather n keys ts having = .ok ((es,condition),g)) :
    g.Legal ∧ (∀ e ∈ es, e.Legal) ∧ ∀ e, condition = some e → e.Legal := by
  obtain ⟨g₁,hes,hcondition⟩ := gather_to h
  obtain ⟨hg₁,hall⟩ := (each_of_mapM hes).all (I := Gathered.Legal) (Q := Expr.Legal)
    (fun _ _ _ _ _ => bindGrouped_legal hn hkeys) ⟨hkeys,by simp⟩
  obtain ⟨-,rfl,rfl⟩|⟨sql,b,-,rfl,hb⟩ := hcondition
  · exact ⟨hg₁,hall,nofun⟩
  · obtain ⟨hg,hb⟩ := groupedExpr_legal hn hg₁ hb
    exact ⟨hg,hall,fun e he => Option.some.inj he ▸ hb⟩

theorem groupKeys_legal {ks : List Sql.Expr} (hn : n.Legal) (h : groupKeys n ks = .ok keys) :
    ∀ k ∈ keys, k.Legal :=
  groupKeys_induction (fun _ _ => expr_legal hn) h

/-! ## Plans -/

section
variable {c : Catalog} {bound bound' : Plan × Scope} {input p q : Plan} {es : List Expr}

/-- A plan with legal types, whose columns are in scope with legal types. -/
def LegalInScope (bound : Plan × Scope) : Prop := bound.1.Legal ∧ ∀ t ∈ bound.2.types, t.Legal

theorem table_legal (hc : c.Legal) {factor : Sql.TableFactor} (h : table c factor = .ok bound) :
    LegalInScope bound := by
  obtain ⟨t,ht,relation,rfl⟩ := table_eq_ok h
  refine ⟨Plan.everywhere_scan.2 (hc t ht),?_⟩
  rw [Scope.types_ofTable]
  exact List.forall_mem_map.2 (hc t ht)

theorem LegalInScope.beside {left right : Plan × Scope} {s : Scope} {on : Expr} {kind : JoinKind}
    (hl : LegalInScope left) (hr : LegalInScope right)
    (hs : left.2.beside c.caseSensitive right.2 = .ok s)
    (hon : Names.Legal ⟨s,c.caseSensitive⟩ → on.Legal) :
    LegalInScope (.join left.1 right.1 on kind,s) := by
  have htypes : ∀ t ∈ s.types, t.Legal := by
    rw [Scope.types_beside hs]
    exact List.forall_mem_append.2 ⟨hl.2,hr.2⟩
  exact ⟨Plan.everywhere_join.2 ⟨hon htypes,hl.1,hr.1⟩,htypes⟩

theorem legal_closedUnderJoins (hc : c.Legal) : ClosedUnderJoins c LegalInScope where
  table _ _ := table_legal hc
  beside left right s on kind hl hr hs hon := by
    refine hl.beside hr hs fun hn => ?_
    obtain rfl|⟨e,he⟩ := hon
    · exact Expr.legal_true
    · exact condition_legal hn he

theorem fromClause_legal (hc : c.Legal) {ts : List Sql.TableWithJoins}
    (h : fromClause c ts = .ok bound) : LegalInScope bound := (legal_closedUnderJoins hc).fromClause h

theorem filtered_legal {selection : Option Sql.Expr} (hn : n.Legal) (hi : input.Legal)
    (h : filtered n input selection = .ok p) : p.Legal := by
  obtain rfl|⟨_,b,-,hb,-,rfl⟩ := filtered_eq_ok h
  · exact hi
  · exact Plan.everywhere_filter.2 ⟨condition_legal hn hb,hi⟩

theorem aggregation_legal {groupBy : List Sql.Expr} {ts : List Target} {names : List String}
    {having : Option Sql.Expr} (hn : n.Legal) (hi : input.Legal)
    (h : aggregation n input groupBy ts names having = .ok (p,es)) : p.Legal ∧ ∀ e ∈ es, e.Legal := by
  obtain ⟨keys,hkeys,h⟩ := bind_eq_ok_iff.1 h
  obtain ⟨⟨⟨es',condition⟩,g⟩,hg,h⟩ := bind_eq_ok_iff.1 h
  obtain ⟨hg,hes,hcondition⟩ := gather_legal hn (groupKeys_legal hn hkeys) hg
  have hinputs : ∀ e ∈ if g.inputs.isEmpty then [Expr.literal (.integer 0)] else g.inputs, e.Legal := by
    split
    · simpa using Literal.legal_integer 0
    · exact hg.inputs
  have hgroups : (Plan.aggregate
      (input.projectDerived (if g.inputs.isEmpty then [.literal (.integer 0)] else g.inputs))
      (List.range keys.length) (nameCalls keys.length ts es' names g.calls)).Legal := by
    refine Plan.everywhere_aggregate.2 ⟨fun d hd => ?_,Plan.everywhere_project.2 ⟨hinputs,hi⟩⟩
    obtain ⟨call,hcall,-,-,ht⟩ :=
      exists_of_forall₂ (forall₂_nameCalls keys.length ts es' names g.calls) hd
    exact ht ▸ hg.calls call hcall
  cases condition with
  | none =>
    cases h
    exact ⟨hgroups,hes⟩
  | some b =>
    cases h
    exact ⟨Plan.everywhere_filter.2 ⟨hcondition b rfl,hgroups⟩,hes⟩

theorem distinct_legal {d : Option Sql.Distinct} (hp : p.Legal) (h : distinct p d = .ok q) :
    q.Legal := by
  obtain rfl|rfl := distinct_eq_ok h
  · exact hp
  · exact Plan.everywhere_aggregate.2 ⟨by simp [Plan.LegalAt],hp⟩

theorem bind_legal {t : Target} (hn : n.Legal) (ht : t.Fits n.scope.types) (h : t.bind n = .ok e) :
    e.Legal := by
  cases t with
  | expr sql label => exact expr_legal hn h
  | column i c =>
    cases h
    exact Expr.legal_column.2 (hn _ (List.mem_of_getElem? ht))

theorem select_legal (hc : c.Legal) {s : Sql.Select} (h : select c s = .ok p) : p.Legal := by
  obtain ⟨tables,scope,input,ts,plan,es,htables,hinput,hts,hplan,hp⟩ := select_eq_ok h
  obtain ⟨hlegal,hscope⟩ := fromClause_legal hc htables
  have hn : Names.Legal ⟨scope,c.caseSensitive⟩ := hscope
  have hi := filtered_legal hn hlegal hinput
  refine distinct_legal (Plan.everywhere_project.2 ?_) hp
  obtain ⟨rfl,hes⟩|⟨_,hagg⟩ := hplan
  · refine ⟨fun e he => ?_,hi⟩
    obtain ⟨t,ht,hbind⟩ := exists_of_forall₂ (mapM_eq_ok_iff.1 hes).flip he
    exact bind_legal hn (targets_fits hts t ht) hbind
  · exact (aggregation_legal hn hi hagg).symm

/-- Over tables with legal types every query is bound to a plan with legal types. -/
theorem query_legal (hc : c.Legal) {q : Sql.Query} (h : query c q = .ok p) : p.Legal := by
  obtain ⟨s,-,hs⟩ := select_of_query h
  exact select_legal hc hs

end
end QueryPlan.Binding
