import QueryPlan.Binding.Query
import QueryPlan.Proofs.Binding.FoldedNames
import QueryPlan.Proofs.Binding.Query
import QueryPlan.Proofs.Rewrite.Renamed

/-! # Queries are bound alike in every spelling

Where a catalog does not tell the case of letters apart, a query and the folded query are bound to
plans that differ in names alone, or are refused with errors of one code. -/
namespace QueryPlan.Binding

/-! ## Grouped queries -/

variable {n n' : Names} {clause : Clause} {keys : List Expr} {keyCount : Nat}

theorem groupKeys_folded (hn : n.Alike n') (groupBy : List Sql.Expr) :
    Agree Eq (groupKeys n groupBy) (groupKeys n' (groupBy.map Sql.Expr.folded)) := by
  refine LiftRel.foldlM (forall₂_map Sql.Expr.folded groupBy) rfl ?_
  rintro placed _ e _ rfl rfl
  exact (expr_folded hn e).bind_eq fun _ => agree_refl _

/-- While gathering: one value and one state, or errors of one code. -/
def gatheringComparison : Comparison Gathering where
  Alike x y := ∀ g, Agree Eq (x.run g) (y.run g)
  pure _ _ := .ok rfl
  lift h _ := h.bind_eq fun _ => .ok rfl
  bind hx hf g := (hx g).bind_eq fun r => hf r.1 r.2

theorem gathering_refl {α : Type} (x : Gathering α) : gatheringComparison.Alike x x :=
  fun _ => agree_refl _

theorem aggregateArgument_folded (hn : n.Alike n') (f : AggregateFunction) (distinct : Bool)
    (args : List Sql.FunctionArg) :
    Agree Eq (aggregateArgument n f distinct args)
      (aggregateArgument n' f distinct (Sql.foldedArgs args)) := by
  match args with
  | [] | [.wildcard] => exact agree_refl _
  | [.expr e] =>
    exact (expr_folded hn e).bind_eq fun _ => agree_refl _
  | [.other _] => exact .error rfl
  | a :: b :: rest => cases a <;> exact .error rfl

theorem aggregateCall_folded (hn : n.Alike n') (f : AggregateFunction)
    (args : List Sql.FunctionArg) (tail : Sql.CallTail) :
    gatheringComparison.Alike (aggregateCall n keyCount f args tail)
      (aggregateCall n' keyCount f (Sql.foldedArgs args) tail.folded) := by
  have hwindow : tail.folded.window.isSome = tail.window.isSome := Option.isSome_map
  unfold aggregateCall
  rw [hwindow]
  split
  · exact fun _ => .error rfl
  · exact gatheringComparison.bind
      (gatheringComparison.lift (aggregateArgument_folded hn f tail.distinct args))
      fun _ => gathering_refl _

/-- Only a call folds to a call: both runs take the one way or both take the other. -/
theorem matchCall_folded {α : Type} (f? : Option AggregateFunction) (e : Sql.Expr)
    {call call' : AggregateFunction → List Sql.FunctionArg → Sql.CallTail → Gathering α}
    {other other' : Gathering α}
    (hcall : ∀ f args tail,
      gatheringComparison.Alike (call f args tail) (call' f (Sql.foldedArgs args) tail.folded))
    (hother : gatheringComparison.Alike other other') :
    gatheringComparison.Alike
      (match f?,e with
        | some f,.function _ args _ tail => call f args tail
        | _,_ => other)
      (match f?,e.folded with
        | some f,.function _ args _ tail => call' f args tail
        | _,_ => other') := by
  cases f? with
  | none => exact hother
  | some f =>
    cases e with
    | function name args filter tail => exact hcall f args tail
    | _ => exact hother

theorem groupedWhole_folded (hn : n.Alike n') (e : Sql.Expr) :
    gatheringComparison.Alike (groupedWhole n keys clause e) (groupedWhole n' keys clause e.folded) := by
  unfold groupedWhole
  rw [e.aggregate?_folded,e.hasAggregate_folded,Sql.isColumnName_folded]
  refine matchCall_folded e.aggregate? e (fun f args tail => ?_) ?_
  · exact gatheringComparison.bind (aggregateCall_folded hn f args tail) fun _ => gathering_refl _
  split
  · exact gathering_refl _
  refine gatheringComparison.bind (gatheringComparison.lift (expr_folded hn e)) fun plain => ?_
  split
  · exact gathering_refl _
  split
  · exact gathering_refl _
  split
  · exact fun _ => .error rfl
  · exact gathering_refl _

theorem groupedExpr_folded (hn : n.Alike n') (e : Sql.Expr) :
    gatheringComparison.Alike (groupedExpr n keys clause e) (groupedExpr n' keys clause e.folded) :=
  exprWith_folded hn (groupedWhole_folded hn) e

theorem groupedCondition_folded (hn : n.Alike n') (e : Sql.Expr) :
    gatheringComparison.Alike (groupedCondition n keys e) (groupedCondition n' keys e.folded) :=
  gatheringComparison.bind (groupedExpr_folded hn e) fun _ => gathering_refl _

/-! ## Output columns -/

/-- What becomes of an output column: its expression is folded, and its label goes. -/
inductive Target.Folds : Target → Target → Prop
  | expr (e : Sql.Expr) (label : Option Sql.Ident) : Folds (.expr e label) (.expr e.folded none)
  | column (i : Nat) {c c' : ScopeColumn} : c.folded = c'.folded → Folds (.column i c) (.column i c')

theorem columns_fold {places places' : List (ScopeColumn × Nat)}
    (h : places.Forall₂ (fun p p' => p.1.folded = p'.1.folded ∧ p.2 = p'.2) places') :
    (places.map fun p => Target.column p.2 p.1).Forall₂ Target.Folds
      (places'.map fun p => Target.column p.2 p.1) := by
  refine List.forall₂_map_left_iff.2 (List.forall₂_map_right_iff.2 (h.imp fun p p' hp => ?_))
  rw [hp.2]
  exact .column _ hp.1

theorem targetsOf_folded (hn : n.Alike n') (item : Sql.SelectItem) :
    Agree (List.Forall₂ Target.Folds) (targetsOf n item)
      (targetsOf n' item.folded) := by
  cases item with
  | expr e label => exact .ok (.cons (.expr e label) .nil)
  | wildcard options =>
    have hplaces := Scope.filter_places_alike hn.scope (fun _ => true) (fun _ => true)
      fun _ _ _ => rfl
    simp only [List.filter_true] at hplaces
    exact .ok (columns_fold hplaces)
  | qualifiedWildcard name options =>
    have hrelation : ((name.getLast?.map Sql.Ident.value).getD "").toLower =
        (((name.map Sql.Ident.folded).getLast?.map Sql.Ident.value).getD "").toLower := by
      rw [List.getLast?_map]
      cases name.getLast? <;> simp
    simp only [targetsOf,Sql.SelectItem.folded,hn.caseless,hn.caseless',
      Scope.hasRelation_alike hn.scope hrelation]
    split
    · refine .ok (columns_fold (Scope.filter_places_alike hn.scope (sameName false ·.relation _)
        (sameName false ·.relation _) fun c c' hc => ?_))
      rw [sameName_false,sameName_false,(ScopeColumn.mk.inj hc).1,hrelation]
    · exact .error rfl

theorem targets_folded (hn : n.Alike n') (items : List Sql.SelectItem) :
    Agree (List.Forall₂ Target.Folds) (targets n items)
      (targets n' (items.map Sql.SelectItem.folded)) := by
  have hitems := (forall₂_map Sql.SelectItem.folded items).imp fun item item' h =>
    h ▸ targetsOf_folded hn item
  exact (LiftRel.mapM hitems).bind fun tss tss' h => .ok (List.rel_flatten h)

theorem Target.Folds.hasAggregate_eq {t t' : Target} (h : t.Folds t') :
    t.hasAggregate = t'.hasAggregate := by
  cases h with
  | expr e label => exact e.hasAggregate_folded.symm
  | column i hc => rfl

theorem Target.Folds.bind (hn : n.Alike n') {t t' : Target} (h : t.Folds t') :
    Agree Eq (t.bind n) (t'.bind n') := by
  cases h with
  | expr e label => exact expr_folded hn e
  | column i hc => exact .ok (congrArg (Expr.column i) (ScopeColumn.mk.inj hc).2.2)

theorem Target.Folds.bindGrouped (hn : n.Alike n') {t t' : Target} (h : t.Folds t') :
    gatheringComparison.Alike (t.bindGrouped n keys) (t'.bindGrouped n' keys) := by
  cases h with
  | expr e label => exact groupedExpr_folded hn e
  | column i hc =>
    refine gatheringComparison.lift ?_
    obtain ⟨-,-,htype⟩ := ScopeColumn.mk.inj hc
    unfold groupedColumn
    rw [htype]
    split
    · exact .ok rfl
    · exact .error rfl

theorem gather_folded (hn : n.Alike n') {ts ts' : List Target} (hts : ts.Forall₂ Target.Folds ts')
    (having : Option Sql.Expr) :
    Agree Eq (gather n keys ts having)
      (gather n' keys ts' (having.map Sql.Expr.folded)) := by
  have htargets : gatheringComparison.Alike (ts.mapM (Target.bindGrouped n keys))
      (ts'.mapM (Target.bindGrouped n' keys)) := by
    induction hts with
    | nil => exact gathering_refl _
    | cons h _ ih =>
      rw [List.mapM_cons,List.mapM_cons]
      exact gatheringComparison.bind (h.bindGrouped hn) fun e =>
        gatheringComparison.bind ih fun es => gathering_refl _
  have hhaving : gatheringComparison.Alike (having.mapM (groupedCondition n keys))
      ((having.map Sql.Expr.folded).mapM (groupedCondition n' keys)) := by
    cases having with
    | none => exact gathering_refl _
    | some e =>
      simp only [Option.map_some,Option.mapM_some,← bind_pure_comp]
      exact gatheringComparison.bind (groupedCondition_folded hn e) fun _ => gathering_refl _
  exact gatheringComparison.bind htargets
    (fun es => gatheringComparison.bind hhaving fun _ => gathering_refl _) _

theorem aggregation_folded (hn : n.Alike n') (input : Plan) (groupBy : List Sql.Expr)
    {ts ts' : List Target} (hts : ts.Forall₂ Target.Folds ts') (names names' : List String)
    (having : Option Sql.Expr) :
    Agree (fun r r' => r.1.Renamed r'.1 ∧ r.2 = r'.2)
      (aggregation n input groupBy ts names having)
      (aggregation n' input (groupBy.map Sql.Expr.folded) ts' names'
        (having.map Sql.Expr.folded)) := by
  refine (groupKeys_folded hn groupBy).bind_eq fun keys => ?_
  refine (gather_folded hn hts having).bind_eq fun ⟨⟨es,condition⟩,g⟩ => ?_
  -- both runs gather the same calls, and then name them after their own output columns
  have hcalls : (nameCalls keys.length ts es names g.calls).Forall₂ AggregateCall.Renamed
      (nameCalls keys.length ts' es names' g.calls) :=
    AggregateCall.renamed_of_map_eq (by rw [nameCalls_spec,nameCalls_spec])
  have hplan := Plan.Renamed.aggregate (List.range keys.length) hcalls
    (.refl (input.projectDerived (if g.inputs.isEmpty then [.literal (.integer 0)] else g.inputs)))
  cases condition with
  | none => exact .ok ⟨hplan,rfl⟩
  | some e => exact .ok ⟨.filter e hplan,rfl⟩

theorem filtered_folded (hn : n.Alike n') (input : Plan) (selection : Option Sql.Expr) :
    Agree Eq (filtered n input selection) (filtered n' input (selection.map Sql.Expr.folded)) := by
  cases selection with
  | none => exact .ok rfl
  | some e =>
    exact (condition_folded hn e).bind_eq fun _ => agree_refl _

/-! ## Tables -/

/-- One plan, with columns that go by the same names. -/
def SameFrom (bound bound' : Plan × Scope) : Prop :=
  bound.1 = bound'.1 ∧ bound.2.folded = bound'.2.folded

variable {c : Catalog}

theorem table_folded (hc : c.caseSensitive = false) (factor : Sql.TableFactor) :
    Agree SameFrom (table c factor) (table c factor.folded) := by
  cases factor with
  | derived text label | nestedJoin text label => exact .error rfl
  | other text label after => exact .error rfl
  | table name label args partitions hints =>
    match name with
    | [] => exact .error rfl
    | _ :: _ :: _ => exact .error rfl
    | [name] =>
      have hlookup : c.lookup name.folded.value = c.lookup name.value := by
        simp only [Catalog.lookup,hc,sameName_false,Sql.Ident.toLower_value_folded]
      simp only [table,Sql.TableFactor.folded,List.map_cons,List.map_nil,hlookup]
      cases c.lookup name.value with
      | none => exact .error rfl
      | some t =>
        cases label with
        | none => exact .ok ⟨rfl,rfl⟩
        | some a =>
          simp only [Option.map_some,Sql.TableAlias.folded,List.isEmpty_map]
          split
          · refine .ok ⟨rfl,?_⟩
            simp [Scope.folded,Scope.ofTable,ScopeColumn.folded]
          · exact .error rfl

theorem joinCondition_folded (hn : n.Alike n') (kind : JoinKind) (constrained : Bool)
    (constraint : Sql.JoinConstraint) :
    Agree Eq (joinCondition n kind constrained constraint)
      (joinCondition n' kind constrained constraint.folded) := by
  unfold joinCondition
  dsimp only
  split
  · exact agree_refl _
  · cases constraint with
    | on e => exact condition_folded hn e
    | _ => exact agree_refl _

theorem join_folded (hc : c.caseSensitive = false) {bound bound' : Plan × Scope}
    (h : SameFrom bound bound') (j : Sql.Join) :
    Agree SameFrom (join c bound j) (join c bound' j.folded) := by
  refine (table_folded hc j.factor).bind fun right right' hright => ?_
  rw [hc]
  refine (Scope.beside_alike h.2 hright.2).bind fun scope scope' hscope => ?_
  refine (agree_refl (joinKind j.form)).bind_eq fun kind => ?_
  refine (joinCondition_folded ⟨rfl,rfl,hscope⟩ kind.1 kind.2 j.constraint).bind_eq fun on => ?_
  exact .ok ⟨by rw [h.1,hright.1],hscope⟩

theorem tableWithJoins_folded (hc : c.caseSensitive = false) (t : Sql.TableWithJoins) :
    Agree SameFrom (tableWithJoins c t) (tableWithJoins c t.folded) := by
  refine (table_folded hc t.first).bind fun bound bound' h => ?_
  refine LiftRel.foldlM (forall₂_map Sql.Join.folded t.joins) h ?_
  rintro bound bound' j _ h rfl
  exact join_folded hc h j

theorem fromClause_folded (hc : c.caseSensitive = false) (ts : List Sql.TableWithJoins) :
    Agree SameFrom (fromClause c ts)
      (fromClause c (ts.map Sql.TableWithJoins.folded)) := by
  cases ts with
  | nil => exact .error rfl
  | cons first rest =>
    refine (tableWithJoins_folded hc first).bind fun bound bound' h => ?_
    refine LiftRel.foldlM (forall₂_map Sql.TableWithJoins.folded rest) h ?_
    rintro bound bound' t _ h rfl
    refine (tableWithJoins_folded hc t).bind fun right right' hright => ?_
    rw [hc]
    refine (Scope.beside_alike h.2 hright.2).bind fun scope scope' hscope => ?_
    exact .ok ⟨by rw [h.1,hright.1],hscope⟩

/-! ## Queries -/

theorem groupExprs_folded (groupBy : Sql.GroupBy) :
    Agree (fun keys keys' => keys.map Sql.Expr.folded = keys')
      (groupExprs groupBy) (groupExprs groupBy.folded) := by
  cases groupBy with
  | all => exact .error rfl
  | exprs keys => exact .ok rfl

theorem distinct_folded {p q : Plan} (h : p.Renamed q) (d : Option Sql.Distinct) :
    Agree Plan.Renamed (distinct p d)
      (distinct q (d.map Sql.Distinct.folded)) := by
  match d with
  | none => exact .ok h
  | some .rows =>
    refine .ok ?_
    rw [h.width_eq]
    exact .aggregate _ .nil h
  | some (.on _) => exact .error rfl

theorem select_folded (hc : c.caseSensitive = false) (s : Sql.Select) :
    Agree Plan.Renamed (select c s) (select c s.folded) := by
  unfold select
  simp only [Sql.Select.folded,Option.isSome_map]
  split
  · exact .error rfl
  split
  · exact .error rfl
  refine (fromClause_folded hc s.tables).bind fun bound bound' hbound => ?_
  obtain ⟨tables,scope⟩ := bound
  obtain ⟨_,scope'⟩ := bound'
  obtain ⟨htables,hscope⟩ := hbound
  cases htables
  have hn : Names.Alike ⟨scope,c.caseSensitive⟩ ⟨scope',c.caseSensitive⟩ := ⟨hc,hc,hscope⟩
  refine (filtered_folded hn tables s.selection).bind_eq fun input => ?_
  refine (groupExprs_folded s.groupBy).bind fun groupBy _ hgroupBy => ?_
  cases hgroupBy
  refine (targets_folded hn s.items).bind fun ts ts' hts => ?_
  have hany : ts'.any Target.hasAggregate = ts.any Target.hasAggregate := by
    induction hts with
    | nil => rfl
    | cons h _ ih => rw [List.any_cons,List.any_cons,h.hasAggregate_eq,ih]
  have hnames : (targetNames ts).length = (targetNames ts').length := by
    simpa using hts.length_eq
  simp only [List.isEmpty_map,hany]
  split
  · refine (aggregation_folded hn input groupBy hts _ _ s.having).bind fun r r' hr => ?_
    rw [← hr.2]
    exact distinct_folded (.project r.2 hnames hr.1) s.distinct
  · refine (LiftRel.mapM (hts.imp fun t t' ht => ht.bind hn)).bind fun es es' hes => ?_
    rw [List.forall₂_eq_eq_eq] at hes
    cases hes
    exact distinct_folded (.project es hnames (.refl input)) s.distinct

theorem checkClauses_folded (clauses : Sql.QueryClauses) :
    checkClauses clauses.folded = checkClauses clauses := by
  simp only [checkClauses,Sql.QueryClauses.folded,Option.isSome_map,List.isEmpty_map]

mutual
theorem query_folded (hc : c.caseSensitive = false) : (q : Sql.Query) →
    Agree Plan.Renamed (query c q) (query c q.folded)
  | .mk clauses b => by
    rw [Sql.Query.folded,query,query,checkClauses_folded]
    exact (agree_refl _).bind_eq fun _ => body_folded hc b
theorem body_folded (hc : c.caseSensitive = false) : (b : Sql.Body) →
    Agree Plan.Renamed (body c b) (body c b.folded)
  | .select s => select_folded hc s
  | .query q => query_folded hc q
  | .setOperation _ | .other _ => .error rfl
end

end QueryPlan.Binding
