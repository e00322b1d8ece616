import QueryPlan.EnginePlan
import QueryPlan.Proofs.Rewrite.Meaning
import QueryPlan.Proofs.Rewrite.Narrowing

/-! # Operators that the program eliminates

The engine knows neither scans of whole tables nor averages. The rule that replaces the ones or the
others reaches all of them in its first pass, on any plan and under any limit, and no later rule
makes new ones. -/
namespace QueryPlan

namespace Plan

/-- The root is not the scan of a whole table. -/
def NotScan : Plan → Prop
  | scan _ => False
  | _ => True

/-- The root computes no average. -/
def AverageFree : Plan → Prop
  | aggregate _ _ calls => ∀ c ∈ calls, c.function ≠ .avg
  | _ => True

/-- The engine has an operator for the root, as far as its kind and its functions go. -/
def EngineKnown (p : Plan) : Prop := p.NotScan ∧ p.AverageFree

/-- A condition on single operators that only scans of whole tables and aggregates can fail, and
that does not look at what is below them. -/
structure SparesOthers (P : Plan → Prop) : Prop where
  arrowScan : ∀ t cols, P (arrowScan t cols)
  filter : ∀ input condition, P (filter input condition)
  project : ∀ input exprs names, P (project input exprs names)
  join : ∀ left right condition kind, P (join left right condition kind)
  aggregate : ∀ input input' groups calls,
    P (aggregate input groups calls) → P (aggregate input' groups calls)

theorem sparesOthers_notScan : SparesOthers NotScan where
  arrowScan _ _ := trivial
  filter _ _ := trivial
  project _ _ _ := trivial
  join _ _ _ _ := trivial
  aggregate _ _ _ _ _ := trivial

theorem sparesOthers_averageFree : SparesOthers AverageFree where
  arrowScan _ _ := trivial
  filter _ _ := trivial
  project _ _ _ := trivial
  join _ _ _ _ := trivial
  aggregate _ _ _ _ h := h

variable {P : Plan → Prop}

theorem SparesOthers.over {R : Plan → Plan → Prop} {p q : Plan} (hP : SparesOthers P)
    (h : p.Over R q) (hp : P p) : P q := by
  cases h with
  | scan t => exact hp
  | arrowScan t cols => exact hp
  | filter c h => exact hP.filter _ c
  | project es ns h => exact hP.project _ es ns
  | join c k h h' => exact hP.join _ _ c k
  | aggregate gs cs h => exact hP.aggregate _ _ gs cs hp

/-- A plan whose operators all meet a condition becomes another such plan. -/
def KeepsAll (P : Plan → Prop) (p q : Plan) : Prop := p.Everywhere P → q.Everywhere P

theorem SparesOthers.keepsAll_compatible (hP : SparesOthers P) : Compatible (KeepsAll P) where
  refl _ h := h
  trans _ _ _ hpq hqr h := hqr (hpq h)
  filter p q c hpq h := everywhere_filter.2 ⟨hP.filter _ c,hpq (everywhere_filter.1 h).2⟩
  project p q es ns hpq h :=
    everywhere_project.2 ⟨hP.project _ es ns,hpq (everywhere_project.1 h).2⟩
  join p q p' q' c k hpq hpq' h := by
    obtain ⟨-,hp,hp'⟩ := everywhere_join.1 h
    exact everywhere_join.2 ⟨hP.join _ _ c k,hpq hp,hpq' hp'⟩
  aggregate p q gs cs hpq h := by
    obtain ⟨hroot,hp⟩ := everywhere_aggregate.1 h
    exact everywhere_aggregate.2 ⟨hP.aggregate _ _ gs cs hroot,hpq hp⟩

end Plan

open Plan

/-! ## What each rule keeps -/

section
variable {P : Plan → Prop} {p q : Plan}

theorem FilterPushing.apply_keepsAll (hP : SparesOthers P) (h : rule.apply p = .ok (some q)) :
    KeepsAll P p q := by
  obtain ⟨left,right,on,condition,rfl,rfl⟩ := apply_eq_some h
  intro hp
  obtain ⟨-,hl,hr⟩ := everywhere_join.1 (everywhere_filter.1 hp).2
  exact everywhere_join.2
    ⟨hP.join _ _ _ _,everywhere_filtered (hP.filter _ _) hl,everywhere_filtered (hP.filter _ _) hr⟩

theorem ColumnPruning.apply_keepsAll (hP : SparesOthers P) (h : rule.apply p = .ok (some q)) :
    KeepsAll P p q := by
  obtain ⟨left,right,on,kind,exprs,names,rfl,rfl⟩ := apply_eq_some h
  intro hp
  obtain ⟨-,hl,hr⟩ := everywhere_join.1 (everywhere_project.1 hp).2
  exact everywhere_project.2 ⟨hP.project _ _ _,everywhere_join.2
    ⟨hP.join _ _ _ _,everywhere_pruned (hP.project _) hl,everywhere_pruned (hP.project _) hr⟩⟩

theorem IdentityProject.apply_keepsAll (h : rule.apply p = .ok (some q)) : KeepsAll P p q := by
  obtain ⟨exprs,names,rfl,-⟩ := apply_eq_some h
  exact fun hp => (everywhere_project.1 hp).2

theorem ArrowScans.projectScan_keepsAll (hP : SparesOthers P)
    (h : projectScanRule.apply p = .ok (some q)) : KeepsAll P p q := by
  obtain ⟨t,exprs,names,rfl,rfl⟩ := projectScan_eq_some h
  exact fun _ => everywhere_unlessIdentity (hP.project _ _ _) (everywhere_arrowScan.2 (hP.arrowScan _ _))

theorem ArrowScans.wholeScan_keepsAll (hP : SparesOthers P)
    (h : wholeScanRule.apply p = .ok (some q)) : KeepsAll P p q := by
  obtain ⟨t,rfl,rfl⟩ := wholeScan_eq_some h
  exact fun _ => everywhere_arrowScan.2 (hP.arrowScan _ _)

theorem ArrowScans.filterScan_keepsAll (hP : SparesOthers P)
    (h : filterScanRule.apply p = .ok (some q)) : KeepsAll P p q := by
  obtain ⟨t,condition,exprs,names,rfl,rfl⟩ := filterScan_eq_some h
  exact fun _ => everywhere_unlessIdentity (hP.project _ _ _)
    (everywhere_filter.2 ⟨hP.filter _ _,everywhere_arrowScan.2 (hP.arrowScan _ _)⟩)

/-- Only the split of averages puts an aggregate in the place of another one. -/
theorem apply_keepsAll (hP : SparesOthers P) {rule : RewriteRule} (hrule : rule ∈ defaultRules.tail)
    (h : rule.apply p = .ok (some q)) : KeepsAll P p q := by
  simp only [defaultRules,List.tail_cons,List.mem_cons,List.not_mem_nil,or_false] at hrule
  rcases hrule with rfl|rfl|rfl|rfl|rfl|rfl
  · exact FilterPushing.apply_keepsAll hP h
  · exact ColumnPruning.apply_keepsAll hP h
  · exact IdentityProject.apply_keepsAll h
  · exact ArrowScans.projectScan_keepsAll hP h
  · exact ArrowScans.wholeScan_keepsAll hP h
  · exact ArrowScans.filterScan_keepsAll hP h

end

/-! ## What the two eliminating rules reach -/

/-- A pass goes on below the aggregate that it has put in place, so it reaches every average. -/
theorem AverageSplit.settles_averageFree :
    rule.Settles (fun _ => True) AverageFree (fun _ _ => True) where
  leaves p _ hnone := by
    refine ⟨fun _ _ => trivial,?_,trivial⟩
    cases p with
    | aggregate input groups calls => exact apply_eq_none.1 hnone _ _ _ rfl
    | _ => trivial
  rewrites p r _ hsome := by
    obtain ⟨input,groups,calls,placed,values,rfl,-,rfl⟩ := apply_eq_some hsome
    exact ⟨fun _ _ => trivial,trivial,trivial⟩
  post_over _ _ hp h := sparesOthers_averageFree.over h hp
  rel_over _ _ _ _ _ _ := trivial

theorem AverageSplit.apply_of_averageFree {p : Plan} (h : p.AverageFree) :
    rule.apply p = .ok none := by
  refine apply_eq_none.2 fun input groups calls hp => ?_
  subst hp
  exact h

theorem ArrowScans.apply_of_notScan {p : Plan} (h : p.NotScan) :
    wholeScanRule.apply p = .ok none := by
  cases p with
  | scan t => exact h.elim
  | _ => rfl

theorem ArrowScans.wholeScan_settles_notScan :
    wholeScanRule.Settles (fun _ => True) NotScan (fun _ _ => True) where
  leaves p _ hnone := by
    refine ⟨fun _ _ => trivial,?_,trivial⟩
    cases p with
    | scan t => cases hnone
    | _ => trivial
  rewrites p r _ hsome := by
    obtain ⟨t,rfl,rfl⟩ := wholeScan_eq_some hsome
    exact ⟨fun _ _ => trivial,trivial,trivial⟩
  post_over _ _ hp h := sparesOthers_notScan.over h hp
  rel_over _ _ _ _ _ _ := trivial

/-! ## Whole runs -/

section
variable {limit : Nat} {rule : RewriteRule} {rules before : List RewriteRule} {p q : Plan}

theorem optimise_cons_eq_ok (h : (optimise limit (rule :: rules) p).1 = .ok q) :
    ∃ r passes, rule.settle (max limit 1) p = .ok (r,passes) ∧
      (optimise limit rules r).1 = .ok q := by
  rw [optimise] at h
  split at h
  · cases h
  · rename_i r passes hr
    exact ⟨r,passes,hr,h⟩

theorem optimise_append_eq_ok (h : (optimise limit (before ++ rules) p).1 = .ok q) :
    ∃ r, (optimise limit before p).1 = .ok r ∧ (optimise limit rules r).1 = .ok q := by
  induction before generalizing p with
  | nil => exact ⟨p,rfl,h⟩
  | cons rule before ih =>
    obtain ⟨r,passes,hr,h⟩ := optimise_cons_eq_ok h
    obtain ⟨s,hs,h⟩ := ih h
    refine ⟨s,?_,h⟩
    rw [optimise,hr]
    exact hs

/-- Where one pass leads to rest, the loop ends there, whatever its limit. -/
theorem RewriteRule.Leads.settle {From To : Plan → Prop} (hrule : rule.Leads From To) {k : Nat}
    (hlimit : 0 < limit) (hp : From p) (h : rule.settle limit p = .ok (q,k)) : To q := by
  obtain ⟨result,hpass⟩ : ∃ result, rule.pass p = .ok result := by
    obtain ⟨limit,rfl⟩ := Nat.exists_eq_add_one.2 hlimit
    obtain ⟨result,hresult,-⟩ := bind_eq_ok_iff.1 h
    exact ⟨result,hresult⟩
  obtain ⟨hto,hrests⟩ := hrule p result hp hpass
  rw [(settle_of_pass hlimit hpass hrests h).1]
  exact hto

/-- What one rule brings about from any plan, and the later ones keep, holds of what the program
ends with. -/
theorem optimise_eliminates {P : Plan → Prop} (before : List RewriteRule) (hP : SparesOthers P)
    (hlead : rule.Leads (fun _ => True) (Everywhere P))
    (hkeep : ∀ later ∈ rules, ∀ p q, later.apply p = .ok (some q) → KeepsAll P p q)
    (h : (optimise limit (before ++ rule :: rules) p).1 = .ok q) : q.Everywhere P := by
  obtain ⟨r,-,h⟩ := optimise_append_eq_ok h
  obtain ⟨s,passes,hs,h⟩ := optimise_cons_eq_ok h
  exact optimise_induction hP.keepsAll_compatible hkeep h (hlead.settle (by omega) trivial hs)

end

/-! ## What the engine is handed -/

theorem EnginePlan.operator_of_equiColumns {kind : JoinKind} {condition : Expr} {e : EncodeError}
    (h : equiColumns kind condition = .error e) : e.operator = "JoinOperator" := by
  unfold equiColumns at h
  repeat' split at h
  all_goals cases h <;> rfl

/-- Only a scan of a whole table is refused as one. -/
theorem EnginePlan.operator_ne_of_notScan {p : Plan} (hp : p.Everywhere NotScan)
    {written : List String} {e : EncodeError} (h : encodeAfter written p = .error e) :
    e.operator ≠ "TableScan" := by
  induction p generalizing written with
  | scan t => exact (everywhere_scan.1 hp).elim
  | arrowScan t cols => cases h
  | filter input c ih =>
    obtain h|⟨_,_,h⟩ := bind_eq_error_iff.1 h
    · exact ih (everywhere_filter.1 hp).2 h
    · cases h
  | project input es ns ih =>
    obtain h|⟨_,_,h⟩ := bind_eq_error_iff.1 h
    · exact ih (everywhere_project.1 hp).2 h
    · cases h
  | aggregate input gs cs ih =>
    rw [encodeAfter] at h
    split at h
    · cases h
      decide
    · obtain h|⟨_,_,h⟩ := bind_eq_error_iff.1 h
      · exact ih (everywhere_aggregate.1 hp).2 h
      · cases h
  | join left right c k ihl ihr =>
    obtain ⟨-,hl,hr⟩ := everywhere_join.1 hp
    obtain h|⟨_,_,h⟩ := bind_eq_error_iff.1 h
    · rw [operator_of_equiColumns h]
      decide
    obtain h|⟨_,_,h⟩ := bind_eq_error_iff.1 h
    · exact ihl hl h
    obtain h|⟨_,_,h⟩ := bind_eq_error_iff.1 h
    · exact ihr hr h
    · cases h

/-- Whatever plan the program is run on, and with whatever limit: what it ends with has no scan of a
whole table and no average, at any depth, so the engine refuses no scan in it. -/
theorem optimise_engineKnown {limit : Nat} {p q : Plan}
    (h : (optimise limit defaultRules p).1 = .ok q) :
    q.Everywhere EngineKnown ∧
      ∀ e, EnginePlan.encode q = .error e → e.operator ≠ "TableScan" := by
  have haverages : q.Everywhere AverageFree :=
    optimise_eliminates [] sparesOthers_averageFree
      (AverageSplit.settles_averageFree.leads fun _ => AverageSplit.apply_of_averageFree)
      (fun later hlater _ _ => apply_keepsAll sparesOthers_averageFree hlater) h
  have hscans : q.Everywhere NotScan :=
    optimise_eliminates (defaultRules.take 5) sparesOthers_notScan
      (ArrowScans.wholeScan_settles_notScan.leads fun _ => ArrowScans.apply_of_notScan)
      (fun later hlater _ _ => apply_keepsAll sparesOthers_notScan
        (List.mem_of_mem_drop (i := 5) hlater)) h
  refine ⟨fun n hn => ⟨hscans n hn,haverages n hn⟩,fun e he => ?_⟩
  exact EnginePlan.operator_ne_of_notScan hscans (map_eq_error_iff.1 he)

theorem optimise_engineKnown_averagePerCity :
    (optimise 5 defaultRules averagePerCity).1 = .ok averagePerCityOptimised ∧
    averagePerCityOptimised.Everywhere EngineKnown ∧
    ∀ e, EnginePlan.encode averagePerCityOptimised = .error e → e.operator ≠ "TableScan" :=
  ⟨optimise_averagePerCity,optimise_engineKnown optimise_averagePerCity⟩

end QueryPlan
