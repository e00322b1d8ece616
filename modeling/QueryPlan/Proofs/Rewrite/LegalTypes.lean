import QueryPlan.Proofs.Binding.LegalTypes
import QueryPlan.Proofs.Rewrite.Elimination

/-! # Optimised plans have legal types

Rules renumber columns, take conditions apart and put casts above quotients. All types that they write
come from the plan they found. -/
namespace QueryPlan
open Plan

theorem keepsLegal_compatible : Compatible (KeepsAll LegalAt) where
  refl _ h := h
  trans _ _ _ hpq hqr h := hqr (hpq h)
  filter p q c hpq h := by
    obtain ⟨hc,hp⟩ := everywhere_filter.1 h
    exact everywhere_filter.2 ⟨hc,hpq hp⟩
  project p q es ns hpq h := by
    obtain ⟨he,hp⟩ := everywhere_project.1 h
    exact everywhere_project.2 ⟨he,hpq hp⟩
  join p q p' q' c k hpq hpq' h := by
    obtain ⟨hc,hp,hp'⟩ := everywhere_join.1 h
    exact everywhere_join.2 ⟨hc,hpq hp,hpq' hp'⟩
  aggregate p q gs cs hpq h := by
    obtain ⟨hc,hp⟩ := everywhere_aggregate.1 h
    exact everywhere_aggregate.2 ⟨hc,hpq hp⟩

/-! ## What each rule writes -/

namespace AverageSplit
variable {groups : Nat} {calls : List AggregateCall} {c : AggregateCall}

theorem splitsInto_legal : SplitsInto fun c => c.type.Legal where
  name _ _ hc := hc
  sum _ _ hc := hc
  count _ _ := trivial

/-- A quotient has a type derived from that of the sum, and a cast the type of the average. -/
theorem Serves.legal {e : Expr} (h : Serves groups calls c e) (hc : c.type.Legal) : e.Legal := by
  unfold Serves at h
  split at h
  · obtain ⟨k,-,rfl⟩ := h
    exact Expr.legal_column.2 hc
  · obtain ⟨s,n,t,-,-,ht,rfl⟩ := h
    have hcount : SqlType.bigInt.Legal := trivial
    have hquotient : (quotient c.type (groups+s) (groups+n) t).Legal := by
      refine Expr.legal_call.2 ⟨Operator.legal_resultType ?_ ht,?_⟩
      · simp [hc,hcount]
      · simp [hc,hcount]
    split
    · exact hquotient
    · exact hquotient.cast hc

theorem apply_keepsLegal {p q : Plan} (h : apply p = .ok (some q)) : KeepsAll LegalAt p q := by
  obtain ⟨input,groups,calls,placed,values,rfl,hs,rfl⟩ := apply_eq_some h
  intro hp
  obtain ⟨hcalls,hi⟩ := everywhere_aggregate.1 hp
  refine everywhere_project.2 ⟨List.forall_mem_append.2 ⟨?_,fun e he => ?_⟩,
    everywhere_aggregate.2 ⟨splitsInto_legal.splitCalls hs (by simp) hcalls,hi⟩⟩
  · exact List.forall_mem_map.2 fun i _ => Expr.legal_column.2 (Legal.getD_type hp i)
  · obtain ⟨c,hc,hserves⟩ := exists_of_forall₂ (splitCalls_spec hs).2.flip he
    exact Serves.legal hserves (hcalls c hc)

end AverageSplit

section
variable {p q : Plan}

theorem FilterPushing.apply_keepsLegal (h : apply p = .ok (some q)) : KeepsAll LegalAt p q := by
  obtain ⟨left,right,on,condition,rfl,rfl⟩ := apply_eq_some h
  intro hp
  obtain ⟨hc,hj⟩ := everywhere_filter.1 hp
  obtain ⟨hon,hl,hr⟩ := everywhere_join.1 hj
  have hamong : ∀ s, ∀ e ∈ among left.width condition on s, e.Legal :=
    forall_among.2 (List.forall_mem_append.2
      ⟨Expr.Everywhere.conjuncts hc,Expr.Everywhere.conjuncts hon⟩)
  have hright : ∀ e ∈ (among left.width condition on .right).map (Expr.shiftDown left.width), e.Legal :=
    List.forall_mem_map.2 fun e he => (hamong _ e he).renumber _
  exact everywhere_join.2 ⟨Expr.legal_all (hamong _),everywhere_filtered (Expr.legal_all (hamong _)) hl,
    everywhere_filtered (Expr.legal_all hright) hr⟩

theorem ColumnPruning.legal_prune {cols : List Nat} (hp : p.Legal) : (prune p cols).Legal :=
  prune_induction (fun _ => hp) (everywhere_project.2
    ⟨List.forall_mem_map.2 fun i _ => Expr.legal_column.2 (hp.getD_type i),hp⟩)

theorem ColumnPruning.apply_keepsLegal (h : apply p = .ok (some q)) : KeepsAll LegalAt p q := by
  obtain ⟨left,right,on,kind,es,ns,rfl,rfl⟩ := apply_eq_some h
  intro hp
  obtain ⟨hes,hj⟩ := everywhere_project.1 hp
  obtain ⟨hon,hl,hr⟩ := everywhere_join.1 hj
  exact everywhere_project.2 ⟨List.forall_mem_map.2 fun e he => Expr.Legal.renumber _ (hes e he),
    everywhere_join.2 ⟨Expr.Legal.renumber _ hon,legal_prune hl,legal_prune hr⟩⟩

theorem ArrowScans.projectScan_keepsLegal (h : projectScan p = .ok (some q)) : KeepsAll LegalAt p q := by
  obtain ⟨t,es,ns,rfl,rfl⟩ := projectScan_eq_some h
  intro hp
  obtain ⟨hes,ht⟩ := everywhere_project.1 hp
  exact everywhere_unlessIdentity (List.forall_mem_map.2 fun e he => Expr.Legal.renumber _ (hes e he))
    (everywhere_arrowScan.2 (everywhere_scan.1 ht))

theorem ArrowScans.wholeScan_keepsLegal (h : wholeScan p = .ok (some q)) : KeepsAll LegalAt p q := by
  obtain ⟨t,rfl,rfl⟩ := wholeScan_eq_some h
  exact fun hp => everywhere_arrowScan.2 (everywhere_scan.1 hp)

theorem ArrowScans.filterScan_keepsLegal (h : filterScan p = .ok (some q)) : KeepsAll LegalAt p q := by
  obtain ⟨t,condition,es,ns,rfl,rfl⟩ := filterScan_eq_some h
  intro hp
  obtain ⟨hes,hf⟩ := everywhere_project.1 hp
  obtain ⟨hc,ht⟩ := everywhere_filter.1 hf
  have ht : ∀ col ∈ t.columns, col.type.Legal := everywhere_arrowScan.1 ht
  exact everywhere_unlessIdentity (List.forall_mem_map.2 fun e he => Expr.Legal.renumber _ (hes e he))
    (everywhere_filter.2 ⟨Expr.Legal.renumber _ hc,everywhere_arrowScan.2 ht⟩)

theorem apply_keepsLegal {rule : RewriteRule} (hrule : rule ∈ defaultRules)
    (h : rule.apply p = .ok (some q)) : KeepsAll LegalAt p q := by
  simp only [defaultRules,List.mem_cons,List.not_mem_nil,or_false] at hrule
  rcases hrule with rfl|rfl|rfl|rfl|rfl|rfl|rfl
  · exact AverageSplit.apply_keepsLegal h
  · exact FilterPushing.apply_keepsLegal h
  · exact ColumnPruning.apply_keepsLegal h
  · exact IdentityProject.apply_keepsAll h
  · exact ArrowScans.projectScan_keepsLegal h
  · exact ArrowScans.wholeScan_keepsLegal h
  · exact ArrowScans.filterScan_keepsLegal h

theorem optimise_legal {limit : Nat} (hp : p.Legal) (h : (optimise limit defaultRules p).1 = .ok q) :
    q.Legal :=
  optimise_induction keepsLegal_compatible (fun _ hrule _ _ => apply_keepsLegal hrule) h hp

end

/-! ## All types of a query -/

open SqlType in
/-- Arithmetic on types stays within its words, a DECIMAL that it derives from exact types has one to
38 digits and no more of them after the point, and over tables with legal types all types that a query
carries are legal, bound and optimised. -/
theorem legal_types :
    (∀ a b, arithmetic? sumDigits? a b = some (additive a b) ∧
      arithmetic? productDigits? a b = some (multiplicative a b) ∧
      arithmetic? quotientDigits? a b = some (divisive a b)) ∧
    (∀ a b p s, a.exactDigits.isSome → b.exactDigits.isSome →
      some (decimal p s) ∈ [additive a b,multiplicative a b,divisive a b] →
        1 ≤ p.toNat ∧ p.toNat ≤ 38 ∧ s.toInt ≤ p.toNat) ∧
    ∀ (c : Catalog) q bound, c.Legal → c.bind q = .ok bound →
      bound.Everywhere (fun n => ∀ t ∈ n.carriedTypes, t.Legal) ∧
        ∀ limit optimised, (optimise limit defaultRules bound).1 = .ok optimised →
          optimised.Everywhere fun n => ∀ t ∈ n.carriedTypes, t.Legal := by
  refine ⟨fun a b => ⟨arithmetic?_eq sumDigits?_eq clamps_sumDigits a b,
    arithmetic?_eq productDigits?_eq clamps_productDigits a b,
    arithmetic?_eq quotientDigits?_eq clamps_quotientDigits a b⟩,fun a b p s ha hb h => ?_,
    fun c q bound hc hbind => ?_⟩
  · simp only [List.mem_cons,List.not_mem_nil,or_false] at h
    rcases h with h|h|h
    · exact arithmetic_bounds clamps_sumDigits ha hb h.symm
    · exact arithmetic_bounds clamps_productDigits ha hb h.symm
    · exact arithmetic_bounds clamps_quotientDigits ha hb h.symm
  · have hbound := Binding.query_legal hc hbind
    exact ⟨hbound.carriedTypes,fun _ _ h => (optimise_legal hbound h).carriedTypes⟩

section

private def sold (name : String) : Sql.Expr := .identifier ⟨name,none⟩

/-- `SELECT AVG(price * rate) FROM sales` -/
def averageTax : Sql.Query := .mk {} (.select {
    distinct := none
    top := none
    items := [.expr (.function [⟨"AVG",none⟩] [.expr (.binary (sold "price") .multiply (sold "rate"))]
      none {}) none]
    into := none
    tables := [⟨.table [⟨"sales",none⟩] none none [] [],[]⟩]
    lateralViews := []
    selection := none
    groupBy := .exprs []
    clusterBy := []
    distributeBy := []
    sortBy := []
    having := none
    windows := []
    qualify := none })

def sales : Table :=
  ⟨"sales","sales.arrow",[⟨"price",.decimal 30 2⟩,⟨"rate",.decimal 12 10⟩]⟩

def market : Catalog where
  root := "market"
  caseSensitive := true
  tables := [sales]

/-- The digits of the product are cut off at 38, and so are those of the quotient. -/
def averageTaxPlan : Plan :=
  .project (.aggregate (.project (.scan sales)
      [.call .multiply [.column 0 (.decimal 30 2),.column 1 (.decimal 12 10)] (.decimal 38 12)] ["$f0"])
    [] [⟨.avg,false,[0],.decimal 38 12,"EXPR$0"⟩])
  [.column 0 (.decimal 38 12)] ["EXPR$0"]

def averageTaxOptimised : Plan :=
  .project (.aggregate (.project (.arrowScan sales [0,1])
      [.call .multiply [.column 0 (.decimal 30 2),.column 1 (.decimal 12 10)] (.decimal 38 12)] ["$f0"])
    [] [⟨.sum,false,[0],.decimal 38 12,"$f0"⟩,⟨.count,false,[0],.bigInt,"$f1"⟩])
  [.call .divide [.column 0 (.decimal 38 12),.column 1 .bigInt] (.decimal 38 12)] ["EXPR$0"]

theorem legal_types_averageTax :
    (1 ≤ (38 : UInt8).toNat ∧ (38 : UInt8).toNat ≤ 38 ∧ (12 : Int8).toInt ≤ (38 : UInt8).toNat) ∧
    market.Legal ∧ market.bind averageTax = .ok averageTaxPlan ∧
    (optimise 10 defaultRules averageTaxPlan).1 = .ok averageTaxOptimised ∧
    averageTaxPlan.Everywhere (fun n => ∀ t ∈ n.carriedTypes, t.Legal) ∧
    averageTaxOptimised.Everywhere fun n => ∀ t ∈ n.carriedTypes, t.Legal := by
  have hmarket : market.Legal := by
    simp only [Catalog.Legal,market,sales,List.forall_mem_cons]
    decide
  have hbind : market.bind averageTax = .ok averageTaxPlan := by decide +kernel
  have hoptimise : (optimise 10 defaultRules averageTaxPlan).1 = .ok averageTaxOptimised := by
    decide +kernel
  obtain ⟨-,hderived,hcarried⟩ := legal_types
  obtain ⟨hbound,hoptimised⟩ := hcarried market averageTax _ hmarket hbind
  exact ⟨hderived (.decimal 30 2) (.decimal 12 10) 38 12 rfl rfl (by decide),hmarket,hbind,hoptimise,
    hbound,hoptimised 10 _ hoptimise⟩

end

end QueryPlan
