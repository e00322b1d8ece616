import QueryPlan.Proofs.Binding.Building
import QueryPlan.Proofs.Binding.Conditions
import QueryPlan.Proofs.Rewrite.Ending

/-! # What the last rule refuses

After the rules before it, the last one finds the bare filters of a plan where they were in the
beginning, and it fails if a projection stands on one of them. Of all queries these are the ones that
take no row of a single table. -/
namespace QueryPlan
open Plan

variable {p : Plan}

theorem Plan.stuck_iff : p.Stuck ↔ ∃ input es ns, project input es ns ∈ p.operators ∧
    ¬ Expr.isIdentity es input.width ∧ input.Bare := by
  induction p with
  | scan t => simp [Stuck,operators]
  | arrowScan t cols => simp [Stuck,operators]
  | filter input c ih => simpa [Stuck,operators] using ih
  | aggregate input gs cs ih => simpa [Stuck,operators] using ih
  | join left right on kind ihl ihr =>
    simp only [Stuck,ihl,ihr,operators,List.mem_cons,List.mem_append,reduceCtorEq,false_or,or_and_right,
      exists_or]
  | project input es ns ih =>
    rw [Stuck,ih]
    constructor
    · rintro (⟨hid,hbare⟩|⟨input',es',ns',hmem,h⟩)
      · exact ⟨input,es,ns,List.mem_cons_self,hid,hbare⟩
      · exact ⟨input',es',ns',List.mem_cons_of_mem _ hmem,h⟩
    · rintro ⟨input',es',ns',hmem,h⟩
      rcases List.mem_cons.1 hmem with heq|hmem
      · cases heq
        exact .inl h
      · exact .inr ⟨input',es',ns',hmem,h⟩

namespace ArrowScans

theorem filterScan_eq_error_iff {e : QueryError} : filterScan p = .error e ↔
    e = .unsupported .bareFilterCondition ∧ ∃ t condition es ns, ¬ condition.isCall ∧
      p = .project (.filter (.arrowScan t (List.range t.width)) condition) es ns := by
  constructor
  · intro h
    unfold filterScan at h
    split at h
    · rename_i t cols condition es ns
      split at h
      · cases h
      · rename_i hwhole
        rw [ne_eq,not_not] at hwhole
        subst hwhole
        split at h
        · dsimp only at h
          split at h <;> cases h
        · rename_i hbare
          cases h
          refine ⟨rfl,t,condition,es,ns,fun hcall => ?_,rfl⟩
          cases condition with
          | call op args t => exact hbare op args t rfl
          | _ => cases hcall
    · cases h
  · rintro ⟨rfl,t,condition,es,ns,hbare,rfl⟩
    unfold filterScan
    dsimp only
    rw [if_neg (by simp)]
    cases condition with
    | call op args t => exact absurd rfl hbare
    | _ => rfl

/-- An operator that the last rule has no objection to. -/
def Accepted (p : Plan) : Prop := ∃ rewritten, filterScan p = .ok rewritten

/-- A pass of the last rule ends in a plan just where the rule does at each operator. -/
theorem filterScan_pass_ok_iff :
    (∃ result, filterScanRule.pass p = .ok result) ↔ p.Everywhere Accepted := by
  have hfilter (t : Table) (cols : List Nat) (c : Expr) :
      (filter (.arrowScan t cols) c).Everywhere Accepted :=
    everywhere_filter.2 ⟨⟨none,rfl⟩,everywhere_arrowScan.2 ⟨none,rfl⟩⟩
  constructor
  · rintro ⟨result,h⟩
    induction hn : filterScanRule.rank p using Nat.strongRecOn generalizing p result with
    | ind n ih =>
      obtain ⟨rewritten,below,hr,hbelow,-⟩ := RewriteRule.pass_eq_ok h
      cases rewritten with
      | none =>
        refine everywhere_iff.2 ⟨⟨none,hr⟩,fun q hq => ?_⟩
        obtain ⟨b,-,hb⟩ := exists_of_forall₂ hbelow hq
        exact ih _ (hn ▸ RewriteRule.rank_lt_of_mem_inputs hr hq) b hb rfl
      | some q =>
        obtain ⟨t,condition,es,ns,rfl,-⟩ := filterScan_eq_some hr
        exact everywhere_project.2 ⟨⟨_,hr⟩,hfilter t _ condition⟩
  · refine RewriteRule.pass_total fun p hp => ?_
    obtain ⟨⟨rewritten,hr⟩,hinputs⟩ := everywhere_iff.1 hp
    refine ⟨rewritten,hr,?_⟩
    cases rewritten with
    | none => exact hinputs
    | some q =>
      obtain ⟨t,condition,es,ns,-,rfl⟩ := filterScan_eq_some hr
      rw [Option.getD_some]
      refine projectUnlessIdentity_induction (fun _ => ?_) fun _ => ?_
      · simpa [inputs] using everywhere_arrowScan.2 ⟨none,rfl⟩
      · simpa only [inputs,List.mem_singleton,forall_eq] using hfilter _ _ _

/-! ## Bare filters after the other rules -/

variable {input : Plan} {es : List Expr} {ns : List String}

theorem not_identity_of_quiet (h : (project input es ns).Everywhere (QuietFor earlier)) :
    ¬ Expr.isIdentity es input.width := by
  intro hid
  have hrests := (everywhere_project.1 h).1.2 IdentityProject.rule (by simp [earlier])
  exact absurd hrests (by simp [IdentityProject.rule,IdentityProject.apply,hid])

theorem eq_arrowScan_of_whole (hp : p.Everywhere (QuietFor earlier)) (h : p.Whole) :
    ∃ t, p = .arrowScan t (List.range t.width) := by
  cases p with
  | scan t => exact absurd ((everywhere_scan.1 hp).2 wholeScanRule (by simp [earlier])) (by rintro ⟨⟩)
  | arrowScan t cols =>
    obtain rfl : cols = List.range t.width := h
    exact ⟨t,rfl⟩
  | project input es ns => exact absurd h.1 (not_identity_of_quiet hp)
  | _ => exact h.elim

theorem bare_iff_of_quiet (hp : p.Everywhere (QuietFor earlier)) :
    p.Bare ↔ ∃ t condition, ¬ condition.isCall ∧
      p = .filter (.arrowScan t (List.range t.width)) condition := by
  constructor
  · intro h
    cases p with
    | filter input condition =>
      obtain ⟨t,rfl⟩ := eq_arrowScan_of_whole (everywhere_filter.1 hp).2 h.2
      exact ⟨t,condition,h.1,rfl⟩
    | project input es ns => exact absurd h.1 (not_identity_of_quiet hp)
    | _ => exact h.elim
  · rintro ⟨t,condition,hcall,rfl⟩
    exact ⟨hcall,rfl⟩

theorem everywhere_accepted_iff (hp : p.Everywhere (QuietFor earlier)) :
    p.Everywhere Accepted ↔ ¬ p.Stuck := by
  rw [stuck_iff]
  constructor
  · rintro h ⟨input,es,ns,hmem,-,hbare⟩
    obtain ⟨t,condition,hcall,rfl⟩ :=
      (bare_iff_of_quiet (everywhere_project.1 (hp.of_mem hmem)).2).1 hbare
    obtain ⟨rewritten,hr⟩ := h _ hmem
    rw [filterScan_eq_error_iff.2 ⟨rfl,t,condition,es,ns,hcall,rfl⟩] at hr
    cases hr
  · intro h n hn
    cases hr : filterScan n with
    | ok rewritten => exact ⟨rewritten,hr⟩
    | error e =>
      obtain ⟨-,t,condition,es,ns,hcall,rfl⟩ := filterScan_eq_error_iff.1 hr
      exact absurd ⟨_,es,ns,hn,not_identity_of_quiet (hp.of_mem hn),hcall,rfl⟩ h

end ArrowScans

/-! ## Whole programs -/

/-- The program fails on plans where a projection stands on a bare filter, as the last rule does, and
on no others. -/
theorem optimise_eq_error_iff (hp : p.WellPlaced ∧ p.Everywhere Unrewritten)
    (hnumbers : p.Everywhere AveragesNumbers) (hfirm : p.Everywhere Firm) {limit : Nat} {e : QueryError} :
    (optimise limit defaultRules p).1 = .error e ↔ e = .unsupported .bareFilterCondition ∧ p.Stuck := by
  obtain ⟨q,hq⟩ := optimise_earlier_total hp hnumbers limit
  have hquiet := (leadsThrough_earlier.optimise hp hq).1
  have halike : p.Alike q :=
    (optimise_induction keepsFirm_compatible (fun _ hrule _ _ => apply_keepsFirm hrule) hq hfirm).2
  have hlimit : 0 < max limit 1 := by omega
  change (optimise limit (ArrowScans.earlier ++ [ArrowScans.filterScanRule]) p).1 = .error e ↔ _
  rw [optimise_append_of_ok hq]
  cases hpass : ArrowScans.filterScanRule.pass q with
  | ok result =>
    have hfree := (ArrowScans.everywhere_accepted_iff hquiet).1
      (ArrowScans.filterScan_pass_ok_iff.1 ⟨result,hpass⟩)
    obtain ⟨k,hsettle⟩ := RewriteRule.settle_total hlimit hpass (ArrowScans.leads_filterScan q result hquiet hpass).2
    rw [optimise_cons_of_ok hsettle]
    constructor
    · intro h
      cases h
    · rintro ⟨-,hstuck⟩
      exact absurd (halike.stuck.2 hstuck) hfree
  | error e' =>
    obtain rfl : e' = .unsupported .bareFilterCondition :=
      RewriteRule.pass_error (E := fun e => e = .unsupported .bareFilterCondition)
        (fun _ _ h => (ArrowScans.filterScan_eq_error_iff.1 h).1) hpass
    have hstuck : q.Stuck := by
      by_contra hfree
      obtain ⟨result,hok⟩ := ArrowScans.filterScan_pass_ok_iff.2
        ((ArrowScans.everywhere_accepted_iff hquiet).2 hfree)
      rw [hpass] at hok
      cases hok
    rw [optimise_cons_of_error (RewriteRule.settle_error hlimit hpass),Except.error.injEq]
    exact ⟨fun h => ⟨h.symm,halike.stuck.1 hstuck⟩,fun h => h.1.symm⟩

/-! ## Queries -/

namespace Catalog
variable {c : Catalog} {query : Sql.Query}

/-- A query of one table whose condition comes to FALSE or NULL, where the projection on top of that
filter, be it of the select list or of what is grouped, is not the table as it is. -/
def ProjectsNoRows (c : Catalog) (query : Sql.Query) (p : Plan) : Prop :=
  ∃ s t v es ns, query.select? = some s ∧ Binding.ConstantWhere c s t v ∧
    (v = .boolean false ∨ v = .null) ∧
    .project (.filter (.scan t) (.literal v)) es ns ∈ p.operators ∧ ¬ Expr.isIdentity es t.width

theorem stuck_iff_projectsNoRows (hc : c.BooleanFree) (hp : c.bind query = .ok p) :
    p.Stuck ↔ c.ProjectsNoRows query p := by
  constructor
  · intro hstuck
    obtain ⟨s,hs,hselect⟩ := Binding.select_of_query hp
    obtain ⟨tables,scope,input,htables,hinput,hbare,es,ns,hmem,hid⟩ :=
      Binding.select_stuck hc hselect hstuck
    obtain ⟨t,v,hwhere,hv,rfl⟩ := Binding.constantWhere_of_bare hc htables hinput hbare
    exact ⟨s,t,v,es,ns,hs,hwhere,hv,hmem,hid⟩
  · rintro ⟨s,t,v,es,ns,-,-,-,hmem,hid⟩
    exact stuck_iff.2 ⟨_,es,ns,hmem,hid,nofun,trivial⟩

/-- Over a catalog without BOOLEAN and NULL columns, as those of directories are, optimising a bound
query fails just if the query projects no rows of a single table, and says that this is not supported.
Every other query that is bound is optimised to a plan. -/
theorem optimise_bind_fails_iff
    (hc : c.BooleanFree ∨ ∃ fs path caseSensitive, ofDirectory fs path caseSensitive = .ok c)
    (hp : c.bind query = .ok p) (limit : Nat) :
    ((∃ e, (optimise limit defaultRules p).1 = .error e) ↔ c.ProjectsNoRows query p) ∧
      ∀ e, (optimise limit defaultRules p).1 = .error e → e.code = "AETHRA_QUERY_UNSUPPORTED" := by
  have hfree : c.BooleanFree := by
    rcases hc with hc|⟨fs,path,caseSensitive,hc⟩
    · exact hc
    · exact ofDirectory_booleanFree hc
  have hplaced : p.WellPlaced := (Binding.query_bound hp).wellPlaced
  have hnumbers : p.Everywhere AveragesNumbers := fun n hn => by
    have hbuilt := Binding.query_built hp n hn
    cases n with
    | aggregate input groups calls => exact hbuilt.2
    | _ => trivial
  have hfirm : p.Everywhere Firm := by
    obtain ⟨s,-,hs⟩ := Binding.select_of_query hp
    exact Binding.select_firm hfree hs
  have herror (e : QueryError) : (optimise limit defaultRules p).1 = .error e ↔
      e = .unsupported .bareFilterCondition ∧ p.Stuck :=
    optimise_eq_error_iff ⟨hplaced,Binding.query_unrewritten hp⟩ hnumbers hfirm
  simp only [herror,exists_eq_left]
  refine ⟨stuck_iff_projectsNoRows hfree hp,?_⟩
  rintro e ⟨rfl,-⟩
  rfl

end Catalog

/-- The number of orders under a condition that nothing satisfies. -/
def countNoOrders : Sql.Query := .mk {} (.select {
    distinct := none
    top := none
    items := [.expr (.function [⟨"COUNT",none⟩] [.wildcard] none {}) none]
    into := none
    tables := [⟨.table [⟨"orders",none⟩] none none [] [],[]⟩]
    lateralViews := []
    selection := some (.value .null)
    groupBy := .exprs []
    clusterBy := []
    distributeBy := []
    sortBy := []
    having := none
    windows := []
    qualify := none })

def countNoOrdersPlan : Plan :=
  .project (.aggregate (.project (.filter (.scan orders) (.literal .null))
      [.literal (.integer 0)] ["$f0"]) [] [⟨.count,false,[],.bigInt,"EXPR$0"⟩])
    [.column 0 .bigInt] ["EXPR$0"]

theorem projectsNoRows_countNoOrders : shop.ProjectsNoRows countNoOrders countNoOrdersPlan :=
  ⟨_,orders,.null,_,_,rfl,⟨_,_,_,rfl,rfl,rfl,by decide +kernel⟩,.inr rfl,
    List.mem_cons_of_mem _ (List.mem_cons_of_mem _ List.mem_cons_self),by decide⟩

theorem optimise_countNoOrders_fails : shop.BooleanFree ∧ shop.bind countNoOrders = .ok countNoOrdersPlan ∧
    (∃ e, (optimise 10 defaultRules countNoOrdersPlan).1 = .error e) ∧
    ∀ e, (optimise 10 defaultRules countNoOrdersPlan).1 = .error e →
      e.code = "AETHRA_QUERY_UNSUPPORTED" := by
  have hfree : shop.BooleanFree := by decide
  have hp : shop.bind countNoOrders = .ok countNoOrdersPlan := by decide +kernel
  obtain ⟨hfails,hcode⟩ := Catalog.optimise_bind_fails_iff (.inl hfree) hp 10
  exact ⟨hfree,hp,hfails.2 projectsNoRows_countNoOrders,hcode⟩

end QueryPlan
