import QueryPlan.Proofs.Binding.Layers
import QueryPlan.Proofs.Binding.Query
import QueryPlan.Proofs.Rewrite.Narrowing

/-! # Optimised plans are at rest

Bound plans are layered as the first rule needs it, and each rule hands its plan on as the next one
needs it. So every rule is done after one pass, no later rule wakes an earlier one, and the plan that
comes out is one that no rule changes any more. -/
namespace QueryPlan
open Plan

/-- The rules before the ones that are about scans lead a plan as it was bound to one at which they
are quiet. -/
theorem leadsThrough_firstRules : LeadsThrough (fun p => p.WellPlaced ∧ p.Everywhere Unrewritten)
    (defaultRules.take 4) (Everywhere (QuietFor (defaultRules.take 4))) := by
  have hplaced : ∀ rule : RewriteRule,
      (∀ p q, rule.apply p = .ok (some q) → KeepsShape p q) →
      ∀ p q, rule.pass p = .ok (some q) → p.WellPlaced → q.WellPlaced := fun rule happly p q h hp =>
    (RewriteRule.pass_induction keepsShape_compatible happly h hp).1
  refine .step ((AverageSplit.settles.leads ?_).and
    (hplaced _ fun _ _ => AverageSplit.apply_keepsShape)) ?_
  · exact fun p hp => hp.1.2 _ (by simp)
  refine .step (((FilterPushing.settles.leads ?_).imp fun _ => .of_everywhere).and
    (hplaced _ fun _ _ => FilterPushing.apply_keepsShape)) ?_
  · exact fun p hp => hp.1.2 _ (by simp)
  refine .step ((ColumnPruning.settles.leads ?_).imp fun p hp => .of_everywhere hp.1 hp.2) ?_
  · exact fun p hp => hp.2 _ (by simp)
  refine .step (IdentityProject.settles.leads ?_) (.done _)
  exact fun p hp => hp.2 _ (by simp)

theorem ArrowScans.leads_projectScan : projectScanRule.Leads
    (Everywhere (QuietFor (earlier.take 4))) (Everywhere (QuietFor (earlier.take 5))) :=
  projectScan_settles.leads fun _ hp => hp.2 _ (by simp [earlier])

theorem ArrowScans.leads_wholeScan : wholeScanRule.Leads
    (Everywhere (QuietFor (earlier.take 5))) (Everywhere (QuietFor earlier)) :=
  wholeScan_settles.leads fun _ hp => hp.2 _ (by simp [earlier])

theorem ArrowScans.leads_filterScan : filterScanRule.Leads
    (Everywhere (QuietFor earlier)) (Everywhere (QuietFor defaultRules)) :=
  filterScan_settles.leads fun _ hp => hp.2 _ (by simp)

/-- The rules of the program lead a plan as it was bound to one at which they all are quiet. -/
theorem leadsThrough_defaultRules : LeadsThrough (fun p => p.WellPlaced ∧ p.Everywhere Unrewritten)
    defaultRules (Everywhere (QuietFor defaultRules)) :=
  leadsThrough_firstRules.append (.step ArrowScans.leads_projectScan
    (.step ArrowScans.leads_wholeScan (.step ArrowScans.leads_filterScan (.done _))))

/-- What a query is optimised to is at rest under all rules at once: none matches at any operator,
and a second run changes nothing. In the first run each rule has at most one pass that changes the
plan handed to it, as the log of the run says. -/
theorem Catalog.optimise_bind_rests {c : Catalog} {query : Sql.Query} {p q : Plan} {limit : Nat}
    (hp : c.bind query = .ok p) (hq : (optimise limit defaultRules p).1 = .ok q) :
    (∀ rule ∈ defaultRules, ∀ n ∈ q.operators, rule.apply n = .ok none) ∧
      (∀ again, optimise again defaultRules q = (.ok q,[])) ∧
      ∃ counts, passCounts limit defaultRules p = .ok counts ∧
        (optimise limit defaultRules p).2 = logOf limit defaultRules counts ∧ ∀ k ∈ counts, k ≤ 1 := by
  have hbound : p.Bound := Binding.query_bound hp
  have hplaced : p.WellPlaced :=
    ⟨fun n hn => (hbound n hn).columns,fun n hn => (hbound n hn).names⟩
  have hlayers : p.Everywhere Unrewritten := Binding.query_unrewritten hp
  obtain ⟨hquiet,counts,hcounts,hle⟩ := leadsThrough_defaultRules.optimise ⟨hplaced,hlayers⟩ hq
  have hrests : ∀ rule ∈ defaultRules, rule.Rests q :=
    fun rule hrule n hn => (hquiet n hn).2 rule hrule
  exact ⟨hrests,optimise_of_rests hrests,counts,hcounts,optimise_entries hcounts,hle⟩

/-- The plan of the busy cities, optimised. -/
def busyCitiesOptimised : Plan :=
  .filter (.aggregate (.project (.join
        (.project (.filter (.arrowScan orders [1,2])
            (.call .and [.call .gt [.column 0 .integer,.literal (.integer 10)] .boolean,
              .call .gtEq [.column 0 .integer,.literal (.integer 5)] .boolean,
              .call .ltEq [.column 0 .integer,.literal (.integer 20)] .boolean] .boolean))
          [.column 1 .integer] ["customer"])
        (.arrowScan customers [0,1])
        (.call .eq [.column 0 .integer,.column 1 .integer] .boolean) .inner)
      [.column 2 .varchar] ["city"]) [0] [⟨.count,false,[],.bigInt,"EXPR$1"⟩])
    (.call .gt [.column 1 .bigInt,.literal (.integer 3)] .boolean)

theorem optimise_busyCities :
    (optimise 10 defaultRules busyCitiesPlan).1 = .ok busyCitiesOptimised := by
  unfold defaultRules ColumnPruning.rule ArrowScans.filterScanRule
  delta ColumnPruning.apply ArrowScans.filterScan
  simp only [mergeSort_le]
  decide +kernel

theorem optimise_busyCities_rests : shop.bind busyCities = .ok busyCitiesPlan ∧
    (optimise 10 defaultRules busyCitiesPlan).1 = .ok busyCitiesOptimised ∧
    (∀ rule ∈ defaultRules, ∀ n ∈ busyCitiesOptimised.operators, rule.apply n = .ok none) ∧
      (∀ again, optimise again defaultRules busyCitiesOptimised = (.ok busyCitiesOptimised,[])) ∧
      ∃ counts, passCounts 10 defaultRules busyCitiesPlan = .ok counts ∧
        (optimise 10 defaultRules busyCitiesPlan).2 = logOf 10 defaultRules counts ∧
        ∀ k ∈ counts, k ≤ 1 := by
  have hp : shop.bind busyCities = .ok busyCitiesPlan := by decide +kernel
  exact ⟨hp,optimise_busyCities,Catalog.optimise_bind_rests hp optimise_busyCities⟩

end QueryPlan
