import QueryPlan.Proofs.Rewrite.ArrowScans
import QueryPlan.Proofs.Rewrite.AverageSplit
import QueryPlan.Proofs.Rewrite.ColumnPruning
import QueryPlan.Proofs.Rewrite.FilterPushing
import QueryPlan.Rewrite.Program

/-! # The rule program keeps the meaning of plans -/
namespace QueryPlan

variable {α : Type} [DecidableEq α] {I : Interpretation α} {db : Database α}

theorem apply_keepsRows {rule : RewriteRule} (hrule : rule ∈ defaultRules) {p q : Plan}
    (h : rule.apply p = .ok (some q)) : Plan.KeepsRows I db p q := by
  simp only [defaultRules,List.mem_cons,List.not_mem_nil,or_false] at hrule
  rcases hrule with rfl|rfl|rfl|rfl|rfl|rfl|rfl
  · exact AverageSplit.apply_keepsRows h
  · exact FilterPushing.apply_keepsRows h
  · exact ColumnPruning.apply_keepsRows h
  · exact IdentityProject.apply_keepsRows h
  · exact ArrowScans.projectScan_keepsRows h
  · exact ArrowScans.wholeScan_keepsRows h
  · exact ArrowScans.filterScan_keepsRows h

/-- Whatever the limit, an optimised plan denotes the bag of rows of the plan it comes from, over
every database and for all meanings of operators and aggregate functions. -/
theorem rows_optimise (I : Interpretation α) (db : Database α) {limit : Nat} {p q : Plan}
    (hp : p.WellPlaced) (h : (optimise limit defaultRules p).1 = .ok q) :
    q.rows I db = p.rows I db :=
  (optimise_induction Plan.keepsRows_compatible (fun _ hrule _ _ => apply_keepsRows hrule) h).2 hp

section
open Plan

/-- The average of the larger orders from every city. -/
def averagePerCity : Plan :=
  .aggregate (.filter (.join (.scan orders) (.scan customers)
      (.call .eq [.column 2 .integer,.column 3 .integer] .boolean) .inner)
    (.call .gt [.column 1 .integer,.literal (.integer 10)] .boolean))
  [4] [⟨.avg,false,[1],.integer,"mean"⟩]

def averagePerCityOptimised : Plan :=
  .project (.aggregate (.join
      (.filter (.arrowScan orders [0,1,2]) (.call .gt [.column 1 .integer,.literal (.integer 10)] .boolean))
      (.arrowScan customers [0,1]) (.call .eq [.column 2 .integer,.column 3 .integer] .boolean) .inner)
    [4] [⟨.sum,false,[1],.integer,"$f1"⟩,⟨.count,false,[1],.bigInt,"$f2"⟩])
  [.column 0 .varchar,.cast (.call .divide [.column 1 .integer,.column 2 .bigInt] .bigInt) .integer]
  ["city","mean"]

/-- Whole numbers compared as such; every aggregate counts. -/
def counting : Interpretation Int where
  literal
    | .integer v => .datum v.toInt
    | _ => .null
  operator
    | .eq,_,[a,b] => .truth (a = b)
    | .gt,_,[.datum a,.datum b] => .truth (b < a)
    | _,_,_ => .null
  aggregate _ _ rows := .datum rows.card

/-- Every table has one row, of the same number throughout. -/
def singletons : Database Int where
  rows t := {List.replicate t.width (.datum 20)}
  length_row t r hr := by rw [Multiset.mem_singleton.1 hr,List.length_replicate]

theorem wellPlaced_averagePerCity : averagePerCity.WellPlaced := by
  simp [averagePerCity,orders,customers,types,width,Table.width,AggregateCall.Fits,
    AggregateFunction.resultType]

theorem optimise_averagePerCity :
    (optimise 5 defaultRules averagePerCity).1 = .ok averagePerCityOptimised := by decide +kernel

theorem rows_optimise_averagePerCity :
    averagePerCity.WellPlaced ∧
    (optimise 5 defaultRules averagePerCity).1 = .ok averagePerCityOptimised ∧
    averagePerCityOptimised.rows counting singletons = averagePerCity.rows counting singletons :=
  ⟨wellPlaced_averagePerCity,optimise_averagePerCity,
    rows_optimise counting singletons wellPlaced_averagePerCity optimise_averagePerCity⟩

end

end QueryPlan
