import QueryPlan.Proofs.Rewrite.Access
import QueryPlan.Proofs.Rewrite.Meaning

/-! # Programs keep plans well formed -/
namespace QueryPlan
open Plan

namespace CheckedRule
variable {rule : CheckedRule} {p q : Plan}

theorem apply_keepsSound {conditions : Prop} (hrule : rule ∈ checkedRules)
    (hconditions : rule = FilterPushing.checked → conditions) (h : rule.apply p = .ok (some q)) :
    KeepsSound conditions p q := by
  simp only [checkedRules,List.mem_cons,List.not_mem_nil,or_false] at hrule
  rcases hrule with rfl|rfl|rfl|rfl|rfl|rfl|rfl
  · exact AverageSplit.apply_keepsSound h
  · exact FilterPushing.apply_keepsSound (hconditions rfl) h
  · exact ColumnPruning.apply_keepsSound h
  · exact IdentityProject.apply_keepsSound h
  · exact ArrowScans.projectScan_keepsSound h
  · exact ArrowScans.wholeScan_keepsSound h
  · exact ArrowScans.filterScan_keepsSound h

end CheckedRule

/-- The rules that keep the names of the columns. -/
def namingRules : List CheckedRule :=
  [AverageSplit.checked,FilterPushing.checked,ColumnPruning.checked,ArrowScans.checkedWholeScan]

theorem CheckedRule.apply_keepsFields {rule : CheckedRule} {p q : Plan} (hrule : rule ∈ namingRules)
    (h : rule.apply p = .ok (some q)) : KeepsFields p q := by
  simp only [namingRules,List.mem_cons,List.not_mem_nil,or_false] at hrule
  rcases hrule with rfl|rfl|rfl|rfl
  · exact AverageSplit.apply_keepsFields h
  · exact FilterPushing.apply_keepsFields h
  · exact ColumnPruning.apply_keepsFields h
  · exact ArrowScans.wholeScan_keepsFields h

section
variable {limit : Nat} {rules : List CheckedRule} {p q : Plan}

/-- What every rule of a program keeps is kept by its run. -/
theorem run_induction {R : Plan → Plan → Prop} (hR : Compatible R)
    (happly : ∀ rule ∈ rules, ∀ p q, rule.apply p = .ok (some q) → R p q)
    (h : (optimise limit (rules.map CheckedRule.toRewriteRule) p).1 = .ok q) : R p q :=
  optimise_induction hR (List.forall_mem_map.2 happly) h

/-- A program of these rules, with any limit, reads no column that is not there and takes no number
off a smaller one. What it makes of a well-formed plan is well placed, over the same tables, with
columns of the same types, and with the same names if its rules keep those. Its calls have their types
as well, unless filters are pushed into joins: then conditions have to be BOOLEAN or NULL, and they stay
so. -/
theorem optimise_wellFormed (hrules : rules ⊆ checkedRules) (hp : p.WellFormed) :
    RunSafe limit rules p ∧
    ∀ q, (optimise limit (rules.map CheckedRule.toRewriteRule) p).1 = .ok q →
      q.WellPlaced ∧ q.width = p.width ∧ q.fields.map Field.type = p.fields.map Field.type ∧
      q.scans = p.scans ∧ q.tableNames = p.tableNames ∧
      (rules ⊆ namingRules → q.fields.map Field.name = p.fields.map Field.name) ∧
      ((FilterPushing.checked ∈ rules → p.Everywhere ConditionFits) →
        q.WellFormed ∧ (FilterPushing.checked ∈ rules → q.Everywhere ConditionFits)) := by
  refine ⟨runSafe hrules limit hp.toWellPlaced,fun q hq => ?_⟩
  have hshape : KeepsShape p q := run_induction keepsShape_compatible
    (fun rule hrule _ _ => CheckedRule.apply_keepsShape (hrules hrule)) hq
  obtain ⟨hplaced,htypes,hscans⟩ := hshape hp.toWellPlaced
  refine ⟨hplaced,hshape.width_eq hp.toWellPlaced,?_,hscans,?_,fun hnames => ?_,fun hconditions => ?_⟩
  · rw [map_type_fields hplaced.names,map_type_fields hp.names,htypes]
  · rw [tableNames,tableNames,hscans]
  · have hfields : KeepsFields p q := run_induction keepsFields_compatible
      (fun rule hrule _ _ => CheckedRule.apply_keepsFields (hnames hrule)) hq
    rw [hfields.2 hp.toWellPlaced]
  · have hsound : KeepsSound (FilterPushing.checked ∈ rules) p q :=
      run_induction keepsSound_compatible
        (fun rule hrule _ _ => CheckedRule.apply_keepsSound (hrules hrule) fun h => h ▸ hrule) hq
    obtain ⟨hcalls,hcond⟩ := everywhere_sound_iff.1
      (hsound (everywhere_sound_iff.2 ⟨hp.calls,hconditions⟩))
    exact ⟨⟨hplaced,hcalls⟩,hcond⟩

end

theorem wellFormed_averagePerCity : averagePerCity.WellFormed where
  toWellPlaced := wellPlaced_averagePerCity
  calls := by
    simp [averagePerCity,orders,customers,CallsTyped,exprs,Expr.type,Literal.type,
      Operator.resultType?,Operator.isComparison,SqlType.comparableWith]

theorem optimise_wellFormed_averagePerCity :
    checkedRules ⊆ checkedRules ∧ averagePerCity.WellFormed ∧
    averagePerCity.Everywhere ConditionFits ∧ RunSafe 5 checkedRules averagePerCity ∧
    averagePerCityOptimised.WellFormed ∧ averagePerCityOptimised.width = averagePerCity.width := by
  have hconditions : averagePerCity.Everywhere ConditionFits := by
    simp [averagePerCity,ConditionFits,Expr.type,SqlType.isBooleanLike]
  obtain ⟨hsafe,hrun⟩ := @optimise_wellFormed 5 _ _ (List.Subset.refl checkedRules)
    wellFormed_averagePerCity
  obtain ⟨-,hwidth,-,-,-,-,hsound⟩ := hrun _ optimise_averagePerCity
  exact ⟨List.Subset.refl _,wellFormed_averagePerCity,hconditions,hsafe,
    (hsound fun _ => hconditions).1,hwidth⟩

/-- Orders with customers, on conditions that are whole numbers. -/
def bareConditions : Plan :=
  .filter (.join (.scan orders) (.scan customers) (.column 1 .integer) .inner) (.column 0 .integer)

/-- The two conditions meet in a conjunction that no operands of these types have. -/
def bareConditionsPushed : Plan :=
  .join (.filter (.scan orders) (.call .and [.column 0 .integer,.column 1 .integer] .boolean))
    (.scan customers) .true .inner

theorem bareConditionsPushed_not_wellFormed : bareConditions.WellFormed ∧
    (optimise 1 [FilterPushing.rule] bareConditions).1 = .ok bareConditionsPushed ∧
    ¬ bareConditionsPushed.WellFormed := by
  refine ⟨⟨?_,?_⟩,by decide +kernel,fun h => ?_⟩
  · simp [bareConditions,orders,customers,types]
  · simp [bareConditions,CallsTyped,exprs]
  · have hcalls := h.calls
    simp [bareConditionsPushed,CallsTyped,exprs,Operator.resultType?,Expr.type,
      SqlType.isBooleanLike] at hcalls

end QueryPlan
