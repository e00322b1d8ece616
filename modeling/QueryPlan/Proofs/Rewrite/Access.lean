import QueryPlan.Proofs.Rewrite.ArrowScans
import QueryPlan.Proofs.Rewrite.AverageSplit
import QueryPlan.Proofs.Rewrite.ColumnPruning
import QueryPlan.Proofs.Rewrite.FilterPushing
import QueryPlan.Rewrite.Program

/-! # Rules read no column that is not there

Each rule is repeated with every list access and every subtraction checked: what is out of range
gives no result at all. On plans that are well placed the checks never fail. -/
namespace QueryPlan

/-- A difference of column numbers, if it is one. -/
def minus? (a b : Nat) : Option Nat := if b ≤ a then some (a-b) else none

theorem minus?_eq_some {a b : Nat} (h : b ≤ a) : minus? a b = some (a-b) := if_pos h

/-- A check that every member passes leaves the results alone. -/
theorem mapM_eq_some_map {α β : Type} {f : α → Option β} {g : α → β} {xs : List α}
    (h : ∀ x ∈ xs, f x = some (g x)) : xs.mapM f = some (xs.map g) := by
  induction xs with
  | nil => rfl
  | cons x xs ih =>
    obtain ⟨hx,hxs⟩ := List.forall_mem_cons.1 h
    rw [List.mapM_cons,hx,ih hxs]
    rfl

namespace Expr

mutual
/-- Renumbers every column unless one of them has no new number. -/
def renumber? (f : Nat → Option Nat) : Expr → Option Expr
  | column i t => (f i).map fun i => column i t
  | literal v => some (literal v)
  | call op args t => (renumberAll? f args).map fun args => call op args t
def renumberAll? (f : Nat → Option Nat) : List Expr → Option (List Expr)
  | [] => some []
  | e :: es => do
    let e ← renumber? f e
    let es ← renumberAll? f es
    return e :: es
end

theorem renumberAll?_eq_mapM (f : Nat → Option Nat) (es : List Expr) :
    renumberAll? f es = es.mapM (renumber? f) := by
  induction es with
  | nil => rfl
  | cons e es ih => rw [renumberAll?,List.mapM_cons,ih]

theorem renumber?_eq_some {f : Nat → Option Nat} {g : Nat → Nat} {e : Expr}
    (h : ∀ i ∈ e.occurrences, f i = some (g i)) : e.renumber? f = some (e.renumber g) := by
  induction e using induct with
  | column i t => simp [renumber?,renumber,h i (by simp [occurrences])]
  | literal v => rfl
  | call op args t ih =>
    have hargs : args.mapM (renumber? f) = some (args.map (renumber g)) :=
      mapM_eq_some_map fun e he => ih e he fun i hi => h i (by
        rw [occurrences_call]
        exact List.mem_flatMap.2 ⟨e,he,hi⟩)
    rw [renumber?,renumberAll?_eq_mapM,hargs,renumber_call]
    rfl

end Expr

/-- A rule and what it does when every access is checked. -/
structure CheckedRule extends RewriteRule where
  attempt : Plan → Option (Except QueryError (Option Plan))

open Plan

namespace AverageSplit

/-- The columns of the old aggregate are read at the places of the keys. -/
def attempt : Plan → Option (Except QueryError (Option Plan))
  | .aggregate input groups calls =>
    if calls.any (·.function == .avg) then do
      let old := (Plan.aggregate input groups calls).fields
      let keys ← (List.range groups.length).mapM fun i => do
        let field ← old[i]?
        return Expr.column i field.type
      return do
        let (placed,values) ← splitCalls groups.length [] calls
        return some (.project (.aggregate input groups placed) (keys ++ values) (old.map Field.name))
    else some (.ok none)
  | _ => some (.ok none)

theorem attempt_eq_some {p : Plan} (hp : p.WellPlaced) : attempt p = some (apply p) := by
  unfold attempt
  split
  · rename_i input groups calls
    have hkeys : ((List.range groups.length).mapM fun i => do
        let field ← (Plan.aggregate input groups calls).fields[i]?
        return Expr.column i field.type) = some ((List.range groups.length).map fun i =>
          Expr.column i ((((Plan.aggregate input groups calls).fields[i]?).map Field.type).getD .null)) := by
      refine mapM_eq_some_map fun i hi => ?_
      have hlt : i < (Plan.aggregate input groups calls).fields.length := by
        rw [hp.length_fields,width]
        exact Nat.lt_add_right _ (List.mem_range.1 hi)
      rw [List.getElem?_eq_getElem hlt]
      rfl
    by_cases havg : calls.any (·.function == .avg)
    · rw [if_pos havg]
      dsimp only
      rw [hkeys]
      exact congrArg some (if_pos havg).symm
    · rw [if_neg havg]
      exact congrArg some (if_neg havg).symm
  · rename_i h
    unfold apply
    split
    · exact absurd rfl (h _ _ _)
    · rfl

def checked : CheckedRule := { rule with attempt }

end AverageSplit

namespace FilterPushing

/-- The numbers of the left columns are taken off those of the right ones. -/
def attempt : Plan → Option (Except QueryError (Option Plan))
  | .filter (.join left right on .inner) condition => do
    let ofRight ← (among left.width condition on .right).mapM
      (Expr.renumber? fun i => minus? i left.width)
    return .ok (some (.join (filtered left (among left.width condition on .left))
      (filtered right ofRight) (Expr.all (among left.width condition on .both)) .inner))
  | _ => some (.ok none)

theorem attempt_eq_some (p : Plan) : attempt p = some (apply p) := by
  unfold attempt
  split
  · rename_i left right on condition
    have hright : (among left.width condition on .right).mapM
        (Expr.renumber? fun i => minus? i left.width)
        = some ((among left.width condition on .right).map (Expr.shiftDown left.width)) :=
      mapM_eq_some_map fun e he => Expr.renumber?_eq_some fun i hi =>
        minus?_eq_some (le_of_side_right (side_of_mem_among he) i hi)
    rw [hright]
    rfl
  · rename_i h
    unfold apply
    split
    · exact absurd rfl (h _ _ _ _)
    · rfl

def checked : CheckedRule := { rule with attempt }

end FilterPushing

namespace ColumnPruning

/-- The types of the columns kept are read off those of the input. -/
def prune? (input : Plan) (cols : List Nat) : Option Plan :=
  if cols.length = input.width then some input
  else do
    let given := input.fields
    let exprs ← cols.mapM fun c => do
      let field ← given[c]?
      return Expr.column c field.type
    return input.projectDerived exprs

def moved? (leftWidth : Nat) (left right : List Nat) (i : Nat) : Option Nat :=
  if i < leftWidth then some (Expr.positionIn left i)
  else (minus? i leftWidth).map fun j => left.length + Expr.positionIn right j

/-- The number of the left columns is taken off those of the right ones, once to keep these and
once to renumber them. -/
def attempt : Plan → Option (Except QueryError (Option Plan))
  | .project (.join left right on kind) exprs names => do
    let ofLeft := keep ((needed exprs on).filter (· < left.width)) left.width
    let right' ← ((needed exprs on).filter (left.width ≤ ·)).mapM (minus? · left.width)
    let ofRight := keep right' right.width
    if ofLeft.length = left.width ∧ ofRight.length = right.width then return .ok none
    else
      let left' ← prune? left ofLeft
      let right' ← prune? right ofRight
      let on' ← on.renumber? (moved? left.width ofLeft ofRight)
      let exprs' ← exprs.mapM (Expr.renumber? (moved? left.width ofLeft ofRight))
      return .ok (some (.project (.join left' right' on' kind) exprs' names))
  | _ => some (.ok none)

theorem prune?_eq_some {p : Plan} {cols : List Nat} (hp : p.WellPlaced)
    (h : ∀ c ∈ cols, c < p.width) : prune? p cols = some (prune p cols) := by
  unfold prune? prune
  split
  · rfl
  · have hexprs : (cols.mapM fun c => do
        let field ← p.fields[c]?
        return Expr.column c field.type)
        = some (cols.map fun c => Expr.column c (((p.fields[c]?).map Field.type).getD .null)) := by
      refine mapM_eq_some_map fun c hc => ?_
      have hlt := h c hc
      rw [← hp.length_fields] at hlt
      rw [List.getElem?_eq_getElem hlt]
      rfl
    dsimp only
    rw [hexprs]
    rfl

theorem moved?_eq_some {leftWidth i : Nat} {left right : List Nat} :
    moved? leftWidth left right i = some (moved leftWidth left right i) := by
  unfold moved? moved
  split
  · rfl
  · rw [minus?_eq_some (by omega)]
    rfl

theorem attempt_eq_some {p : Plan} (hp : p.WellPlaced) : attempt p = some (apply p) := by
  unfold attempt
  split
  · rename_i left right on kind exprs names
    obtain ⟨hes,-,hj⟩ := wellPlaced_project.1 hp
    obtain ⟨hon,hl,hr⟩ := wellPlaced_join.1 hj
    have hright : ((needed exprs on).filter (left.width ≤ ·)).mapM (minus? · left.width)
        = some (((needed exprs on).filter (left.width ≤ ·)).map (· - left.width)) :=
      mapM_eq_some_map fun i hi => minus?_eq_some (by simpa using (List.mem_filter.1 hi).2)
    have hexprs (ofLeft ofRight : List Nat) :
        exprs.mapM (Expr.renumber? (moved? left.width ofLeft ofRight))
          = some (exprs.map (Expr.renumber (moved left.width ofLeft ofRight))) :=
      mapM_eq_some_map fun e _ => Expr.renumber?_eq_some fun i _ => moved?_eq_some
    have hon' (ofLeft ofRight : List Nat) : on.renumber? (moved? left.width ofLeft ofRight)
        = some (on.renumber (moved left.width ofLeft ofRight)) :=
      Expr.renumber?_eq_some fun i _ => moved?_eq_some
    have hordered : ColumnPruning.InOrder left.width (fromLeft left.width exprs on) := inOrder_fromLeft
    have hleft := prune?_eq_some hl hordered.2
    have hkept := prune?_eq_some hr (inOrder_fromRight (needed_lt hes hon hl hr)).2
    by_cases hkeep : (fromLeft left.width exprs on).length = left.width ∧
        (fromRight left.width right.width exprs on).length = right.width
    · rw [hright]
      exact (if_pos hkeep).trans (congrArg some (if_pos hkeep).symm)
    · rw [hright]
      refine Eq.trans (if_neg hkeep) ?_
      unfold fromLeft at hleft
      unfold fromRight at hkept
      rw [hleft,hkept,hon',hexprs]
      exact congrArg some (if_neg hkeep).symm
  · rename_i h
    unfold apply
    split
    · exact absurd rfl (h _ _ _ _ _ _)
    · rfl

def checked : CheckedRule := { rule with attempt }

end ColumnPruning

/-! ## The rules and their runs -/

namespace ArrowScans

def checkedProjectScan : CheckedRule :=
  { projectScanRule with attempt := fun p => some (projectScan p) }

def checkedWholeScan : CheckedRule :=
  { wholeScanRule with attempt := fun p => some (wholeScan p) }

def checkedFilterScan : CheckedRule :=
  { filterScanRule with attempt := fun p => some (filterScan p) }

end ArrowScans

def IdentityProject.checked : CheckedRule :=
  { IdentityProject.rule with attempt := fun p => some (IdentityProject.apply p) }

/-- The rules of every plan with their checks; those on single inputs and on scans look up nothing
without asking. -/
def checkedRules : List CheckedRule :=
  [AverageSplit.checked,FilterPushing.checked,ColumnPruning.checked,IdentityProject.checked,
    ArrowScans.checkedProjectScan,ArrowScans.checkedWholeScan,ArrowScans.checkedFilterScan]

theorem map_checkedRules : checkedRules.map CheckedRule.toRewriteRule = defaultRules := rfl

namespace CheckedRule
variable {rule : CheckedRule} {p q : Plan}

/-- No check fails in a pass, nor does it change what the rule does, at any operator it is offered. -/
inductive PassSafe (rule : CheckedRule) : Plan → Prop where
  | intro {p : Plan} : rule.attempt p = some (rule.apply p) →
      (∀ rewritten, rule.apply p = .ok rewritten →
        ∀ q ∈ (rewritten.getD p).inputs, PassSafe rule q) → PassSafe rule p

/-- No check fails in a number of passes. -/
def SettleSafe (rule : CheckedRule) : Nat → Plan → Prop
  | 0,_ => True
  | limit+1,p => rule.PassSafe p ∧ ∀ q, rule.pass p = .ok (some q) → rule.SettleSafe limit q

theorem attempt_eq_some (hrule : rule ∈ checkedRules) (hp : p.WellPlaced) :
    rule.attempt p = some (rule.apply p) := by
  simp only [checkedRules,List.mem_cons,List.not_mem_nil,or_false] at hrule
  rcases hrule with rfl|rfl|rfl|rfl|rfl|rfl|rfl
  · exact AverageSplit.attempt_eq_some hp
  · exact FilterPushing.attempt_eq_some p
  · exact ColumnPruning.attempt_eq_some hp
  · rfl
  · rfl
  · rfl
  · rfl

theorem apply_keepsShape (hrule : rule ∈ checkedRules) (h : rule.apply p = .ok (some q)) :
    KeepsShape p q := by
  simp only [checkedRules,List.mem_cons,List.not_mem_nil,or_false] at hrule
  rcases hrule with rfl|rfl|rfl|rfl|rfl|rfl|rfl
  · exact AverageSplit.apply_keepsShape h
  · exact FilterPushing.apply_keepsShape h
  · exact ColumnPruning.apply_keepsShape h
  · exact IdentityProject.apply_keepsShape h
  · exact ArrowScans.projectScan_keepsShape h
  · exact ArrowScans.wholeScan_keepsShape h
  · exact ArrowScans.filterScan_keepsShape h

theorem passSafe (hrule : rule ∈ checkedRules) (hp : p.WellPlaced) : rule.PassSafe p := by
  induction hn : rule.rank p using Nat.strongRecOn generalizing p with
  | ind n ih =>
    refine .intro (attempt_eq_some hrule hp) fun rewritten hr q hq => ?_
    have hroot : (rewritten.getD p).WellPlaced := by
      cases rewritten with
      | none => exact hp
      | some r => exact (apply_keepsShape hrule hr hp).1
    exact ih _ (hn ▸ RewriteRule.rank_lt_of_mem_inputs hr hq) (hroot.inputs q hq) rfl

theorem settleSafe (hrule : rule ∈ checkedRules) (limit : Nat) (hp : p.WellPlaced) :
    rule.SettleSafe limit p := by
  induction limit generalizing p with
  | zero => trivial
  | succ limit ih =>
    refine ⟨passSafe hrule hp,fun q hq => ih ?_⟩
    exact (RewriteRule.pass_induction keepsShape_compatible
      (fun _ _ => apply_keepsShape hrule) hq hp).1

end CheckedRule

theorem apply_keepsShape {rule : RewriteRule} (hrule : rule ∈ defaultRules) {p q : Plan}
    (h : rule.apply p = .ok (some q)) : KeepsShape p q := by
  have hchecked : rule ∈ checkedRules.map CheckedRule.toRewriteRule := hrule
  obtain ⟨checked,hmem,rfl⟩ := List.mem_map.1 hchecked
  exact CheckedRule.apply_keepsShape hmem h

/-- No check fails while a program runs. -/
def RunSafe (limit : Nat) : List CheckedRule → Plan → Prop
  | [],_ => True
  | rule :: rules,p => rule.SettleSafe (max limit 1) p ∧
      ∀ q passes, rule.settle (max limit 1) p = .ok (q,passes) → RunSafe limit rules q

theorem runSafe {rules : List CheckedRule} (hrules : rules ⊆ checkedRules) (limit : Nat) {p : Plan}
    (hp : p.WellPlaced) : RunSafe limit rules p := by
  induction rules generalizing p with
  | nil => trivial
  | cons rule rules ih =>
    obtain ⟨hrule,hrest⟩ := List.cons_subset.1 hrules
    refine ⟨CheckedRule.settleSafe hrule _ hp,fun q passes hq => ih hrest ?_⟩
    exact (RewriteRule.settle_induction keepsShape_compatible
      (fun _ _ => CheckedRule.apply_keepsShape hrule) hq hp).1

end QueryPlan
