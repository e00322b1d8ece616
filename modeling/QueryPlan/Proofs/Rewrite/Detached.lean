import QueryPlan.Proofs.Relation.Detached
import QueryPlan.Proofs.Rewrite.Simulation

/-! # Rules do not look at files

Over tables apart from where they are, every rule makes the same rewrites, and a program ends with
the same plan or the same error. -/
namespace QueryPlan
open Plan

theorem Plan.withInputs_detached (p : Plan) (qs : List Plan) :
    p.detached.withInputs (qs.map detached) = (p.withInputs qs).detached := by
  cases p with
  | join left right c k =>
    match qs with
    | [] | [_] | _ :: _ :: _ => rfl
  | _ =>
    match qs with
    | [] | _ :: _ => rfl

theorem Plan.lockstep_detached : Lockstep fun p q => p.detached = q where
  inputs {p q} h := by
    rw [← h,inputs_detached]
    exact forall₂_map detached p.inputs
  withInputs {p q ps qs} h hs := by
    have hqs : ps.map detached = qs := by
      rwa [← List.forall₂_eq_eq_eq,List.forall₂_map_left_iff]
    rw [← h,← hqs,withInputs_detached]

/-- A rule rewrites plans alike wherever their tables are. -/
def RewriteRule.Detaches (rule : RewriteRule) : Prop :=
  ∀ p, rule.apply p.detached = (rule.apply p).map (Option.map Plan.detached)

theorem RewriteRule.Detaches.respects {rule : RewriteRule} (h : rule.Detaches) :
    rule.Respects fun p q => p.detached = q := by
  rintro p _ rfl
  rw [h p]
  cases rule.apply p with
  | error e => exact .error rfl
  | ok result =>
    cases result with
    | none => exact .ok .none
    | some q => exact .ok (.some rfl)

theorem optimise_detached {rules : List RewriteRule} (hrules : ∀ rule ∈ rules, rule.Detaches)
    (limit : Nat) (p : Plan) :
    (optimise limit rules p.detached).1 = (optimise limit rules p).1.map detached := by
  have hruns := optimise_rel lockstep_detached (fun rule hrule => (hrules rule hrule).respects)
    limit (rfl : p.detached = p.detached)
  generalize (optimise limit rules p).1 = x,(optimise limit rules p.detached).1 = y at hruns ⊢
  cases hruns with
  | ok h => exact congrArg Except.ok h.symm
  | error h => exact congrArg Except.error h.symm

/-! ## The rules of the program -/

theorem AverageSplit.detaches : rule.Detaches := by
  intro p
  change apply p.detached = (apply p).map _
  cases p with
  | aggregate input groups calls =>
    have hfields := fields_detached (.aggregate input groups calls)
    simp only [detached] at hfields
    simp only [apply,detached,hfields]
    split
    · rw [map_bind]
      rfl
    · rfl
  | _ => rfl

theorem FilterPushing.filtered_detached (p : Plan) (es : List Expr) :
    filtered p.detached es = (filtered p es).detached := by
  unfold filtered
  split <;> rfl

theorem FilterPushing.detaches : rule.Detaches := by
  intro p
  change apply p.detached = (apply p).map _
  cases p with
  | filter input condition =>
    cases input with
    | join left right on kind =>
      cases kind with
      | inner =>
        simp only [apply,detached,width_detached,filtered_detached]
        rfl
      | _ => rfl
    | _ => rfl
  | _ => rfl

theorem ColumnPruning.prune_detached (p : Plan) (cols : List Nat) :
    prune p.detached cols = (prune p cols).detached := by
  unfold prune
  rw [width_detached,fields_detached,projectDerived_detached]
  split <;> rfl

theorem ColumnPruning.detaches : rule.Detaches := by
  intro p
  change apply p.detached = (apply p).map _
  cases p with
  | project input exprs names =>
    cases input with
    | join left right on kind =>
      simp only [apply,detached,width_detached,prune_detached]
      split <;> rfl
    | _ => rfl
  | _ => rfl

theorem IdentityProject.detaches : rule.Detaches := by
  intro p
  change apply p.detached = (apply p).map _
  cases p with
  | project input exprs names =>
    simp only [apply,detached,width_detached]
    split <;> rfl
  | _ => rfl

namespace ArrowScans

theorem projectUnlessIdentity_detached (input : Plan) (exprs : List Expr) (names : List String) :
    projectUnlessIdentity input.detached exprs names
      = (projectUnlessIdentity input exprs names).detached := by
  unfold projectUnlessIdentity
  rw [width_detached]
  split <;> rfl

theorem projectScan_detaches : projectScanRule.Detaches := by
  intro p
  change projectScan p.detached = (projectScan p).map _
  cases p with
  | project input exprs names =>
    cases input with
    | scan t =>
      exact congrArg (fun q => Except.ok (some q)) (projectUnlessIdentity_detached
        (.arrowScan t (orFirst (Expr.addColumnsOf [] exprs) t)) _ names)
    | _ => rfl
  | _ => rfl

theorem wholeScan_detaches : wholeScanRule.Detaches := by
  intro p
  cases p <;> rfl

theorem filterScan_detaches : filterScanRule.Detaches := by
  intro p
  change filterScan p.detached = (filterScan p).map _
  cases p with
  | project input exprs names =>
    cases input with
    | filter input condition =>
      cases input with
      | arrowScan t whole =>
        have hwidth : t.detached.width = t.width := rfl
        have hfirst : ∀ cols, orFirst cols t.detached = orFirst cols t := fun _ => rfl
        simp only [filterScan,detached,hwidth,hfirst]
        split
        · rfl
        · cases condition with
          | call op args type =>
            dsimp only
            split
            · rfl
            · exact congrArg (fun q => Except.ok (some q)) (projectUnlessIdentity_detached
                (.filter (.arrowScan t _) _) _ names)
          | _ => rfl
      | _ => rfl
    | _ => rfl
  | _ => rfl

end ArrowScans

theorem detaches_of_mem {rule : RewriteRule} (h : rule ∈ defaultRules) : rule.Detaches := by
  simp only [defaultRules,List.mem_cons,List.not_mem_nil,or_false] at h
  rcases h with rfl|rfl|rfl|rfl|rfl|rfl|rfl
  · exact AverageSplit.detaches
  · exact FilterPushing.detaches
  · exact ColumnPruning.detaches
  · exact IdentityProject.detaches
  · exact ArrowScans.projectScan_detaches
  · exact ArrowScans.wholeScan_detaches
  · exact ArrowScans.filterScan_detaches

end QueryPlan
