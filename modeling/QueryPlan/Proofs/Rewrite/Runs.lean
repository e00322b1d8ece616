import QueryPlan.Proofs.Except
import QueryPlan.Rewrite.Program

/-! # What a rule keeps is kept by a run

A relation between plans that is carried up from inputs to an operator and holds of what a rule
makes of one operator holds of what passes, loops and programs make of a plan. -/
namespace QueryPlan

/-- A relation between a plan and what becomes of it that can be built up step by step, and from the
inputs of an operator to the operator. -/
structure Plan.Compatible (R : Plan → Plan → Prop) : Prop where
  refl : ∀ p, R p p
  trans : ∀ p q r, R p q → R q r → R p r
  filter : ∀ p q condition, R p q → R (.filter p condition) (.filter q condition)
  project : ∀ p q exprs names, R p q → R (.project p exprs names) (.project q exprs names)
  join : ∀ p q p' q' condition kind, R p q → R p' q' →
    R (.join p p' condition kind) (.join q q' condition kind)
  aggregate : ∀ p q groups calls, R p q → R (.aggregate p groups calls) (.aggregate q groups calls)

theorem Plan.Compatible.withInputs {R : Plan → Plan → Prop} (hR : Plan.Compatible R) {p : Plan}
    {qs : List Plan} (h : p.inputs.Forall₂ R qs) : R p (p.withInputs qs) := by
  cases p with
  | scan t => exact hR.refl _
  | arrowScan t cols => exact hR.refl _
  | filter input c =>
    obtain ⟨q,_,hq,_,rfl⟩ := List.forall₂_cons_left_iff.1 h
    exact hR.filter _ _ c hq
  | project input es ns =>
    obtain ⟨q,_,hq,_,rfl⟩ := List.forall₂_cons_left_iff.1 h
    exact hR.project _ _ es ns hq
  | aggregate input gs cs =>
    obtain ⟨q,_,hq,_,rfl⟩ := List.forall₂_cons_left_iff.1 h
    exact hR.aggregate _ _ gs cs hq
  | join left right c k =>
    obtain ⟨q,_,hq,hr,rfl⟩ := List.forall₂_cons_left_iff.1 h
    obtain ⟨q',_,hq',_,rfl⟩ := List.forall₂_cons_left_iff.1 hr
    exact hR.join _ _ _ _ c k hq hq'

namespace RewriteRule
variable {rule : RewriteRule} {p q : Plan}

/-- What a pass makes of a root, rewritten or not, and of what became of the inputs. -/
def finish (p : Plan) (rewritten : Option Plan) (below : List (Option Plan)) : Option Plan :=
  if rewritten.isNone && below.all Option.isNone then none
  else some ((rewritten.getD p).withInputs
    (below.zipWith (fun new old => new.getD old) (rewritten.getD p).inputs))

theorem finish_eq_none_iff {rewritten : Option Plan} {below : List (Option Plan)} :
    finish p rewritten below = none ↔ rewritten = none ∧ ∀ r ∈ below, r.isNone := by
  simp [finish,Option.isNone_iff_eq_none]

/-- A pass rewrites the root or leaves it, passes over the inputs of what it has then, and puts back
what became of them. -/
theorem pass_eq (rule : RewriteRule) (p : Plan) : rule.pass p = do
    let rewritten ← rule.apply p
    let below ← (rewritten.getD p).inputs.mapM rule.pass
    return finish p rewritten below := by
  rw [pass]
  split
  · rename_i e he
    rw [he]
    rfl
  · rename_i rewritten hr
    dsimp only
    rw [hr,List.mapM_subtype (g := rule.pass) fun _ _ => rfl,List.unattach_attach]
    refine congrArg _ (funext fun below => ?_)
    unfold finish
    split <;> rfl

theorem pass_eq_ok {result : Option Plan} (h : rule.pass p = .ok result) :
    ∃ rewritten below, rule.apply p = .ok rewritten ∧
      (rewritten.getD p).inputs.Forall₂ (fun q b => rule.pass q = .ok b) below ∧
      result = finish p rewritten below := by
  rw [pass_eq] at h
  obtain ⟨rewritten,hr,h⟩ := bind_eq_ok_iff.1 h
  obtain ⟨below,hb,h⟩ := bind_eq_ok_iff.1 h
  cases h
  exact ⟨rewritten,below,hr,mapM_eq_ok_iff.1 hb,rfl⟩

/-- The operators below a rewritten root, or below the root itself, have a lower rank. -/
theorem rank_lt_of_mem_inputs {rewritten : Option Plan} (h : rule.apply p = .ok rewritten)
    (hq : q ∈ (rewritten.getD p).inputs) : rule.rank q < rule.rank p := by
  cases rewritten with
  | none => exact rule.rank_inputs p q hq
  | some r => exact rule.rank_apply p r h q hq

private theorem forall₂_zipWith_getD {R : Plan → Plan → Prop} (hR : ∀ p, R p p) {qs : List Plan}
    {below : List (Option Plan)} (h : qs.Forall₂ (fun q b => ∀ r, b = some r → R q r) below) :
    qs.Forall₂ R (below.zipWith (fun new old => new.getD old) qs) := by
  induction h with
  | nil => exact .nil
  | @cons q b qs bs hb _ ih =>
    refine .cons ?_ ih
    cases b with
    | none => exact hR q
    | some r => exact hb r rfl

/-- A pass keeps what the rule keeps. -/
theorem pass_induction {R : Plan → Plan → Prop} (hR : Plan.Compatible R)
    (happly : ∀ p q, rule.apply p = .ok (some q) → R p q) (h : rule.pass p = .ok (some q)) :
    R p q := by
  induction hn : rule.rank p using Nat.strongRecOn generalizing p q with
  | ind n ih =>
    obtain ⟨rewritten,below,hr,hb,hq⟩ := pass_eq_ok h
    unfold finish at hq
    split at hq
    · cases hq
    · cases hq
      have hroot : R p (rewritten.getD p) := by
        cases rewritten with
        | none => exact hR.refl p
        | some r => exact happly p r hr
      refine hR.trans _ _ _ hroot (hR.withInputs (forall₂_zipWith_getD hR.refl ?_))
      refine List.forall₂_iff_get.2 ⟨hb.length_eq,fun i hi hi' r hir => ?_⟩
      have hpass := hb.get hi hi'
      rw [hir] at hpass
      exact ih _ (hn ▸ rank_lt_of_mem_inputs hr (List.get_mem _ _)) hpass rfl

/-- A loop keeps what the rule keeps. -/
theorem settle_induction {R : Plan → Plan → Prop} (hR : Plan.Compatible R)
    (happly : ∀ p q, rule.apply p = .ok (some q) → R p q) {limit passes : Nat}
    (h : rule.settle limit p = .ok (q,passes)) : R p q := by
  induction limit generalizing p q passes with
  | zero =>
    cases h
    exact hR.refl p
  | succ limit ih =>
    obtain ⟨r,hr,h⟩ := bind_eq_ok_iff.1 h
    cases r with
    | none =>
      cases h
      exact hR.refl p
    | some r =>
      obtain ⟨⟨s,k⟩,hs,h⟩ := bind_eq_ok_iff.1 h
      cases h
      exact hR.trans _ _ _ (pass_induction hR happly hr) (ih hs)

end RewriteRule

/-- A program keeps what all its rules keep. -/
theorem optimise_induction {R : Plan → Plan → Prop} (hR : Plan.Compatible R)
    {rules : List RewriteRule}
    (happly : ∀ rule ∈ rules, ∀ p q, rule.apply p = .ok (some q) → R p q) {limit : Nat} {p q : Plan}
    (h : (optimise limit rules p).1 = .ok q) : R p q := by
  induction rules generalizing p with
  | nil =>
    cases h
    exact hR.refl _
  | cons rule rules ih =>
    rw [optimise] at h
    split at h
    · cases h
    · rename_i r passes hr
      have hpr := RewriteRule.settle_induction hR (happly rule (by simp)) hr
      exact hR.trans _ _ _ hpr (ih (fun s hs => happly s (List.mem_cons_of_mem _ hs)) h)

end QueryPlan
