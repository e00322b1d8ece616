import QueryPlan.Proofs.Rewrite.Runs

/-! # Two runs of a rule program side by side

Where plans are related operator by operator, and each rule makes of related plans related plans or
one error, passes, loops and programs do so as well, and take the same number of passes. -/
namespace QueryPlan

/-- A relation between the plans of two runs that goes down to the inputs of operators and comes
back with new inputs. -/
structure Plan.Lockstep (R : Plan → Plan → Prop) : Prop where
  inputs {p q : Plan} : R p q → p.inputs.Forall₂ R q.inputs
  withInputs {p q : Plan} {ps qs : List Plan} :
    R p q → ps.Forall₂ R qs → R (p.withInputs ps) (q.withInputs qs)

namespace RewriteRule
variable {rule : RewriteRule} {R : Plan → Plan → Prop} {p q : Plan}

/-- A rule rewrites related plans to related plans, and refuses them with one error. -/
def Respects (rule : RewriteRule) (R : Plan → Plan → Prop) : Prop :=
  ∀ p q, R p q → LiftRel Eq (Option.Rel R) (rule.apply p) (rule.apply q)

theorem getD_rel {a b : Option Plan} (hab : Option.Rel R a b) (hpq : R p q) :
    R (a.getD p) (b.getD q) := by
  cases hab with
  | none => exact hpq
  | some h => exact h

theorem isNone_rel {a b : Option Plan} (hab : Option.Rel R a b) : a.isNone = b.isNone := by
  cases hab <;> rfl

theorem finish_rel (hR : Plan.Lockstep R) {a b : Option Plan} {as bs : List (Option Plan)}
    (hpq : R p q) (hab : Option.Rel R a b) (hbelow : as.Forall₂ (Option.Rel R) bs) :
    Option.Rel R (finish p a as) (finish q b bs) := by
  have hnone : as.all Option.isNone = bs.all Option.isNone := by
    induction hbelow with
    | nil => rfl
    | cons h _ ih => rw [List.all_cons,List.all_cons,isNone_rel h,ih]
  have hzip : ∀ {ps qs : List Plan}, ps.Forall₂ R qs →
      (as.zipWith (fun new old => new.getD old) ps).Forall₂ R
        (bs.zipWith (fun new old => new.getD old) qs) := by
    clear hnone
    induction hbelow with
    | nil => exact fun _ => .nil
    | cons h _ ih =>
      intro ps qs hpqs
      cases hpqs with
      | nil => exact .nil
      | cons hpq hrest => exact .cons (getD_rel h hpq) (ih hrest)
  have hroot := getD_rel hab hpq
  unfold finish
  rw [isNone_rel hab,hnone]
  split
  · exact .none
  · exact .some (hR.withInputs hroot (hzip (hR.inputs hroot)))

theorem pass_rel (hR : Plan.Lockstep R) (hrule : rule.Respects R) (hpq : R p q) :
    LiftRel Eq (Option.Rel R) (rule.pass p) (rule.pass q) := by
  induction hn : rule.rank p using Nat.strongRecOn generalizing p q with
  | ind n ih =>
    have happly := hrule p q hpq
    rw [pass_eq,pass_eq]
    generalize ha : rule.apply p = x,rule.apply q = y at happly ⊢
    cases happly with
    | error h => exact .error h
    | @ok a b hab =>
      -- the induction is on the rank in the first run; the second one follows it
      have hinputs := hR.inputs (getD_rel hab hpq)
      have hbelow := (List.forall₂_and_left _ _).2 ⟨fun r hr => rank_lt_of_mem_inputs ha hr,hinputs⟩
      have hpasses : LiftRel Eq (List.Forall₂ (Option.Rel R))
          ((a.getD p).inputs.mapM rule.pass) ((b.getD q).inputs.mapM rule.pass) :=
        LiftRel.mapM (hbelow.imp fun r s h => ih (rule.rank r) (hn ▸ h.1) h.2 rfl)
      exact hpasses.bind fun as bs has => .ok (finish_rel hR hpq hab has)

theorem settle_rel (hR : Plan.Lockstep R) (hrule : rule.Respects R) (limit : Nat) (hpq : R p q) :
    LiftRel Eq (fun r s => R r.1 s.1 ∧ r.2 = s.2) (rule.settle limit p) (rule.settle limit q) := by
  induction limit generalizing p q with
  | zero => exact .ok ⟨hpq,rfl⟩
  | succ limit ih =>
    rw [settle,settle]
    refine (pass_rel hR hrule hpq).bind fun a b hab => ?_
    cases hab with
    | none => exact .ok ⟨hpq,rfl⟩
    | some h => exact (ih h).bind fun r s hrs => .ok ⟨hrs.1,congrArg (· + 1) hrs.2⟩

end RewriteRule

/-- A program makes of related plans related plans or one error. -/
theorem optimise_rel {R : Plan → Plan → Prop} (hR : Plan.Lockstep R) {rules : List RewriteRule}
    (hrules : ∀ rule ∈ rules, rule.Respects R) (limit : Nat) {p q : Plan} (hpq : R p q) :
    LiftRel Eq R (optimise limit rules p).1 (optimise limit rules q).1 := by
  induction rules generalizing p q with
  | nil => exact .ok hpq
  | cons rule rules ih =>
    obtain ⟨hrule,hrules⟩ := List.forall_mem_cons.1 hrules
    have hsettle := RewriteRule.settle_rel hR hrule (max limit 1) hpq
    rw [optimise,optimise]
    generalize rule.settle (max limit 1) p = x,rule.settle (max limit 1) q = y at hsettle ⊢
    cases hsettle with
    | error h => exact .error h
    | ok h => exact ih hrules h.1

end QueryPlan
