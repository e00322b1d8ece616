import QueryPlan.Proofs.Relation.WellFormed
import QueryPlan.Proofs.Rewrite.Runs

/-! # Plans at rest

A rule rests on a plan if it matches at none of its operators. A pass over such a plan changes
nothing, and where one pass brings a plan to rest the loop around it ends at once. -/
namespace QueryPlan

theorem Plan.withInputs_inputs (p : Plan) : p.withInputs p.inputs = p := by
  cases p <;> rfl

/-- The same operator over related inputs. -/
inductive Plan.Over (R : Plan → Plan → Prop) : Plan → Plan → Prop
  | scan (t : Table) : Over R (.scan t) (.scan t)
  | arrowScan (t : Table) (cols : List Nat) : Over R (.arrowScan t cols) (.arrowScan t cols)
  | filter {p q : Plan} (condition : Expr) : R p q → Over R (.filter p condition) (.filter q condition)
  | project {p q : Plan} (es : List Expr) (ns : List String) :
      R p q → Over R (.project p es ns) (.project q es ns)
  | join {p q p' q' : Plan} (condition : Expr) (kind : JoinKind) : R p q → R p' q' →
      Over R (.join p p' condition kind) (.join q q' condition kind)
  | aggregate {p q : Plan} (groups : List Nat) (calls : List AggregateCall) :
      R p q → Over R (.aggregate p groups calls) (.aggregate q groups calls)

namespace Plan.Over
variable {R S : Plan → Plan → Prop} {p q : Plan}

theorem withInputs {qs : List Plan} (h : p.inputs.Forall₂ R qs) : p.Over R (p.withInputs qs) := by
  cases p with
  | scan t => exact .scan t
  | arrowScan t cols => exact .arrowScan t cols
  | filter input c =>
    obtain ⟨q,_,hq,_,rfl⟩ := List.forall₂_cons_left_iff.1 h
    exact .filter c hq
  | project input es ns =>
    obtain ⟨q,_,hq,_,rfl⟩ := List.forall₂_cons_left_iff.1 h
    exact .project es ns hq
  | aggregate input gs cs =>
    obtain ⟨q,_,hq,_,rfl⟩ := List.forall₂_cons_left_iff.1 h
    exact .aggregate gs cs hq
  | join left right c k =>
    obtain ⟨q,_,hq,hr,rfl⟩ := List.forall₂_cons_left_iff.1 h
    obtain ⟨q',_,hq',_,rfl⟩ := List.forall₂_cons_left_iff.1 hr
    exact .join c k hq hq'

theorem imp (h : p.Over R q) (himp : ∀ c ∈ p.inputs, ∀ d, R c d → S c d) : p.Over S q := by
  cases h with
  | scan t => exact .scan t
  | arrowScan t cols => exact .arrowScan t cols
  | filter c h => exact .filter c (himp _ (by simp [inputs]) _ h)
  | project es ns h => exact .project es ns (himp _ (by simp [inputs]) _ h)
  | aggregate gs cs h => exact .aggregate gs cs (himp _ (by simp [inputs]) _ h)
  | join c k h h' =>
    exact .join c k (himp _ (by simp [inputs]) _ h) (himp _ (by simp [inputs]) _ h')

theorem of_mem_inputs (h : p.Over R q) : ∀ d ∈ q.inputs, ∃ c ∈ p.inputs, R c d := by
  cases h with
  | scan t => simp [inputs]
  | arrowScan t cols => simp [inputs]
  | filter c h => simpa [inputs] using h
  | project es ns h => simpa [inputs] using h
  | aggregate gs cs h => simpa [inputs] using h
  | join c k h h' =>
    simp only [inputs,List.forall_mem_cons]
    exact ⟨⟨_,by simp,h⟩,⟨_,by simp,h'⟩,by simp⟩

end Plan.Over

namespace RewriteRule

/-- The rule matches at no operator of the plan. -/
def Rests (rule : RewriteRule) (p : Plan) : Prop := p.Everywhere fun n => rule.apply n = .ok none

variable {rule : RewriteRule} {p q : Plan}

private theorem forall₂_getD {cs : List Plan} {bs : List (Option Plan)}
    (h : cs.Forall₂ (fun c b => rule.pass c = .ok b) bs) :
    cs.Forall₂ (fun c q => ∃ b, rule.pass c = .ok b ∧ q = b.getD c)
      (bs.zipWith (fun new old => new.getD old) cs) := by
  induction h with
  | nil => exact .nil
  | cons hc _ ih => exact .cons ⟨_,hc,rfl⟩ ih

private theorem zipWith_getD_of_isNone {cs : List Plan} {bs : List (Option Plan)}
    (hnone : ∀ b ∈ bs, b.isNone) (hlength : bs.length = cs.length) :
    bs.zipWith (fun new old => new.getD old) cs = cs := by
  induction bs generalizing cs with
  | nil => exact List.zipWith_nil_left.trans (List.eq_nil_of_length_eq_zero hlength.symm).symm
  | cons b bs ih =>
    cases cs with
    | nil => cases hlength
    | cons c cs =>
      obtain ⟨hb,hbs⟩ := List.forall_mem_cons.1 hnone
      rw [Option.isNone_iff_eq_none.1 hb,List.zipWith_cons_cons,ih hbs (Nat.succ.inj hlength)]
      rfl

/-- A pass in terms of what becomes of the inputs, changed or not. -/
theorem pass_getD {result : Option Plan} (h : rule.pass p = .ok result) :
    ∃ rewritten qs, rule.apply p = .ok rewritten ∧
      (rewritten.getD p).inputs.Forall₂ (fun c q => ∃ b, rule.pass c = .ok b ∧ q = b.getD c) qs ∧
      result.getD p = (rewritten.getD p).withInputs qs := by
  obtain ⟨rewritten,below,hr,hb,rfl⟩ := pass_eq_ok h
  refine ⟨rewritten,_,hr,forall₂_getD hb,?_⟩
  unfold finish
  split
  case isFalse => rfl
  case isTrue hnone =>
    rw [Bool.and_eq_true,List.all_eq_true,Option.isNone_iff_eq_none] at hnone
    obtain ⟨rfl,hnone⟩ := hnone
    rw [zipWith_getD_of_isNone hnone hb.length_eq.symm]
    exact (Plan.withInputs_inputs p).symm

/-- What holds of a rewritten or unchanged root as soon as it holds of the inputs below it holds of
the plan that a pass ends with. -/
theorem pass_steps {R : Plan → Plan → Prop}
    (hstep : ∀ p rewritten q, rule.apply p = .ok rewritten → (rewritten.getD p).Over R q → R p q)
    {result : Option Plan} (h : rule.pass p = .ok result) : R p (result.getD p) := by
  induction hn : rule.rank p using Nat.strongRecOn generalizing p result with
  | ind n ih =>
    obtain ⟨rewritten,qs,hr,hqs,hresult⟩ := pass_getD h
    rw [hresult]
    refine hstep p rewritten _ hr (.withInputs (List.forall₂_iff_get.2 ⟨hqs.length_eq,?_⟩))
    intro i hi hi'
    obtain ⟨b,hb,hq⟩ := hqs.get hi hi'
    rw [hq]
    exact ih _ (hn ▸ rank_lt_of_mem_inputs hr (List.get_mem _ _)) hb rfl

/-- How a rule brings plans to rest in one pass. What `Pre` says of an operator, before the pass
comes to it, is said of the inputs left to the pass, too; the operator that is left or put in its
place is as `Post` says, and stays so over inputs that have changed as `R` allows. -/
structure Settles (rule : RewriteRule) (Pre Post : Plan → Prop) (R : Plan → Plan → Prop) : Prop where
  leaves : ∀ p, Pre p → rule.apply p = .ok none → (∀ c ∈ p.inputs, Pre c) ∧ Post p ∧ R p p
  rewrites : ∀ p r, Pre p → rule.apply p = .ok (some r) → (∀ c ∈ r.inputs, Pre c) ∧ Post r ∧ R p r
  post_over : ∀ p q, Post p → p.Over R q → Post q
  rel_over : ∀ p r q, Post r → R p r → r.Over R q → R p q

theorem Settles.pass {Pre Post : Plan → Prop} {R : Plan → Plan → Prop} {result : Option Plan}
    (hrule : rule.Settles Pre Post R) (h : rule.pass p = .ok result) (hp : Pre p) :
    (result.getD p).Everywhere Post ∧ R p (result.getD p) := by
  refine pass_steps (R := fun p q => Pre p → q.Everywhere Post ∧ R p q)
    (fun p rewritten q hr hq hp => ?_) h hp
  obtain ⟨hpre,hpost,hrel⟩ : (∀ c ∈ (rewritten.getD p).inputs, Pre c) ∧ Post (rewritten.getD p) ∧
      R p (rewritten.getD p) := by
    cases rewritten with
    | none => exact hrule.leaves p hp hr
    | some r => exact hrule.rewrites p r hp hr
  have hdone : (rewritten.getD p).Over (fun c d => d.Everywhere Post ∧ R c d) q :=
    hq.imp fun c hc d hcd => hcd (hpre c hc)
  have hover : (rewritten.getD p).Over R q := hdone.imp fun _ _ _ => And.right
  refine ⟨Plan.everywhere_iff.2 ⟨hrule.post_over _ _ hpost hover,fun d hd => ?_⟩,
    hrule.rel_over _ _ _ hpost hrel hover⟩
  obtain ⟨c,-,hcd,-⟩ := hdone.of_mem_inputs d hd
  exact hcd

/-- A pass over a plan at rest ends, and changes nothing. -/
theorem pass_of_rests (h : rule.Rests p) : rule.pass p = .ok none := by
  induction hn : rule.rank p using Nat.strongRecOn generalizing p with
  | ind n ih =>
    obtain ⟨hroot,hinputs⟩ := Plan.everywhere_iff.1 h
    have hbelow : p.inputs.mapM rule.pass = .ok (p.inputs.map fun _ => none) := by
      rw [mapM_eq_ok_iff,List.forall₂_map_right_iff,List.forall₂_same]
      intro q hq
      exact ih _ (hn ▸ rule.rank_inputs p q hq) (hinputs q hq) rfl
    rw [pass_eq]
    refine bind_eq_ok_iff.2 ⟨none,hroot,bind_eq_ok_iff.2 ⟨_,hbelow,congrArg Except.ok ?_⟩⟩
    exact if_pos (by simp)

theorem settle_of_rests (h : rule.Rests p) (limit : Nat) : rule.settle limit p = .ok (p,0) := by
  cases limit with
  | zero => rfl
  | succ limit =>
    rw [settle,pass_of_rests h]
    rfl

/-- After one pass that ends at rest, the loop ends. -/
theorem settle_of_pass {result : Option Plan} {limit k : Nat} (hlimit : 0 < limit)
    (hpass : rule.pass p = .ok result) (hrests : rule.Rests (result.getD p))
    (h : rule.settle limit p = .ok (q,k)) : q = result.getD p ∧ k ≤ 1 := by
  obtain ⟨limit,rfl⟩ := Nat.exists_eq_add_one.2 hlimit
  obtain ⟨r,hr,h⟩ := bind_eq_ok_iff.1 h
  rw [hpass] at hr
  cases hr
  cases result with
  | none =>
    cases h
    exact ⟨rfl,Nat.zero_le 1⟩
  | some r =>
    rw [Option.getD_some] at hrests
    obtain ⟨⟨s,j⟩,hs,h⟩ := bind_eq_ok_iff.1 h
    rw [settle_of_rests hrests] at hs
    cases hs
    cases h
    exact ⟨rfl,Nat.le_refl 1⟩

/-- From plans of one kind, a pass leads to plans of another kind at which the rule rests. -/
def Leads (rule : RewriteRule) (From To : Plan → Prop) : Prop :=
  ∀ p result, From p → rule.pass p = .ok result → To (result.getD p) ∧ rule.Rests (result.getD p)

theorem Settles.leads {Pre Post : Plan → Prop} {R : Plan → Plan → Prop}
    (hrule : rule.Settles Pre Post R) (hpost : ∀ p, Post p → rule.apply p = .ok none) :
    rule.Leads Pre (Plan.Everywhere Post) := by
  intro p result hp h
  have hq := (hrule.pass h hp).1
  exact ⟨hq,fun n hn => hpost n (hq n hn)⟩

/-- What the rule keeps in any case is kept on the way. -/
theorem Leads.and {From To P : Plan → Prop} (hrule : rule.Leads From To)
    (hkeep : ∀ p q, rule.pass p = .ok (some q) → P p → P q) :
    rule.Leads (fun p => P p ∧ From p) (fun p => P p ∧ To p) := by
  rintro p result ⟨hp,hfrom⟩ h
  obtain ⟨hto,hrests⟩ := hrule p result hfrom h
  refine ⟨⟨?_,hto⟩,hrests⟩
  cases result with
  | none => exact hp
  | some q => exact hkeep p q h hp

/-- What the rule brings about everywhere in one pass comes on top. -/
theorem Leads.and_settles {From To Pre Post : Plan → Prop} {R : Plan → Plan → Prop}
    (hrule : rule.Leads From To) (hsettles : rule.Settles Pre Post R) :
    rule.Leads (fun p => From p ∧ Pre p) (fun p => To p ∧ p.Everywhere Post) := by
  rintro p result ⟨hfrom,hpre⟩ h
  obtain ⟨hto,hrests⟩ := hrule p result hfrom h
  exact ⟨⟨hto,(hsettles.pass h hpre).1⟩,hrests⟩

theorem Leads.imp {From From' To : Plan → Prop} (hrule : rule.Leads From To)
    (hfrom : ∀ p, From' p → From p) : rule.Leads From' To :=
  fun p result hp h => hrule p result (hfrom p hp) h

end RewriteRule

/-- How many passes of each rule change the plan that the rule is handed. -/
def passCounts (limit : Nat) : List RewriteRule → Plan → Except QueryError (List Nat)
  | [],_ => .ok []
  | rule :: rules,p => do
    let (q,passes) ← rule.settle (max limit 1) p
    let counts ← passCounts limit rules q
    return passes :: counts

/-- Rules that lead from plans of one kind to plans of another, one after the other. -/
inductive LeadsThrough : (Plan → Prop) → List RewriteRule → (Plan → Prop) → Prop
  | done (S : Plan → Prop) : LeadsThrough S [] S
  | step {From Mid To : Plan → Prop} {rule : RewriteRule} {rules : List RewriteRule} :
      rule.Leads From Mid → LeadsThrough Mid rules To → LeadsThrough From (rule :: rules) To

theorem LeadsThrough.append {From Mid To : Plan → Prop} {rules later : List RewriteRule}
    (h : LeadsThrough From rules Mid) (h' : LeadsThrough Mid later To) :
    LeadsThrough From (rules ++ later) To := by
  induction h with
  | done S => exact h'
  | step hrule _ ih => exact .step hrule (ih h')

/-- A program whose rules lead to one another ends with a plan of the last kind, and no rule needs a
second pass that changes something. -/
theorem LeadsThrough.optimise {From To : Plan → Prop} {rules : List RewriteRule}
    (h : LeadsThrough From rules To) {limit : Nat} {p q : Plan} (hp : From p)
    (hq : (optimise limit rules p).1 = .ok q) :
    To q ∧ ∃ counts, passCounts limit rules p = .ok counts ∧ ∀ k ∈ counts, k ≤ 1 := by
  induction h generalizing p with
  | done S =>
    cases hq
    exact ⟨hp,[],rfl,by simp⟩
  | @step From Mid To rule rules hlead _ ih =>
    rw [QueryPlan.optimise] at hq
    split at hq
    · cases hq
    · rename_i r k hsettle
      obtain ⟨limit',hlimit'⟩ : ∃ n, max limit 1 = n+1 := ⟨max limit 1-1,by omega⟩
      obtain ⟨result,hpass⟩ : ∃ result, rule.pass p = .ok result := by
        rw [hlimit'] at hsettle
        obtain ⟨result,hresult,-⟩ := bind_eq_ok_iff.1 hsettle
        exact ⟨result,hresult⟩
      obtain ⟨hmid,hrests⟩ := hlead p result hp hpass
      obtain ⟨rfl,hk⟩ := RewriteRule.settle_of_pass (by omega) hpass hrests hsettle
      obtain ⟨hto,counts,hcounts,hle⟩ := ih hmid hq
      refine ⟨hto,k :: counts,?_,List.forall_mem_cons.2 ⟨hk,hle⟩⟩
      rw [passCounts,hsettle]
      exact bind_eq_ok_iff.2 ⟨_,rfl,bind_eq_ok_iff.2 ⟨counts,hcounts,rfl⟩⟩

/-- What a run logs where its rules have so many passes that change something. -/
def logOf (limit : Nat) (rules : List RewriteRule) (counts : List Nat) : List LogEntry :=
  (rules.zipWith (RewriteRule.entries · (max limit 1)) counts).flatten

theorem optimise_entries {limit : Nat} {rules : List RewriteRule} {p : Plan} {counts : List Nat}
    (h : passCounts limit rules p = .ok counts) :
    (optimise limit rules p).2 = logOf limit rules counts := by
  induction rules generalizing p counts with
  | nil =>
    cases h
    rfl
  | cons rule rules ih =>
    obtain ⟨⟨q,k⟩,hq,h⟩ := bind_eq_ok_iff.1 h
    obtain ⟨ks,hks,h⟩ := bind_eq_ok_iff.1 h
    cases h
    rw [optimise,hq,logOf,List.zipWith_cons_cons,List.flatten_cons,← logOf,← ih hks]

/-- A program all rules of which rest hands the plan on, and has nothing to log. -/
theorem optimise_of_rests {rules : List RewriteRule} {q : Plan} (h : ∀ rule ∈ rules, rule.Rests q)
    (limit : Nat) : optimise limit rules q = (.ok q,[]) := by
  induction rules with
  | nil => rfl
  | cons rule rules ih =>
    obtain ⟨hrule,hrules⟩ := List.forall_mem_cons.1 h
    have hentries : rule.entries (max limit 1) 0 = [] := by
      rw [RewriteRule.entries,if_neg (by omega),if_neg (by omega)]
      rfl
    rw [optimise,RewriteRule.settle_of_rests hrule]
    simp only [ih hrules,hentries,List.append_nil]

end QueryPlan
