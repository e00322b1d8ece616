import QueryPlan.Proofs.Rewrite.Rest

/-! # Passes of any rewriting

A rule brings the measure by which its passes end. Passes, loops and programs are described here for
rewritings without one, by what a run goes through until it ends, if it ends at all. For rules the
description agrees with what is computed, so what is shown of rewritings holds of them, too. -/
namespace QueryPlan

/-- What a rule does to one operator, `none` where it does not match. Nothing is said about the
operators below a result, so a pass may go on forever. -/
abbrev Rewriting := Plan → Except QueryError (Option Plan)

namespace Rewriting
open RewriteRule

mutual

/-- A pass over a plan ends like this. -/
inductive Passes (f : Rewriting) : Plan → Except QueryError (Option Plan) → Prop
  | refused {p : Plan} {e : QueryError} : f p = .error e → Passes f p (.error e)
  | descended {p : Plan} {rewritten : Option Plan} {below : Except QueryError (List (Option Plan))} :
      f p = .ok rewritten → PassesAll f (rewritten.getD p).inputs below →
      Passes f p (below.map (finish p rewritten))

/-- Passes over plans, from left to right and up to the first failure, end like this. -/
inductive PassesAll (f : Rewriting) : List Plan → Except QueryError (List (Option Plan)) → Prop
  | nil : PassesAll f [] (.ok [])
  | failed {p : Plan} {ps : List Plan} {e : QueryError} :
      Passes f p (.error e) → PassesAll f (p :: ps) (.error e)
  | cons {p : Plan} {ps : List Plan} {result : Option Plan}
      {below : Except QueryError (List (Option Plan))} :
      Passes f p (.ok result) → PassesAll f ps below → PassesAll f (p :: ps) (below.map (result :: ·))

end

/-- Passes until one changes nothing or as many as the limit have changed something end like this,
with the number of those that did. -/
inductive Loops (f : Rewriting) : Nat → Plan → Except QueryError (Plan × Nat) → Prop
  | limit (p : Plan) : Loops f 0 p (.ok (p,0))
  | failed {limit : Nat} {p : Plan} {e : QueryError} :
      Passes f p (.error e) → Loops f (limit+1) p (.error e)
  | still {limit : Nat} {p : Plan} : Passes f p (.ok none) → Loops f (limit+1) p (.ok (p,0))
  | again {limit : Nat} {p q : Plan} {result : Except QueryError (Plan × Nat)} :
      Passes f p (.ok (some q)) → Loops f limit q result →
      Loops f (limit+1) p (result.map fun (r,passes) => (r,passes+1))

/-- Loops around the rewritings of a program, one after the other, end like this. -/
inductive Runs (limit : Nat) : List Rewriting → Plan → Except QueryError Plan → Prop
  | done (p : Plan) : Runs limit [] p (.ok p)
  | failed {f : Rewriting} {fs : List Rewriting} {p : Plan} {e : QueryError} :
      Loops f (max limit 1) p (.error e) → Runs limit (f :: fs) p (.error e)
  | next {f : Rewriting} {fs : List Rewriting} {p q : Plan} {passes : Nat}
      {result : Except QueryError Plan} :
      Loops f (max limit 1) p (.ok (q,passes)) → Runs limit fs q result → Runs limit (f :: fs) p result

/-- A pass over the first plan applies the rewriting to the second one. -/
inductive PassVisits (f : Rewriting) : Plan → Plan → Prop
  | root (p : Plan) : PassVisits f p p
  | input {p c n : Plan} {rewritten : Option Plan} {before after : List Plan}
      {below : List (Option Plan)} :
      f p = .ok rewritten → (rewritten.getD p).inputs = before ++ c :: after →
      PassesAll f before (.ok below) → PassVisits f c n → PassVisits f p n

/-- A loop over the first plan applies the rewriting to the second one. -/
inductive LoopVisits (f : Rewriting) : Nat → Plan → Plan → Prop
  | now {limit : Nat} {p n : Plan} : PassVisits f p n → LoopVisits f (limit+1) p n
  | later {limit : Nat} {p q n : Plan} :
      Passes f p (.ok (some q)) → LoopVisits f limit q n → LoopVisits f (limit+1) p n

/-- A program run on the first plan applies one of its rewritings to the second plan. -/
inductive RunVisits (limit : Nat) : List Rewriting → Plan → Rewriting → Plan → Prop
  | now {f : Rewriting} {fs : List Rewriting} {p n : Plan} :
      LoopVisits f (max limit 1) p n → RunVisits limit (f :: fs) p f n
  | later {f g : Rewriting} {fs : List Rewriting} {p q n : Plan} {passes : Nat} :
      Loops f (max limit 1) p (.ok (q,passes)) → RunVisits limit fs q g n →
      RunVisits limit (f :: fs) p g n

variable {f : Rewriting} {fs before : List Rewriting} {limit passes : Nat} {p q : Plan}
  {ps qs : List Plan} {e : QueryError}

/-! ## At most one end -/

theorem Passes.of_ok {rewritten : Option Plan} {result : Except QueryError (Option Plan)}
    (h : Passes f p result) (hr : f p = .ok rewritten) :
    ∃ below, PassesAll f (rewritten.getD p).inputs below ∧ result = below.map (finish p rewritten) := by
  cases h with
  | refused he => cases hr.symm.trans he
  | descended hr' hbelow =>
    cases hr.symm.trans hr'
    exact ⟨_,hbelow,rfl⟩

mutual

theorem Passes.unique {f : Rewriting} {p : Plan} {result result' : Except QueryError (Option Plan)} :
    Passes f p result → Passes f p result' → result = result'
  | .refused he,h' => by
    cases h' with
    | refused he' => rw [Except.error.inj (he.symm.trans he')]
    | descended hr' _ => cases he.symm.trans hr'
  | .descended hr hbelow,h' => by
    obtain ⟨below',hbelow',rfl⟩ := h'.of_ok hr
    rw [hbelow.unique hbelow']

theorem PassesAll.unique {f : Rewriting} {ps : List Plan}
    {below below' : Except QueryError (List (Option Plan))} :
    PassesAll f ps below → PassesAll f ps below' → below = below'
  | .nil,h' => by
    cases h'
    rfl
  | .failed he,h' => by
    cases h' with
    | failed he' => rw [Except.error.inj (he.unique he')]
    | cons hp' _ => cases he.unique hp'
  | .cons hp hps,h' => by
    cases h' with
    | failed he' => cases hp.unique he'
    | cons hp' hps' => rw [Except.ok.inj (hp.unique hp'),hps.unique hps']

end

theorem Loops.unique {result result' : Except QueryError (Plan × Nat)} (h : Loops f limit p result)
    (h' : Loops f limit p result') : result = result' := by
  induction h generalizing result' with
  | limit p =>
    cases h'
    rfl
  | failed he =>
    cases h' with
    | failed he' => rw [Except.error.inj (he.unique he')]
    | still hp' => cases he.unique hp'
    | again hp' _ => cases he.unique hp'
  | still hp =>
    cases h' with
    | failed he' => cases hp.unique he'
    | still _ => rfl
    | again hp' _ => cases hp.unique hp'
  | again hp _ ih =>
    cases h' with
    | failed he' => cases hp.unique he'
    | still hp' => cases hp.unique hp'
    | again hp' hq' =>
      cases hp.unique hp'
      rw [ih hq']

theorem Runs.unique {result result' : Except QueryError Plan} (h : Runs limit fs p result)
    (h' : Runs limit fs p result') : result = result' := by
  induction h generalizing result' with
  | done p =>
    cases h'
    rfl
  | failed he =>
    cases h' with
    | failed he' => rw [Except.error.inj (he.unique he')]
    | next hp' _ => cases he.unique hp'
  | next hp _ ih =>
    cases h' with
    | failed he' => cases hp.unique he'
    | next hp' hq' =>
      cases hp.unique hp'
      exact ih hq'

/-- A program goes on from the plan that its beginning ends with. -/
theorem Runs.append_iff (h : Runs limit before p (.ok q)) {result : Except QueryError Plan} :
    Runs limit (before ++ fs) p result ↔ Runs limit fs q result := by
  generalize hq : Except.ok q = ended at h
  induction h with
  | done p =>
    cases hq
    exact Iff.rfl
  | failed _ => cases hq
  | next hp _ ih =>
    rw [List.cons_append,← ih hq]
    constructor
    · intro h
      cases h with
      | failed he => cases he.unique hp
      | next hp' hq' =>
        cases hp'.unique hp
        exact hq'
    · exact .next hp

/-! ## Passes that change nothing -/

mutual

theorem Passes.rests {f : Rewriting} {p : Plan} {result : Except QueryError (Option Plan)} :
    Passes f p result → result = .ok none → p.Everywhere fun n => f n = .ok none
  | .refused _,hnone => nomatch hnone
  | .descended hr hbelow,hnone => by
    obtain ⟨results,hok,hfinish⟩ := map_eq_ok_iff.1 hnone
    obtain ⟨hroot,hstill⟩ := finish_eq_none_iff.1 hfinish
    have hinputs := hbelow.rests hok hstill
    rw [hroot] at hr hinputs
    exact Plan.everywhere_iff.2 ⟨hr,hinputs⟩

theorem PassesAll.rests {f : Rewriting} {ps : List Plan}
    {below : Except QueryError (List (Option Plan))} {results : List (Option Plan)} :
    PassesAll f ps below → below = .ok results → (∀ r ∈ results, r.isNone) →
      ∀ p ∈ ps, p.Everywhere fun n => f n = .ok none
  | .nil,_,_ => nofun
  | .failed _,hok,_ => nomatch hok
  | .cons hp hps,hok,hstill => by
    obtain ⟨rest,hrest,rfl⟩ := map_eq_ok_iff.1 hok
    obtain ⟨hr,hstill⟩ := List.forall_mem_cons.1 hstill
    exact List.forall_mem_cons.2
      ⟨hp.rests (by rw [Option.isNone_iff_eq_none.1 hr]),hps.rests hrest hstill⟩

end

theorem passesAll_none (h : ∀ p ∈ ps, Passes f p (.ok none)) :
    PassesAll f ps (.ok (ps.map fun _ => none)) := by
  induction ps with
  | nil => exact .nil
  | cons p ps ih =>
    obtain ⟨hp,hps⟩ := List.forall_mem_cons.1 h
    exact .cons hp (ih hps)

/-- A pass changes nothing just if the rewriting matches at no operator. -/
theorem passes_none_iff : Passes f p (.ok none) ↔ p.Everywhere fun n => f n = .ok none := by
  refine ⟨fun h => h.rests rfl,fun h => ?_⟩
  induction hn : p.height using Nat.strongRecOn generalizing p with
  | ind k ih =>
    obtain ⟨hroot,hinputs⟩ := Plan.everywhere_iff.1 h
    have hbelow := passesAll_none fun c hc =>
      ih _ (hn ▸ Plan.height_lt_of_mem_inputs hc) (hinputs c hc) rfl
    have hpass := Passes.descended hroot hbelow
    rwa [Except.map,finish_eq_none_iff.2 ⟨rfl,by simp⟩] at hpass

/-- A loop that ends before its limit leaves nothing to rewrite. -/
theorem Loops.rests (h : Loops f limit p (.ok (q,passes))) (hlimit : passes < limit) :
    q.Everywhere fun n => f n = .ok none := by
  generalize hq : Except.ok (q,passes) = result at h
  induction h generalizing passes with
  | limit p =>
    cases hq
    omega
  | failed _ => cases hq
  | still hp =>
    cases hq
    exact passes_none_iff.1 hp
  | again _ _ ih =>
    obtain ⟨⟨r,k⟩,hr,hrk⟩ := map_eq_ok_iff.1 hq.symm
    cases hrk
    exact ih (by omega) hr.symm

/-! ## Passes that fail -/

mutual

theorem Passes.visits {f : Rewriting} {p : Plan} {result : Except QueryError (Option Plan)}
    {e : QueryError} :
    Passes f p result → result = .error e → ∃ n, PassVisits f p n ∧ f n = .error e
  | .refused he,herror => ⟨p,.root p,he.trans (congrArg _ (Except.error.inj herror))⟩
  | .descended hr hbelow,herror => by
    obtain ⟨before,c,after,below,hinputs,hbefore,n,hn,he⟩ :=
      hbelow.visits (map_eq_error_iff.1 herror)
    exact ⟨n,.input hr hinputs hbefore hn,he⟩

theorem PassesAll.visits {f : Rewriting} {ps : List Plan}
    {below : Except QueryError (List (Option Plan))} {e : QueryError} :
    PassesAll f ps below → below = .error e → ∃ before c after results, ps = before ++ c :: after ∧
      PassesAll f before (.ok results) ∧ ∃ n, PassVisits f c n ∧ f n = .error e
  | .nil,herror => nomatch herror
  | .failed hp,herror =>
    ⟨[],_,_,[],rfl,.nil,hp.visits (congrArg Except.error (Except.error.inj herror))⟩
  | .cons hp hps,herror => by
    obtain ⟨before,c,after,results,rfl,hbefore,hc⟩ := hps.visits (map_eq_error_iff.1 herror)
    exact ⟨_ :: before,c,after,_,rfl,.cons hp hbefore,hc⟩

end

theorem passesAll_error {below : List (Option Plan)} (h : PassesAll f ps (.ok below))
    (hp : Passes f p (.error e)) : PassesAll f (ps ++ p :: qs) (.error e) := by
  induction ps generalizing below with
  | nil => exact .failed hp
  | cons c ps ih =>
    generalize hok : Except.ok below = results at h
    cases h with
    | failed _ => cases hok
    | cons hc hps =>
      obtain ⟨rest,rfl,-⟩ := map_eq_ok_iff.1 hok.symm
      exact .cons hc (ih hps)

/-- A pass fails just if it comes to an operator where the rewriting fails, and with its error. -/
theorem passes_error_iff : Passes f p (.error e) ↔ ∃ n, PassVisits f p n ∧ f n = .error e := by
  refine ⟨fun h => h.visits rfl,?_⟩
  rintro ⟨n,hn,he⟩
  induction hn with
  | root p => exact .refused he
  | @input p c n rewritten before after _ hr hinputs hbefore _ ih =>
    have hbelow : PassesAll f (before ++ c :: after) (.error e) := passesAll_error hbefore (ih he)
    rw [← hinputs] at hbelow
    exact .descended hr hbelow

theorem loops_error_iff :
    Loops f limit p (.error e) ↔ ∃ n, LoopVisits f limit p n ∧ f n = .error e := by
  constructor
  · intro h
    generalize herror : Except.error e = result at h
    induction h with
    | limit p => cases herror
    | failed hp =>
      cases herror
      obtain ⟨n,hn,he⟩ := passes_error_iff.1 hp
      exact ⟨n,.now hn,he⟩
    | still _ => cases herror
    | again hp _ ih =>
      obtain ⟨n,hn,he⟩ := ih (map_eq_error_iff.1 herror.symm).symm
      exact ⟨n,.later hp hn,he⟩
  · rintro ⟨n,hn,he⟩
    induction hn with
    | now hn => exact .failed (passes_error_iff.2 ⟨_,hn,he⟩)
    | later hp _ ih => exact .again hp (ih he)

theorem runs_error_iff :
    Runs limit fs p (.error e) ↔ ∃ f n, RunVisits limit fs p f n ∧ f n = .error e := by
  constructor
  · intro h
    generalize herror : Except.error e = result at h
    induction h with
    | done p => cases herror
    | failed hp =>
      cases herror
      obtain ⟨n,hn,he⟩ := loops_error_iff.1 hp
      exact ⟨_,n,.now hn,he⟩
    | next hp _ ih =>
      obtain ⟨g,n,hn,he⟩ := ih herror
      exact ⟨g,n,.later hp hn,he⟩
  · rintro ⟨g,n,hn,he⟩
    induction hn with
    | now hn => exact .failed (loops_error_iff.2 ⟨_,hn,he⟩)
    | later hp _ ih => exact .next hp (ih he)

/-! ## Rules -/

theorem passesAll_mapM {g : Plan → Except QueryError (Option Plan)}
    (h : ∀ p ∈ ps, Passes f p (g p)) : PassesAll f ps (ps.mapM g) := by
  induction ps with
  | nil => exact .nil
  | cons p ps ih =>
    obtain ⟨hp,hps⟩ := List.forall_mem_cons.1 h
    rw [List.mapM_cons]
    cases hg : g p with
    | error e => exact .failed (hg ▸ hp)
    | ok r => exact .cons (hg ▸ hp) (ih hps)

theorem passes_pass (rule : RewriteRule) (p : Plan) : Passes rule.apply p (rule.pass p) := by
  induction hn : rule.rank p using Nat.strongRecOn generalizing p with
  | ind k ih =>
    rw [pass_eq]
    cases hr : rule.apply p with
    | error e => exact .refused hr
    | ok rewritten =>
      exact .descended hr (passesAll_mapM fun c hc => ih _ (hn ▸ rank_lt_of_mem_inputs hr hc) c rfl)

theorem loops_settle (rule : RewriteRule) (limit : Nat) (p : Plan) :
    Loops rule.apply limit p (rule.settle limit p) := by
  induction limit generalizing p with
  | zero => exact .limit p
  | succ limit ih =>
    have hpass := passes_pass rule p
    rw [settle]
    cases hresult : rule.pass p with
    | error e => exact .failed (hresult ▸ hpass)
    | ok result =>
      rw [hresult] at hpass
      cases result with
      | none => exact .still hpass
      | some q => exact .again hpass (ih q)

theorem runs_optimise (limit : Nat) (rules : List RewriteRule) (p : Plan) :
    Runs limit (rules.map RewriteRule.apply) p (optimise limit rules p).1 := by
  induction rules generalizing p with
  | nil => exact .done p
  | cons rule rules ih =>
    have hloop := loops_settle rule (max limit 1) p
    rw [optimise]
    cases hresult : rule.settle (max limit 1) p with
    | error e => exact .failed (hresult ▸ hloop)
    | ok result =>
      obtain ⟨q,passes⟩ := result
      exact .next (hresult ▸ hloop) (ih q)

theorem passes_apply_iff (rule : RewriteRule) {result : Except QueryError (Option Plan)} :
    Passes rule.apply p result ↔ rule.pass p = result :=
  ⟨fun h => (passes_pass rule p).unique h,fun h => h ▸ passes_pass rule p⟩

theorem loops_apply_iff (rule : RewriteRule) {result : Except QueryError (Plan × Nat)} :
    Loops rule.apply limit p result ↔ rule.settle limit p = result :=
  ⟨fun h => (loops_settle rule limit p).unique h,fun h => h ▸ loops_settle rule limit p⟩

theorem runs_apply_iff (rules : List RewriteRule) {result : Except QueryError Plan} :
    Runs limit (rules.map RewriteRule.apply) p result ↔ (optimise limit rules p).1 = result :=
  ⟨fun h => (runs_optimise limit rules p).unique h,fun h => h ▸ runs_optimise limit rules p⟩

/-! ## Whole programs -/

/-- A pass changes nothing just if the rewriting matches at no operator of the plan. So where a loop
ends before its limit, the program goes on from a plan at which the rewriting matches nowhere. A run
has at most one end, and fails just if one of the rewritings fails at an operator it is applied to,
with that error. Of rules all this is said about what is computed. -/
theorem runs_to_rest :
    (∀ (f : Rewriting) (p : Plan), Passes f p (.ok none) ↔ ∀ n ∈ p.operators, f n = .ok none) ∧
    (∀ (limit passes : Nat) (before : List Rewriting) (f : Rewriting) (after : List Rewriting)
      (p q r : Plan), Runs limit before p (.ok q) → Loops f (max limit 1) q (.ok (r,passes)) →
      passes < max limit 1 → (∀ n ∈ r.operators, f n = .ok none) ∧
        ∀ result, Runs limit (before ++ f :: after) p result ↔ Runs limit after r result) ∧
    (∀ (limit : Nat) (fs : List Rewriting) (p : Plan) (e : QueryError),
      Runs limit fs p (.error e) ↔ ∃ f n, RunVisits limit fs p f n ∧ f n = .error e) ∧
    (∀ (limit : Nat) (fs : List Rewriting) (p : Plan) (result result' : Except QueryError Plan),
      Runs limit fs p result → Runs limit fs p result' → result = result') ∧
    (∀ (rule : RewriteRule) (p : Plan) (result : Except QueryError (Option Plan)),
      Passes rule.apply p result ↔ rule.pass p = result) ∧
    (∀ (rule : RewriteRule) (limit : Nat) (p : Plan) (result : Except QueryError (Plan × Nat)),
      Loops rule.apply limit p result ↔ rule.settle limit p = result) ∧
    ∀ (limit : Nat) (rules : List RewriteRule) (p : Plan) (result : Except QueryError Plan),
      Runs limit (rules.map RewriteRule.apply) p result ↔ (optimise limit rules p).1 = result := by
  refine ⟨fun _ _ => passes_none_iff,?_,fun _ _ _ _ => runs_error_iff,fun _ _ _ _ _ => Runs.unique,
    fun rule _ _ => passes_apply_iff rule,fun rule _ _ _ => loops_apply_iff rule,
    fun _ rules _ _ => runs_apply_iff rules⟩
  intro limit passes before f after p q r hbefore hloop hlimit
  refine ⟨hloop.rests hlimit,fun result => ?_⟩
  have hstep : Runs limit [f] q (.ok r) := .next hloop (.done r)
  rw [hbefore.append_iff,← List.singleton_append,hstep.append_iff]

end Rewriting

/-- Orders and customers, with a filter on the rows of either side; one filter stands on the other. -/
def filteredTwice : Plan :=
  .filter (.filter (.join (.scan orders) (.scan customers)
        (.call .eq [.column 2 .integer,.column 3 .integer] .boolean) .inner)
      (.call .gt [.column 1 .integer,.literal (.integer 10)] .boolean))
    (.call .eq [.column 4 .varchar,.literal (.string "Aachen")] .boolean)

/-- The lower filter is pushed into the join in a first pass, the upper one in a second. -/
def filteredBelow : Plan :=
  .join (.filter (.scan orders) (.call .gt [.column 1 .integer,.literal (.integer 10)] .boolean))
    (.filter (.scan customers) (.call .eq [.column 1 .varchar,.literal (.string "Aachen")] .boolean))
    (.call .eq [.column 2 .integer,.column 3 .integer] .boolean) .inner

theorem settle_filteredTwice :
    FilterPushing.rule.settle 10 filteredTwice = .ok (filteredBelow,2) := by decide +kernel

theorem Rewriting.runs_to_rest_filteredTwice :
    Runs 10 [AverageSplit.apply] filteredTwice (.ok filteredTwice) ∧
    Loops FilterPushing.apply 10 filteredTwice (.ok (filteredBelow,2)) ∧
    (∀ n ∈ filteredBelow.operators, FilterPushing.apply n = .ok none) ∧
    ∀ result, Runs 10 ([AverageSplit.apply] ++ FilterPushing.apply :: [IdentityProject.apply])
      filteredTwice result ↔ Runs 10 [IdentityProject.apply] filteredBelow result := by
  have hbefore : Runs 10 [AverageSplit.apply] filteredTwice (.ok filteredTwice) :=
    (runs_apply_iff [AverageSplit.rule]).2 (by decide +kernel)
  have hloop : Loops FilterPushing.apply 10 filteredTwice (.ok (filteredBelow,2)) :=
    (loops_apply_iff FilterPushing.rule).2 settle_filteredTwice
  exact ⟨hbefore,hloop,runs_to_rest.2.1 10 2 _ _ _ _ _ _ hbefore hloop (by decide)⟩

namespace RewriteRule
variable {rule : RewriteRule} {limit passes : Nat} {p q : Plan}

/-- A rule rests on what its loop ends with before the limit. -/
theorem rests_of_settle (h : rule.settle limit p = .ok (q,passes)) (hlimit : passes < limit) :
    rule.Rests q :=
  ((Rewriting.loops_apply_iff rule).2 h).rests hlimit

end RewriteRule
end QueryPlan
