import QueryPlan.Proofs.Relation.Demand
import QueryPlan.Proofs.Rewrite.Elimination
import QueryPlan.Proofs.Rewrite.Fixpoint

/-! # Rules that end in a plan

A pass fails where its rule does, and nowhere else. Of the rules before the last one only the split of
averages can fail, and not where averages are taken of numbers. -/
namespace QueryPlan
open Plan

namespace RewriteRule
variable {rule : RewriteRule} {p q : Plan}

/-- What a rule does not fail on, and leaves below what it puts in its place, a pass ends on. -/
theorem pass_total {P : Plan → Prop} (hP : ∀ p, P p → ∃ rewritten, rule.apply p = .ok rewritten ∧
      ∀ q ∈ (rewritten.getD p).inputs, P q) (hp : P p) : ∃ result, rule.pass p = .ok result := by
  induction hn : rule.rank p using Nat.strongRecOn generalizing p with
  | ind n ih =>
    obtain ⟨rewritten,hr,hinputs⟩ := hP p hp
    obtain ⟨below,hbelow⟩ := mapM_total fun q hq =>
      ih _ (hn ▸ rank_lt_of_mem_inputs hr hq) (hinputs q hq) rfl
    refine ⟨finish p rewritten below,?_⟩
    rw [pass_eq]
    exact bind_eq_ok_iff.2 ⟨rewritten,hr,bind_eq_ok_iff.2 ⟨below,hbelow,rfl⟩⟩

/-- A pass fails as its rule does. -/
theorem pass_error {E : QueryError → Prop} (hE : ∀ p e, rule.apply p = .error e → E e) {e : QueryError}
    (h : rule.pass p = .error e) : E e := by
  induction hn : rule.rank p using Nat.strongRecOn generalizing p with
  | ind n ih =>
    rw [pass_eq] at h
    obtain h|⟨rewritten,hr,h⟩ := bind_eq_error_iff.1 h
    · exact hE p e h
    obtain h|⟨below,-,h⟩ := bind_eq_error_iff.1 h
    · obtain ⟨q,hq,h⟩ := exists_of_mapM_error h
      exact ih _ (hn ▸ rank_lt_of_mem_inputs hr hq) h rfl
    · cases h

/-- After one pass that ends at rest, the loop ends, too. -/
theorem settle_total {result : Option Plan} {limit : Nat} (hlimit : 0 < limit)
    (hpass : rule.pass p = .ok result) (hrests : rule.Rests (result.getD p)) :
    ∃ k, rule.settle limit p = .ok (result.getD p,k) := by
  obtain ⟨limit,rfl⟩ := Nat.exists_eq_add_one.2 hlimit
  cases result with
  | none => exact ⟨0,bind_eq_ok_iff.2 ⟨none,hpass,rfl⟩⟩
  | some r => exact ⟨1,bind_eq_ok_iff.2 ⟨some r,hpass,bind_eq_ok_iff.2
      ⟨(r,0),settle_of_rests hrests limit,rfl⟩⟩⟩

theorem settle_error {e : QueryError} {limit : Nat} (hlimit : 0 < limit) (hpass : rule.pass p = .error e) :
    rule.settle limit p = .error e := by
  obtain ⟨limit,rfl⟩ := Nat.exists_eq_add_one.2 hlimit
  rw [settle]
  exact bind_eq_error_iff.2 (.inl hpass)

end RewriteRule

section
variable {limit : Nat} {rule : RewriteRule} {rules before : List RewriteRule} {p q : Plan}

theorem optimise_cons_of_ok {k : Nat} (h : rule.settle (max limit 1) p = .ok (q,k)) :
    (optimise limit (rule :: rules) p).1 = (optimise limit rules q).1 := by
  rw [optimise,h]

theorem optimise_cons_of_error {e : QueryError} (h : rule.settle (max limit 1) p = .error e) :
    (optimise limit (rule :: rules) p).1 = .error e := by
  rw [optimise,h]

theorem optimise_append_of_ok (h : (optimise limit before p).1 = .ok q) :
    (optimise limit (before ++ rules) p).1 = (optimise limit rules q).1 := by
  induction before generalizing p with
  | nil =>
    cases h
    rfl
  | cons rule before ih =>
    obtain ⟨r,passes,hr,h⟩ := optimise_cons_eq_ok h
    rw [List.cons_append,optimise_cons_of_ok hr]
    exact ih h

/-- A program that leads from one kind of plans to another ends if all passes do. -/
theorem LeadsThrough.total {From To : Plan → Prop} (h : LeadsThrough From rules To)
    (htotal : ∀ rule ∈ rules, ∀ p, ∃ result, rule.pass p = .ok result) (hp : From p) :
    ∃ q, (QueryPlan.optimise limit rules p).1 = .ok q := by
  induction h generalizing p with
  | done S => exact ⟨p,rfl⟩
  | step hlead _ ih =>
    obtain ⟨hrule,hrules⟩ := List.forall_mem_cons.1 htotal
    obtain ⟨result,hpass⟩ := hrule p
    obtain ⟨hmid,hrests⟩ := hlead p result hp hpass
    obtain ⟨k,hsettle⟩ := RewriteRule.settle_total (show 0 < max limit 1 by omega) hpass hrests
    rw [optimise_cons_of_ok hsettle]
    exact ih hrules hmid

end

/-! ## Averages of numbers -/

theorem SqlType.divisive_isSome {t : SqlType} (h : t.isNumeric) : (t.divisive .bigInt).isSome := by
  cases t with
  | decimal precision scale => rfl
  | integer => rfl
  | bigInt => rfl
  | double => rfl
  | _ => cases h

/-- An aggregate at the root takes averages of numbers only. -/
def Plan.AveragesNumbers : Plan → Prop
  | aggregate _ _ calls => ∀ c ∈ calls, c.function = .avg → c.type.isNumeric
  | _ => True

namespace AverageSplit

theorem splitCall_total {groups : Nat} {placed : List AggregateCall} {c : AggregateCall}
    (hc : c.function = .avg → c.type.isNumeric) : ∃ r, splitCall groups placed c = .ok r := by
  unfold splitCall
  split
  · exact ⟨_,rfl⟩
  · rename_i havg
    obtain ⟨t,ht⟩ := Option.isSome_iff_exists.1 (SqlType.divisive_isSome (hc (not_not.1 havg)))
    have hquotient (s n : Nat) : Expr.ofCall .divide [.column s c.type,.column n .bigInt]
        = .ok (.call .divide [.column s c.type,.column n .bigInt] t) :=
      Expr.ofCall_eq_ok_iff.2 ⟨t,ht,rfl⟩
    exact ⟨_,bind_eq_ok_iff.2 ⟨_,hquotient _ _,rfl⟩⟩

theorem splitCalls_total {groups : Nat} {placed calls : List AggregateCall}
    (h : ∀ c ∈ calls, c.function = .avg → c.type.isNumeric) :
    ∃ r, splitCalls groups placed calls = .ok r := by
  induction calls generalizing placed with
  | nil => exact ⟨_,rfl⟩
  | cons c cs ih =>
    obtain ⟨hc,hcs⟩ := List.forall_mem_cons.1 h
    obtain ⟨r,hr⟩ := splitCall_total hc
    obtain ⟨r',hr'⟩ := ih hcs
    exact ⟨_,bind_eq_ok_iff.2 ⟨r,hr,bind_eq_ok_iff.2 ⟨r',hr',rfl⟩⟩⟩

theorem pass_total_of_numbers {p : Plan} (hp : p.Everywhere AveragesNumbers) :
    ∃ result, rule.pass p = .ok result := by
  refine RewriteRule.pass_total (fun p hp => ?_) hp
  obtain ⟨hroot,hinputs⟩ := everywhere_iff.1 hp
  by_cases hnone : rule.apply p = .ok none
  · exact ⟨none,hnone,hinputs⟩
  obtain ⟨r,hr⟩ : ∃ r, rule.apply p = .ok r := by
    change ∃ r, apply p = .ok r
    unfold apply
    split
    · split
      · obtain ⟨r,hr⟩ := splitCalls_total hroot
        exact ⟨_,bind_eq_ok_iff.2 ⟨r,hr,rfl⟩⟩
      · exact ⟨_,rfl⟩
    · exact ⟨_,rfl⟩
  refine ⟨r,hr,?_⟩
  cases r with
  | none => exact absurd hr hnone
  | some q =>
    obtain ⟨input,groups,calls,placed,values,rfl,hs,rfl⟩ := apply_eq_some hr
    -- No average is left among the calls that are placed.
    have hplaced := splitCalls_no_avg (by simp) hs
    simp only [Option.getD_some,inputs,List.mem_singleton,forall_eq]
    exact everywhere_aggregate.2 ⟨fun c hc havg => absurd havg (hplaced c hc),
      (everywhere_aggregate.1 hp).2⟩

end AverageSplit

/-! ## The rules before the last one -/

/-- A rule that never fails ends its passes. -/
theorem RewriteRule.pass_total_of_apply {rule : RewriteRule} (h : ∀ p, ∃ r, rule.apply p = .ok r)
    (p : Plan) : ∃ result, rule.pass p = .ok result :=
  pass_total (P := fun _ => True) (fun p _ => (h p).imp fun _ hr => ⟨hr,fun _ _ => trivial⟩) trivial

theorem pass_total_of_mem {rule : RewriteRule} (h : rule ∈ ArrowScans.earlier.tail) (p : Plan) :
    ∃ result, rule.pass p = .ok result := by
  refine rule.pass_total_of_apply (fun p => ?_) p
  simp only [ArrowScans.earlier,List.tail_cons,List.mem_cons,List.not_mem_nil,or_false] at h
  rcases h with rfl|rfl|rfl|rfl|rfl
  · change ∃ r, FilterPushing.apply p = .ok r
    unfold FilterPushing.apply
    split <;> exact ⟨_,rfl⟩
  · change ∃ r, ColumnPruning.apply p = .ok r
    unfold ColumnPruning.apply
    split
    · dsimp only
      split <;> exact ⟨_,rfl⟩
    · exact ⟨_,rfl⟩
  · change ∃ r, IdentityProject.apply p = .ok r
    unfold IdentityProject.apply
    split
    · split <;> exact ⟨_,rfl⟩
    · exact ⟨_,rfl⟩
  · change ∃ r, ArrowScans.projectScan p = .ok r
    unfold ArrowScans.projectScan
    split <;> exact ⟨_,rfl⟩
  · change ∃ r, ArrowScans.wholeScan p = .ok r
    unfold ArrowScans.wholeScan
    split <;> exact ⟨_,rfl⟩

theorem leadsThrough_earlier : LeadsThrough (fun p => p.WellPlaced ∧ p.Everywhere Unrewritten)
    ArrowScans.earlier (Everywhere (QuietFor ArrowScans.earlier)) :=
  leadsThrough_firstRules.append
    (.step ArrowScans.leads_projectScan (.step ArrowScans.leads_wholeScan (.done _)))

/-- Up to the last rule the program ends in a plan. -/
theorem optimise_earlier_total {p : Plan} (hp : p.WellPlaced ∧ p.Everywhere Unrewritten)
    (hnumbers : p.Everywhere AveragesNumbers) (limit : Nat) :
    ∃ q, (optimise limit ArrowScans.earlier p).1 = .ok q := by
  have hlead : LeadsThrough _ (AverageSplit.rule :: ArrowScans.earlier.tail) _ := leadsThrough_earlier
  cases hlead with
  | step hfirst hrest =>
    obtain ⟨result,hpass⟩ := AverageSplit.pass_total_of_numbers hnumbers
    obtain ⟨hmid,hrests⟩ := hfirst p result hp hpass
    obtain ⟨k,hsettle⟩ := RewriteRule.settle_total (show 0 < max limit 1 by omega) hpass hrests
    obtain ⟨q,hq⟩ := hrest.total (fun _ hrule => pass_total_of_mem hrule) hmid
    exact ⟨q,(optimise_cons_of_ok hsettle).trans hq⟩

end QueryPlan
