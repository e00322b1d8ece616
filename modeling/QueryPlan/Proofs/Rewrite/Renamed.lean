import QueryPlan.Proofs.Relation.Renamed

/-! # Rules do not look at names

Two rules make up names, one for the calls that serve an average and one for pruned columns. None
looks at a name before it decides, so plans under other names are rewritten to plans under other
names, or refused with one error. -/
namespace QueryPlan
open Plan

/-! ## Averages -/

namespace AverageSplit
variable {placed placed' calls calls' : List AggregateCall} {c d : AggregateCall} {groups : Nat}

theorem findIdx?_renamed (hplaced : placed.Forall₂ AggregateCall.Renamed placed')
    (h : c.Renamed d) :
    placed.findIdx? (·.sameComputation c) = placed'.findIdx? (·.sameComputation d) := by
  obtain ⟨name,rfl⟩ := h
  induction hplaced with
  | nil => rfl
  | cons h _ ih =>
    obtain ⟨name',rfl⟩ := h
    rw [List.findIdx?_cons,List.findIdx?_cons,ih]
    rfl

theorem place_renamed (hplaced : placed.Forall₂ AggregateCall.Renamed placed') (h : c.Renamed d) :
    (place groups placed c).1.Forall₂ AggregateCall.Renamed (place groups placed' d).1 ∧
      (place groups placed c).2 = (place groups placed' d).2 := by
  unfold place
  rw [findIdx?_renamed hplaced h]
  split
  · exact ⟨hplaced,rfl⟩
  · -- a call without a name gets one, so the two calls may go by different names from here on
    obtain ⟨name,rfl⟩ := h
    exact ⟨List.rel_append hplaced (.cons ⟨_,rfl⟩ .nil),hplaced.length_eq⟩

theorem splitCall_renamed (hplaced : placed.Forall₂ AggregateCall.Renamed placed')
    (h : c.Renamed d) :
    LiftRel Eq (fun r s => r.1.Forall₂ AggregateCall.Renamed s.1 ∧ r.2 = s.2)
      (splitCall groups placed c) (splitCall groups placed' d) := by
  obtain ⟨name,rfl⟩ := h
  unfold splitCall
  split
  · obtain ⟨hcalls,hk⟩ := place_renamed hplaced ⟨name,rfl⟩
    exact .ok ⟨hcalls,congrArg (fun k => Expr.column (groups+k) c.type) hk⟩
  · obtain ⟨hsum,hs⟩ := place_renamed hplaced
      (c := { c with function := .sum,name := "" }) ⟨"",rfl⟩
    obtain ⟨hcount,hn⟩ := place_renamed hsum
      (c := { c with function := .count,type := .bigInt,name := "" }) ⟨"",rfl⟩
    dsimp only
    rw [hs,hn]
    refine (LiftRel.refl (R := Eq) (fun _ => rfl) (fun _ => rfl) _).bind fun a b hab => ?_
    cases hab
    exact .ok ⟨hcount,rfl⟩

theorem splitCalls_renamed (hplaced : placed.Forall₂ AggregateCall.Renamed placed')
    (h : calls.Forall₂ AggregateCall.Renamed calls') :
    LiftRel Eq (fun r s => r.1.Forall₂ AggregateCall.Renamed s.1 ∧ r.2 = s.2)
      (splitCalls groups placed calls) (splitCalls groups placed' calls') := by
  induction h generalizing placed placed' with
  | nil => exact .ok ⟨hplaced,rfl⟩
  | cons hcd _ ih =>
    rw [splitCalls,splitCalls]
    refine (splitCall_renamed hplaced hcd).bind fun r s hrs => ?_
    refine (ih hrs.1).bind fun r' s' hrs' => ?_
    exact .ok ⟨hrs'.1,by rw [hrs.2,hrs'.2]⟩

theorem respects_renamed : rule.Respects Renamed := by
  intro p q h
  change LiftRel Eq (Option.Rel Renamed) (apply p) (apply q)
  cases h with
  | aggregate groups hcalls h =>
    have htypes := (Renamed.aggregate groups hcalls h).map_type_fields_eq
    have hlength := congrArg List.length htypes
    have hany := AggregateCall.any_eq_of_renamed (g := fun c => c.function == .avg)
      (fun _ _ => rfl) hcalls
    simp only [apply,hany,← List.getElem?_map,htypes]
    split
    · refine (splitCalls_renamed .nil hcalls).bind fun r s hrs => ?_
      rw [hrs.2]
      exact .ok (.some (.project _ (by simpa using hlength) (.aggregate groups hrs.1 h)))
    · exact .ok .none
  | _ => exact .ok .none

end AverageSplit

/-! ## Filters -/

namespace FilterPushing

theorem filtered_renamed {p q : Plan} (h : Renamed p q) (es : List Expr) :
    Renamed (filtered p es) (filtered q es) := by
  unfold filtered
  split
  · exact h
  · exact .filter _ h

theorem respects_renamed : rule.Respects Renamed := by
  intro p q h
  change LiftRel Eq (Option.Rel Renamed) (apply p) (apply q)
  cases h with
  | filter condition h =>
    cases h with
    | join on kind hl hr =>
      cases kind with
      | inner =>
        simp only [apply,hl.width_eq]
        exact .ok (.some (.join _ _ (filtered_renamed hl _) (filtered_renamed hr _)))
      | _ => exact .ok .none
    | _ => exact .ok .none
  | _ => exact .ok .none

end FilterPushing

/-! ## Projections -/

namespace ColumnPruning

theorem prune_renamed {p q : Plan} (h : Renamed p q) (cols : List Nat) :
    Renamed (prune p cols) (prune q cols) := by
  have htype : ∀ c, (p.fields[c]?).map Field.type = (q.fields[c]?).map Field.type := fun c => by
    rw [← List.getElem?_map,← List.getElem?_map,h.map_type_fields_eq]
  unfold prune
  simp only [h.width_eq,htype]
  split
  · exact h
  · exact h.projectDerived _

theorem respects_renamed : rule.Respects Renamed := by
  intro p q h
  change LiftRel Eq (Option.Rel Renamed) (apply p) (apply q)
  cases h with
  | project es hnames h =>
    cases h with
    | join on kind hl hr =>
      simp only [apply,hl.width_eq,hr.width_eq]
      split
      · exact .ok .none
      · exact .ok (.some (.project _ hnames (.join _ kind (prune_renamed hl _) (prune_renamed hr _))))
    | _ => exact .ok .none
  | _ => exact .ok .none

end ColumnPruning

theorem IdentityProject.respects_renamed : rule.Respects Renamed := by
  intro p q h
  change LiftRel Eq (Option.Rel Renamed) (apply p) (apply q)
  cases h with
  | project es hnames h =>
    simp only [apply,h.width_eq]
    split
    · exact .ok (.some h)
    · exact .ok .none
  | _ => exact .ok .none

/-! ## Scans -/

namespace ArrowScans

theorem projectUnlessIdentity_renamed {p q : Plan} {names names' : List String} (es : List Expr)
    (h : Renamed p q) (hnames : names.length = names'.length) :
    Renamed (projectUnlessIdentity p es names) (projectUnlessIdentity q es names') := by
  unfold projectUnlessIdentity
  rw [h.width_eq]
  split
  · exact h
  · exact .project es hnames h

theorem projectScan_respects_renamed : projectScanRule.Respects Renamed := by
  intro p q h
  change LiftRel Eq (Option.Rel Renamed) (projectScan p) (projectScan q)
  cases h with
  | project es hnames h =>
    cases h with
    | scan t => exact .ok (.some (projectUnlessIdentity_renamed _ (.arrowScan t _) hnames))
    | _ => exact .ok .none
  | _ => exact .ok .none

theorem wholeScan_respects_renamed : wholeScanRule.Respects Renamed := by
  intro p q h
  cases h with
  | scan t => exact .ok (.some (.arrowScan t _))
  | _ => exact .ok .none

theorem filterScan_respects_renamed : filterScanRule.Respects Renamed := by
  intro p q h
  change LiftRel Eq (Option.Rel Renamed) (filterScan p) (filterScan q)
  cases h with
  | project es hnames h =>
    cases h with
    | filter condition h =>
      cases h with
      | arrowScan t whole =>
        simp only [filterScan]
        split
        · exact .ok .none
        · cases condition with
          | call op args type =>
            dsimp only
            split
            · exact .ok .none
            · exact .ok (.some (projectUnlessIdentity_renamed _ (.filter _ (.arrowScan t _)) hnames))
          | _ => exact .error rfl
      | _ => exact .ok .none
    | _ => exact .ok .none
  | _ => exact .ok .none

end ArrowScans

theorem respects_renamed_of_mem {rule : RewriteRule} (h : rule ∈ defaultRules) :
    rule.Respects Renamed := by
  simp only [defaultRules,List.mem_cons,List.not_mem_nil,or_false] at h
  rcases h with rfl|rfl|rfl|rfl|rfl|rfl|rfl
  · exact AverageSplit.respects_renamed
  · exact FilterPushing.respects_renamed
  · exact ColumnPruning.respects_renamed
  · exact IdentityProject.respects_renamed
  · exact ArrowScans.projectScan_respects_renamed
  · exact ArrowScans.wholeScan_respects_renamed
  · exact ArrowScans.filterScan_respects_renamed

/-- The program makes of plans under other names plans under other names, or one error. -/
theorem optimise_renamed (limit : Nat) {p q : Plan} (h : Renamed p q) :
    LiftRel Eq Renamed (optimise limit defaultRules p).1 (optimise limit defaultRules q).1 :=
  optimise_rel Renamed.lockstep (fun _ => respects_renamed_of_mem) limit h

end QueryPlan
