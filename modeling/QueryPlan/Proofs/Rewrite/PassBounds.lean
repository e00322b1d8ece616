import QueryPlan.Proofs.Rewrite.Elimination
import QueryPlan.Proofs.Rewrite.Narrowing
import QueryPlan.Proofs.Rewrite.Passes

/-! # How many passes change a plan

Five rules come to rest in one pass, whatever plan they are run on. The other two have measures that
a pass lowers wherever it changes something: the number of operators where projections are dropped,
and, where filters are pushed down, how many filters lie above an inner join. -/
namespace QueryPlan
open Plan

/-! ## Positions in range -/

namespace Plan

/-- Positions at the root are those of columns that there are: in the row of the inputs, or in the
table that is read. -/
def InRange : Plan → Prop
  | scan _ => True
  | arrowScan t cols => ∀ i ∈ cols, i < t.width
  | filter input condition => ∀ i ∈ condition.occurrences, i < input.width
  | project input es _ => ∀ e ∈ es, ∀ i ∈ e.occurrences, i < input.width
  | join left right condition _ => ∀ i ∈ condition.occurrences, i < left.width+right.width
  | aggregate input groups calls =>
    (∀ g ∈ groups, g < input.width) ∧ ∀ c ∈ calls, ∀ a ∈ c.args, a < input.width

instance : DecidablePred InRange
  | scan _ => .isTrue trivial
  | arrowScan t cols => inferInstanceAs (Decidable (∀ i ∈ cols, i < t.width))
  | filter input condition =>
    inferInstanceAs (Decidable (∀ i ∈ condition.occurrences, i < input.width))
  | project input es _ =>
    inferInstanceAs (Decidable (∀ e ∈ es, ∀ i ∈ e.occurrences, i < input.width))
  | join left right condition _ =>
    inferInstanceAs (Decidable (∀ i ∈ condition.occurrences, i < left.width+right.width))
  | aggregate input groups calls => inferInstanceAs (Decidable
      ((∀ g ∈ groups, g < input.width) ∧ ∀ c ∈ calls, ∀ a ∈ c.args, a < input.width))

end Plan

/-! ## Loops and measures -/

namespace RewriteRule
variable {rule : RewriteRule} {p q : Plan} {limit passes : Nat}

/-- A measure that each pass lowers that changes something bounds the number of those passes. -/
theorem settle_passes_le {μ : Plan → Nat} (hμ : ∀ p q, rule.pass p = .ok (some q) → μ q < μ p)
    (h : rule.settle limit p = .ok (q,passes)) : passes ≤ μ p := by
  induction limit generalizing p passes with
  | zero =>
    cases h
    exact Nat.zero_le _
  | succ limit ih =>
    obtain ⟨result,hresult,h⟩ := bind_eq_ok_iff.1 h
    cases result with
    | none =>
      cases h
      exact Nat.zero_le _
    | some r =>
      obtain ⟨⟨s,k⟩,hs,h⟩ := bind_eq_ok_iff.1 h
      cases h
      exact Nat.lt_of_le_of_lt (ih hs) (hμ p r hresult)

/-- A pass that changes something lowers a measure that only plans at rest keep. -/
theorem lt_of_pass {μ : Plan → Nat} (h : rule.pass p = .ok (some q)) (hle : μ q ≤ μ p)
    (hrests : μ q = μ p → rule.Rests p) : μ q < μ p := by
  refine Nat.lt_of_le_of_ne hle fun heq => ?_
  rw [pass_of_rests (hrests heq)] at h
  cases h

theorem Leads.passes_le_one {From To : Plan → Prop} (hrule : rule.Leads From To) (hp : From p)
    (h : rule.settle limit p = .ok (q,passes)) : passes ≤ 1 := by
  cases limit with
  | zero =>
    cases h
    exact Nat.zero_le 1
  | succ limit =>
    obtain ⟨result,hresult,-⟩ := bind_eq_ok_iff.1 h
    exact (settle_of_pass (Nat.succ_pos limit) hresult (hrule p result hp hresult).2 h).2

end RewriteRule

/-! ## Filters -/

namespace FilterPushing

/-- An inner join, or filters above one. -/
def overJoin : Plan → Bool
  | .join _ _ _ kind => kind = .inner
  | .filter input _ => overJoin input
  | _ => false

/-- How many filters lie above an inner join, with nothing but filters between, at most on a way
through the plan. -/
def stacked : Plan → Nat
  | .scan _ | .arrowScan _ _ => 0
  | .filter input _ => stacked input + if overJoin input then 1 else 0
  | .project input _ _ | .aggregate input _ _ => stacked input
  | .join left right _ _ => max (stacked left) (stacked right)

variable {p q : Plan}

theorem stacked_le_size (p : Plan) : stacked p ≤ p.size := by
  induction p with
  | scan t | arrowScan t cols => exact Nat.zero_le _
  | filter input c ih =>
    simp only [stacked,size]
    split <;> omega
  | project input es ns ih | aggregate input gs cs ih => exact Nat.le_succ_of_le ih
  | join left right on kind ihl ihr =>
    simp only [stacked,size]
    omega

theorem stacked_filtered_le (p : Plan) (es : List Expr) : stacked (filtered p es) ≤ stacked p+1 := by
  refine filtered_induction (Nat.le_succ _) fun _ => ?_
  simp only [stacked]
  split <;> omega

theorem apply_eq_none_iff {input : Plan} {condition : Expr} :
    rule.apply (.filter input condition) = .ok none ↔
      ∀ left right on, input ≠ .join left right on .inner := by
  rw [apply_eq_none]
  constructor
  · rintro h left right on rfl
    exact h _ _ rfl _ _ _ rfl
  · rintro h _ _ he lw rw on hface
    cases he
    obtain ⟨left,right,rfl,-,-⟩ := eq_join_of_face hface
    exact h left right on rfl

theorem stacked_pos {input : Plan} {condition : Expr} (h : overJoin input)
    (hnone : rule.apply (.filter input condition) = .ok none) : 0 < stacked input := by
  cases input with
  | join left right on kind =>
    exact absurd (by rw [of_decide_eq_true h]) (apply_eq_none_iff.1 hnone left right on)
  | filter input c =>
    simp only [overJoin] at h
    simp [stacked,h]
  | _ => cases h

theorem rests_of_stacked (h : stacked p = 0) : rule.Rests p := by
  induction p with
  | scan t => exact everywhere_scan.2 rfl
  | arrowScan t cols => exact everywhere_arrowScan.2 rfl
  | filter input c ih =>
    simp only [stacked,Nat.add_eq_zero_iff,ite_eq_right_iff,Nat.one_ne_zero,imp_false] at h
    refine everywhere_filter.2 ⟨apply_eq_none_iff.2 fun left right on he => h.2 ?_,ih h.1⟩
    simp [he,overJoin]
  | project input es ns ih => exact everywhere_project.2 ⟨rfl,ih h⟩
  | aggregate input gs cs ih => exact everywhere_aggregate.2 ⟨rfl,ih h⟩
  | join left right on kind ihl ihr =>
    simp only [stacked,Nat.max_eq_zero_iff] at h
    exact everywhere_join.2 ⟨rfl,ihl h.1,ihr h.2⟩

/-- What a pass makes of a plan: of each stack one filter is gone, if there was one, and no new stack
has come up. -/
structure Unstacks (p q : Plan) : Prop where
  stacked : stacked q ≤ stacked p-1
  overJoin : overJoin q → overJoin p

theorem unstacks_of_pass {result : Option Plan} (h : rule.pass p = .ok result) :
    Unstacks p (result.getD p) := by
  refine RewriteRule.pass_steps (fun p rewritten q hr hq => ?_) h
  cases rewritten with
  | none =>
    rw [Option.getD_none] at hq
    cases hq with
    | scan t | arrowScan t cols => exact ⟨Nat.zero_le _,id⟩
    | @filter c d condition hcd =>
      refine ⟨?_,hcd.overJoin⟩
      have hle := hcd.stacked
      simp only [FilterPushing.stacked]
      by_cases hd : overJoin d
      · have hc := hcd.overJoin hd
        have hpos := stacked_pos hc hr
        rw [if_pos hd,if_pos hc]
        omega
      · rw [if_neg hd]
        split <;> omega
    | project es ns hcd | aggregate gs cs hcd => exact ⟨hcd.stacked,nofun⟩
    | join on kind hcd hcd' =>
      have hle := hcd.stacked
      have hle' := hcd'.stacked
      refine ⟨?_,id⟩
      simp only [FilterPushing.stacked]
      omega
  | some r =>
    obtain ⟨left,right,on,condition,rfl,rfl⟩ := apply_eq_some hr
    cases hq with
    | join on' kind hl hr =>
      -- The pushed filters may come to stand above joins, and the pass goes on with them.
      have hle := hl.stacked
      have hle' := hr.stacked
      have hfiltered := stacked_filtered_le left (among left.width condition on .left)
      have hfiltered' := stacked_filtered_le right
        ((among left.width condition on .right).map (Expr.shiftDown left.width))
      refine ⟨?_,fun _ => rfl⟩
      simp only [FilterPushing.stacked,FilterPushing.overJoin,decide_true,if_true]
      omega

theorem stacked_lt_of_pass (h : rule.pass p = .ok (some q)) : stacked q < stacked p := by
  have hle := (unstacks_of_pass h).stacked
  rw [Option.getD_some] at hle
  exact RewriteRule.lt_of_pass h (by omega) fun heq => rests_of_stacked (by omega)

end FilterPushing

/-! ## Projections -/

namespace IdentityProject
variable {p q : Plan}

/-- A pass drops at least one of several identities that stand on each other. -/
theorem size_of_pass {result : Option Plan} (h : rule.pass p = .ok result) :
    (result.getD p).size ≤ p.size ∧ ((result.getD p).size = p.size → rule.Rests p) := by
  refine RewriteRule.pass_steps (R := fun p q => q.size ≤ p.size ∧ (q.size = p.size → rule.Rests p))
    (fun p rewritten q hr hq => ?_) h
  cases rewritten with
  | none =>
    rw [Option.getD_none] at hq
    cases hq with
    | scan t => exact ⟨Nat.le_refl _,fun _ => everywhere_scan.2 hr⟩
    | arrowScan t cols => exact ⟨Nat.le_refl _,fun _ => everywhere_arrowScan.2 hr⟩
    | filter c hcd =>
      exact ⟨Nat.succ_le_succ hcd.1,fun heq => everywhere_filter.2 ⟨hr,hcd.2 (Nat.succ.inj heq)⟩⟩
    | project es ns hcd =>
      exact ⟨Nat.succ_le_succ hcd.1,fun heq => everywhere_project.2 ⟨hr,hcd.2 (Nat.succ.inj heq)⟩⟩
    | aggregate gs cs hcd =>
      exact ⟨Nat.succ_le_succ hcd.1,fun heq => everywhere_aggregate.2 ⟨hr,hcd.2 (Nat.succ.inj heq)⟩⟩
    | join on kind hcd hcd' =>
      obtain ⟨hle,hrests⟩ := hcd
      obtain ⟨hle',hrests'⟩ := hcd'
      simp only [size]
      exact ⟨by omega,fun heq =>
        everywhere_join.2 ⟨hr,hrests (by omega),hrests' (by omega)⟩⟩
  | some r =>
    obtain ⟨exprs,names,rfl,-⟩ := apply_eq_some hr
    have hle : q.size ≤ r.size := by
      cases hq with
      | scan t | arrowScan t cols => exact Nat.le_refl _
      | filter _ hcd | project _ _ hcd | aggregate _ _ hcd => exact Nat.succ_le_succ hcd.1
      | join on kind hcd hcd' =>
        have := hcd.1
        have := hcd'.1
        simp only [size]
        omega
    simp only [size]
    exact ⟨by omega,fun heq => by omega⟩

theorem size_lt_of_pass (h : rule.pass p = .ok (some q)) : q.size < p.size :=
  RewriteRule.lt_of_pass h (size_of_pass h).1 (size_of_pass h).2

end IdentityProject

/-! ## Pruned joins -/

namespace ColumnPruning
variable {leftWidth rightWidth : Nat} {exprs : List Expr} {on : Expr}

theorem needed_lt_of_inRange {left right : Plan} {kind : JoinKind} {names : List String}
    (hes : InRange (.project (.join left right on kind) exprs names))
    (hon : InRange (.join left right on kind)) : ∀ i ∈ needed exprs on, i < left.width+right.width := by
  intro i hi
  rcases mem_needed.1 hi with ⟨e,he,hi⟩|hi
  · exact hes e he i hi
  · exact hon i hi

/-- A column in use is moved to one of the columns kept. -/
theorem moved_lt {i : Nat} (hi : i ∈ needed exprs on) :
    moved leftWidth (fromLeft leftWidth exprs on) (fromRight leftWidth rightWidth exprs on) i
      < (fromLeft leftWidth exprs on).length+(fromRight leftWidth rightWidth exprs on).length := by
  unfold moved
  split
  · rename_i hlt
    exact Nat.lt_add_right _ (Expr.positionIn_lt (mem_fromLeft hi hlt))
  · rename_i hle
    exact Nat.add_lt_add_left (Expr.positionIn_lt (mem_fromRight rightWidth hi (Nat.le_of_not_lt hle))) _

theorem lt_of_mem_renumber {e : Expr} (he : ∀ i ∈ e.occurrences, i ∈ needed exprs on) {i : Nat}
    (hi : i ∈ (e.renumber (moved leftWidth (fromLeft leftWidth exprs on)
      (fromRight leftWidth rightWidth exprs on))).occurrences) :
    i < (fromLeft leftWidth exprs on).length+(fromRight leftWidth rightWidth exprs on).length := by
  rw [Expr.occurrences_renumber] at hi
  obtain ⟨j,hj,rfl⟩ := List.mem_map.1 hi
  exact moved_lt (he j hj)

theorem inRange_prune {p : Plan} {cols : List Nat} (hp : p.Everywhere InRange)
    (h : ∀ i ∈ cols, i < p.width) : (prune p cols).Everywhere InRange := by
  refine prune_induction (fun _ => hp) (everywhere_project.2 ⟨List.forall_mem_map.2 fun i hi => ?_,hp⟩)
  simpa [Expr.occurrences] using h i hi

theorem replaces_over {p q : Plan} (h : p.Over (Replaces Eq) q) : Replaces Eq p q := by
  cases h with
  | scan t | arrowScan t cols | aggregate gs cs h => exact ⟨rfl,rfl⟩
  | filter c h => exact ⟨h.width,rfl⟩
  | project es ns h => exact ⟨rfl,by rw [face,face,h.face,h.width]⟩
  | join c k h h' =>
    exact ⟨by rw [width,width,h.width,h'.width],by rw [face,face,h.width,h'.width]⟩

/-- Whatever stands on joins, their columns are pruned in one pass. -/
theorem settles_inRange : rule.Settles (Everywhere InRange) (fun p => rule.apply p = .ok none)
    (Replaces Eq) where
  leaves p hp hnone := ⟨(everywhere_iff.1 hp).2,hnone,rfl,rfl⟩
  rewrites p r hp hsome := by
    obtain ⟨left,right,on,kind,exprs,names,rfl,rfl⟩ := apply_eq_some hsome
    obtain ⟨hes,hj⟩ := everywhere_project.1 hp
    obtain ⟨hon,hl,hr⟩ := everywhere_join.1 hj
    have hneeded := needed_lt_of_inRange hes hon
    have hused : ∀ i ∈ on.occurrences, i ∈ needed exprs on := fun i hi => mem_needed.2 (.inr hi)
    have hshown : ∀ e ∈ exprs, ∀ i ∈ e.occurrences, i ∈ needed exprs on :=
      fun e he i hi => mem_needed.2 (.inl ⟨e,he,hi⟩)
    refine ⟨?_,?_,⟨by simp [width],?_⟩⟩
    · simp only [inputs,List.mem_singleton,forall_eq]
      refine everywhere_join.2 ⟨?_,inRange_prune hl inOrder_fromLeft.2,
        inRange_prune hr (inOrder_fromRight hneeded).2⟩
      simpa only [InRange,width_prune] using fun i hi => lt_of_mem_renumber hused hi
    · refine apply_eq_none.2 fun input' exprs' names' he lw rw on' kind' hface => ?_
      cases he
      cases hface
      simp only [width_prune]
      refine length_moved rfl hneeded fun i hi => ?_
      rcases mem_needed.1 hi with ⟨e,he,hi⟩|hi
      · obtain ⟨e,hmem,rfl⟩ := List.mem_map.1 he
        exact lt_of_mem_renumber (hshown e hmem) hi
      · exact lt_of_mem_renumber hused hi
    · rw [face_project_eq_project (by simp [face,Face.isGrouped]),
        face_project_eq_project (by simp [face,Face.isGrouped])]
  post_over p q hp h := by
    refine apply_eq_none.2 fun input exprs names hq lw rw on kind hface => ?_
    subst hq
    cases h with
    | project es ns h => exact apply_eq_none.1 hp _ _ _ rfl _ _ _ _ (h.face.trans hface)
  rel_over p r q _ hpr h :=
    ⟨(replaces_over h).width.trans hpr.width,hpr.face.trans (replaces_over h).face⟩

end ColumnPruning

/-! ## Scans -/

namespace ArrowScans

theorem projectUnlessIdentity_ne_scan {t t' : Table} {cols : List Nat} {exprs : List Expr}
    {names : List String} : projectUnlessIdentity (.arrowScan t cols) exprs names ≠ .scan t' := by
  unfold projectUnlessIdentity
  split <;> nofun

/-- Whatever stands on projected tables, they are narrowed in one pass. -/
theorem projectScan_settles_quiet : projectScanRule.Settles (fun _ => True)
    (fun p => projectScanRule.apply p = .ok none) (fun p q => q.face = .scan → p.face = .scan) where
  leaves p _ hnone := ⟨fun _ _ => trivial,hnone,id⟩
  rewrites p r _ hsome := by
    obtain ⟨t,exprs,names,rfl,rfl⟩ := projectScan_eq_some hsome
    refine ⟨fun _ _ => trivial,?_,fun hface => ?_⟩
    · refine projectUnlessIdentity_induction (fun _ => rfl) fun _ => projectScan_eq_none.2 ?_
      rintro _ _ _ he
      cases he
      nofun
    · obtain ⟨t',ht'⟩ := eq_scan_of_face hface
      exact absurd ht' projectUnlessIdentity_ne_scan
  post_over p q hp h := by
    refine projectScan_eq_none.2 fun input exprs names hq hface => ?_
    subst hq
    cases h with
    | project es ns h => exact projectScan_eq_none.1 hp _ _ _ rfl (h hface)
  rel_over p r q _ hpr h hface := by
    obtain ⟨t,rfl⟩ := eq_scan_of_face hface
    cases h
    exact hpr rfl

/-- Whatever stands on filtered tables, they are narrowed in one pass. -/
theorem filterScan_settles_quiet : filterScanRule.Settles (fun _ => True)
    (fun p => filterScanRule.apply p = .ok none) Narrows where
  leaves p _ hnone := ⟨fun _ _ => trivial,hnone,⟨.refl p,fun _ _ _ => rfl,fun _ _ _ => rfl⟩⟩
  rewrites p r _ hsome := by
    obtain ⟨t,condition,exprs,names,rfl,rfl⟩ := filterScan_eq_some hsome
    have hcols := length_filterCols hsome
    refine ⟨fun _ _ => trivial,filterScan_projectUnlessIdentity hcols,
      narrows_projectUnlessIdentity hcols ?_ (by simp [width])⟩
    exact face_project_eq_project (by simp [face,Face.isGrouped])
  post_over _ _ hp h := filterScan_over h hp
  rel_over _ _ _ _ := Narrows.over

end ArrowScans

/-! ## All rules -/

variable {rule : RewriteRule} {p : Plan} {limit : Nat}

/-- Of a plan whose positions are in range, no rule changes anything in more passes than there are
operators. -/
theorem passes_le_size_of_settle (hrule : rule ∈ defaultRules) (hp : p.Everywhere InRange) {q : Plan}
    {passes : Nat} (h : rule.settle limit p = .ok (q,passes)) : passes ≤ p.size := by
  simp only [defaultRules,List.mem_cons,List.not_mem_nil,or_false] at hrule
  have hone (hpasses : passes ≤ 1) : passes ≤ p.size := hpasses.trans p.size_pos
  rcases hrule with rfl|rfl|rfl|rfl|rfl|rfl|rfl
  · exact hone ((AverageSplit.settles_averageFree.leads fun _ =>
      AverageSplit.apply_of_averageFree).passes_le_one trivial h)
  · exact (RewriteRule.settle_passes_le (fun _ _ => FilterPushing.stacked_lt_of_pass) h).trans
      (FilterPushing.stacked_le_size p)
  · exact hone ((ColumnPruning.settles_inRange.leads fun _ => id).passes_le_one hp h)
  · exact RewriteRule.settle_passes_le (fun _ _ => IdentityProject.size_lt_of_pass) h
  · exact hone ((ArrowScans.projectScan_settles_quiet.leads fun _ => id).passes_le_one trivial h)
  · exact hone ((ArrowScans.wholeScan_settles_notScan.leads fun _ =>
      ArrowScans.apply_of_notScan).passes_le_one trivial h)
  · exact hone ((ArrowScans.filterScan_settles_quiet.leads fun _ => id).passes_le_one trivial h)

/-- A single rule that is run on a plan whose positions are in range, and that does not fail there,
ends by itself: no more passes change the plan than it has operators, and the loop ends with a pass
that changes nothing unless the limit is reached before. So only a limit that is no greater than the
number of operators is ever reported as reached. -/
theorem settle_ends (hrule : rule ∈ defaultRules) (hp : p.Everywhere InRange) (limit : Nat) :
    (∀ q passes, rule.settle limit p = .ok (q,passes) →
      passes ≤ p.size ∧ (passes < limit → rule.pass q = .ok none)) ∧
    ((∃ entry ∈ (optimise limit [rule] p).2, entry.event = "RULE_ITERATION_LIMIT") → limit ≤ p.size) := by
  refine ⟨fun q passes h => ⟨passes_le_size_of_settle hrule hp h,fun hlimit =>
    RewriteRule.pass_of_rests (RewriteRule.rests_of_settle h hlimit)⟩,?_⟩
  rintro ⟨entry,hentry,hevent⟩
  rw [optimise] at hentry
  split at hentry
  · cases hentry
  · rename_i q passes h
    have hle := passes_le_size_of_settle hrule hp h
    simp only [optimise,List.append_nil,RewriteRule.entries] at hentry
    rcases List.mem_append.1 hentry with hentry|hentry
    · split at hentry
      · omega
      · cases hentry
    · split at hentry
      · rw [List.mem_singleton.1 hentry] at hevent
        simp at hevent
      · cases hentry

theorem settle_ends_filteredTwice : FilterPushing.rule ∈ defaultRules ∧
    filteredTwice.Everywhere InRange ∧
    FilterPushing.rule.settle 10 filteredTwice = .ok (filteredBelow,2) ∧
    2 ≤ filteredTwice.size ∧ FilterPushing.rule.pass filteredBelow = .ok none ∧
    ((∃ entry ∈ (optimise 10 [FilterPushing.rule] filteredTwice).2,
      entry.event = "RULE_ITERATION_LIMIT") → 10 ≤ filteredTwice.size) := by
  have hrule : FilterPushing.rule ∈ defaultRules := by simp [defaultRules]
  have hp : ∀ n ∈ filteredTwice.operators, n.InRange := by decide +kernel
  obtain ⟨hpasses,hreported⟩ := settle_ends hrule hp 10
  obtain ⟨hle,hrests⟩ := hpasses filteredBelow 2 settle_filteredTwice
  exact ⟨hrule,hp,settle_filteredTwice,hle,hrests (by decide),hreported⟩

end QueryPlan
