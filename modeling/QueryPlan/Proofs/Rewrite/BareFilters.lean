import QueryPlan.Proofs.Relation.Demand
import QueryPlan.Proofs.Rewrite.Elimination

/-! # Filters by bare conditions

The last rule refuses a projection of a whole table that is filtered by a column or a literal. Where
such a projection stands in a plan it stands from the beginning: projections that do nothing come and
go above and below the filter, and conditions that are pushed down are calls. -/
namespace QueryPlan
open Plan

namespace Expr

def isCall : Expr → Bool
  | call _ _ _ => Bool.true
  | _ => false

/-- No conjunct is a column. -/
def Tests (e : Expr) : Prop := ∀ i t, column i t ∉ e.conjuncts

theorem Tests.conjuncts {e : Expr} (h : e.Tests) : ∀ c ∈ e.conjuncts, c.Tests := by
  refine forall_conjuncts (fun args t h e he i s hi => h i s ?_) h
  rw [conjuncts_and]
  exact List.mem_flatMap.2 ⟨e,he,hi⟩

theorem Tests.all {es : List Expr} (h : ∀ e ∈ es, e.Tests) : (all es).Tests := by
  intro i t hi
  rw [conjuncts_all] at hi
  obtain ⟨e,he,hi⟩ := List.mem_flatMap.1 hi
  exact h e he i t hi

theorem Tests.renumber {e : Expr} (h : e.Tests) (f : Nat → Nat) : (e.renumber f).Tests := by
  intro i t hi
  rw [conjuncts_renumber] at hi
  obtain ⟨c,hc,he⟩ := List.mem_map.1 hi
  cases c with
  | column j s => exact h j s hc
  | literal v => cases he
  | call op args s =>
    rw [renumber_call] at he
    cases he

/-- A test of some columns is a call. -/
theorem Tests.isCall {e : Expr} (h : e.Tests) (hcolumns : e.occurrences ≠ []) : e.isCall := by
  cases e with
  | column i t => exact absurd (List.mem_singleton_self _) (h i t)
  | literal v => exact absurd rfl hcolumns
  | call op args t => rfl

theorem isCall_renumber (f : Nat → Nat) (e : Expr) : (e.renumber f).isCall = e.isCall := by
  cases e <;> rfl

theorem isCall_all {es : List Expr} (hne : es ≠ []) (h : ∀ e ∈ es, e.isCall) : (all es).isCall := by
  match es with
  | [] => exact absurd rfl hne
  | [e] => exact h e List.mem_cons_self
  | _ :: _ :: _ => rfl

end Expr

namespace Plan

/-- All columns of a table in their order, whatever projections that do nothing stand above. -/
def Whole : Plan → Prop
  | scan _ => True
  | arrowScan t cols => cols = List.range t.width
  | project input es _ => Expr.isIdentity es input.width ∧ input.Whole
  | _ => False

/-- A whole table filtered by a condition that is no call. -/
def Bare : Plan → Prop
  | filter input condition => ¬ condition.isCall ∧ input.Whole
  | project input es _ => Expr.isIdentity es input.width ∧ input.Bare
  | _ => False

/-- Somewhere a projection that does something stands on a bare filter. -/
def Stuck : Plan → Prop
  | project input es _ => ¬ Expr.isIdentity es input.width ∧ input.Bare ∨ input.Stuck
  | filter input _ | aggregate input _ _ => input.Stuck
  | join left right _ _ => left.Stuck ∨ right.Stuck
  | scan _ | arrowScan _ _ => False

/-- Conditions at the root test something, unless they are about groups, and none of the inputs of a
join is filtered by a bare condition. -/
def Firm : Plan → Prop
  | filter input condition => condition.Tests ∨ input.Grouped
  | join left right condition _ => condition.Tests ∧ ¬ left.Bare ∧ ¬ right.Bare
  | _ => True

/-- Two plans that are alike as far as bare filters go. -/
structure Alike (p q : Plan) : Prop where
  width : q.width = p.width
  grouped : p.Grouped → q.Grouped
  whole : q.Whole ↔ p.Whole
  bare : q.Bare ↔ p.Bare
  stuck : q.Stuck ↔ p.Stuck

/-- A firm plan becomes another one that is alike. -/
def KeepsFirm (p q : Plan) : Prop := p.Everywhere Firm → q.Everywhere Firm ∧ p.Alike q

theorem Alike.refl (p : Plan) : p.Alike p := ⟨rfl,id,.rfl,.rfl,.rfl⟩

theorem Alike.trans {p q r : Plan} (h : p.Alike q) (h' : q.Alike r) : p.Alike r where
  width := h'.width.trans h.width
  grouped := h'.grouped ∘ h.grouped
  whole := h'.whole.trans h.whole
  bare := h'.bare.trans h.bare
  stuck := h'.stuck.trans h.stuck

theorem keepsFirm_compatible : Compatible KeepsFirm where
  refl p h := ⟨h,.refl p⟩
  trans _ _ _ hpq hqr h := by
    obtain ⟨hq,halike⟩ := hpq h
    obtain ⟨hr,halike'⟩ := hqr hq
    exact ⟨hr,halike.trans halike'⟩
  filter p q c hpq h := by
    obtain ⟨hroot,hp⟩ := everywhere_filter.1 h
    obtain ⟨hq,ha⟩ := hpq hp
    refine ⟨everywhere_filter.2 ⟨hroot.imp_right ha.grouped,hq⟩,ha.width,ha.grouped,.rfl,?_,ha.stuck⟩
    exact and_congr_right fun _ => ha.whole
  project p q es ns hpq h := by
    obtain ⟨-,hp⟩ := everywhere_project.1 h
    obtain ⟨hq,ha⟩ := hpq hp
    refine ⟨everywhere_project.2 ⟨trivial,hq⟩,rfl,ha.grouped,?_,?_,?_⟩
    · simp only [Whole,ha.width,ha.whole]
    · simp only [Bare,ha.width,ha.bare]
    · simp only [Stuck,ha.width,ha.bare,ha.stuck]
  join p q p' q' c k hpq hpq' h := by
    obtain ⟨⟨hc,hl,hr⟩,hp,hp'⟩ := everywhere_join.1 h
    obtain ⟨hq,ha⟩ := hpq hp
    obtain ⟨hq',ha'⟩ := hpq' hp'
    refine ⟨everywhere_join.2 ⟨⟨hc,mt ha.bare.1 hl,mt ha'.bare.1 hr⟩,hq,hq'⟩,?_,id,.rfl,.rfl,?_⟩
    · rw [Plan.width,Plan.width,ha.width,ha'.width]
    · exact or_congr ha.stuck ha'.stuck
  aggregate p q gs cs hpq h := by
    obtain ⟨hq,ha⟩ := hpq (everywhere_aggregate.1 h).2
    exact ⟨everywhere_aggregate.2 ⟨trivial,hq⟩,rfl,id,.rfl,.rfl,ha.stuck⟩

end Plan

variable {p q : Plan}

/-! ## What each rule keeps -/

theorem AverageSplit.apply_keepsFirm (h : rule.apply p = .ok (some q)) : KeepsFirm p q := by
  obtain ⟨input,groups,calls,placed,values,rfl,hs,rfl⟩ := apply_eq_some h
  have hserves := (splitCalls_spec hs).2
  intro hp
  refine ⟨everywhere_project.2 ⟨trivial,everywhere_aggregate.2 ⟨trivial,(everywhere_aggregate.1 hp).2⟩⟩,
    by simp [width,hserves.length_eq],fun _ => trivial,?_,?_,?_⟩
  · simp [Whole]
  · simp [Bare]
  · simp [Stuck,Bare]

namespace FilterPushing

/-- Conditions that are pushed below a join are calls. -/
theorem not_bare_filtered {conjuncts : List Expr} (hp : ¬ p.Bare) (h : ∀ e ∈ conjuncts, e.isCall) :
    ¬ (filtered p conjuncts).Bare :=
  filtered_induction hp fun hne hbare => hbare.1 (Expr.isCall_all hne h)

theorem stuck_filtered (conjuncts : List Expr) : (filtered p conjuncts).Stuck ↔ p.Stuck :=
  filtered_induction .rfl fun _ => .rfl

theorem apply_keepsFirm (h : rule.apply p = .ok (some q)) : KeepsFirm p q := by
  obtain ⟨left,right,on,condition,rfl,rfl⟩ := apply_eq_some h
  intro hp
  obtain ⟨hcondition,hj⟩ := everywhere_filter.1 hp
  obtain ⟨⟨hon,hl,hr⟩,hleft,hright⟩ := everywhere_join.1 hj
  have htests : ∀ s, ∀ e ∈ among left.width condition on s, e.Tests := by
    refine forall_among.2 fun e he => ?_
    rcases List.mem_append.1 he with he|he
    · exact (hcondition.resolve_right id).conjuncts e he
    · exact hon.conjuncts e he
  have hcall : ∀ s, s ≠ .both → ∀ e ∈ among left.width condition on s, e.isCall := fun s hs e he =>
    (htests s e he).isCall (occurrences_ne_nil_of_side (side_of_mem_among he ▸ hs))
  have htests' : ∀ e ∈ (among left.width condition on .right).map (Expr.shiftDown left.width),
      e.Tests := List.forall_mem_map.2 fun e he => (htests _ e he).renumber _
  have hcall' : ∀ e ∈ (among left.width condition on .right).map (Expr.shiftDown left.width),
      e.isCall := by
    refine List.forall_mem_map.2 fun e he => ?_
    rw [Expr.shiftDown,Expr.isCall_renumber]
    exact hcall _ (by simp) e he
  refine ⟨everywhere_join.2 ⟨⟨.all (htests _),not_bare_filtered hl (hcall _ (by simp)),
    not_bare_filtered hr hcall'⟩,everywhere_filtered (.inl (.all (htests _))) hleft,
    everywhere_filtered (.inl (.all htests')) hright⟩,by simp [width],False.elim,.rfl,?_,?_⟩
  · simp [Bare,Whole]
  · simp only [Stuck,stuck_filtered]

end FilterPushing

namespace ColumnPruning

theorem not_bare_prune (cols : List Nat) (hp : ¬ p.Bare) : ¬ (prune p cols).Bare :=
  prune_induction (fun _ => hp) fun hbare => hp hbare.2

theorem stuck_prune (cols : List Nat) (hp : ¬ p.Bare) : (prune p cols).Stuck ↔ p.Stuck :=
  prune_induction (fun _ => .rfl) (or_iff_right fun h => hp h.2)

theorem apply_keepsFirm (h : rule.apply p = .ok (some q)) : KeepsFirm p q := by
  obtain ⟨left,right,on,kind,es,ns,rfl,rfl⟩ := apply_eq_some h
  intro hp
  obtain ⟨⟨hon,hl,hr⟩,hleft,hright⟩ := everywhere_join.1 (everywhere_project.1 hp).2
  refine ⟨everywhere_project.2 ⟨trivial,everywhere_join.2 ⟨⟨hon.renumber _,not_bare_prune _ hl,
    not_bare_prune _ hr⟩,everywhere_pruned (fun _ _ => trivial) hleft,
    everywhere_pruned (fun _ _ => trivial) hright⟩⟩,by simp [width],id,?_,?_,?_⟩
  · simp [Whole]
  · simp [Bare]
  · simp [Stuck,Bare,stuck_prune,hl,hr]

end ColumnPruning

namespace IdentityProject

theorem alike_dropped {input : Plan} {es : List Expr} {ns : List String}
    (hid : Expr.isIdentity es input.width) : (project input es ns).Alike input where
  width := (Expr.length_of_isIdentity hid).symm
  grouped := id
  whole := (and_iff_right hid).symm
  bare := (and_iff_right hid).symm
  stuck := (or_iff_right fun h => h.1 hid).symm

theorem apply_keepsFirm (h : rule.apply p = .ok (some q)) : KeepsFirm p q := by
  obtain ⟨es,ns,rfl,hid⟩ := apply_eq_some h
  exact fun hp => ⟨(everywhere_project.1 hp).2,alike_dropped hid⟩

end IdentityProject

namespace ArrowScans

theorem alike_projectUnlessIdentity (input : Plan) (es : List Expr) (ns : List String) :
    (project input es ns).Alike (projectUnlessIdentity input es ns) :=
  projectUnlessIdentity_induction IdentityProject.alike_dropped fun _ => .refl _

theorem foldl_addColumn {seen is : List Nat} (h : (seen ++ is).Nodup) :
    is.foldl Expr.addColumn seen = seen ++ is := by
  induction is generalizing seen with
  | nil => simp
  | cons i is ih =>
    have hi : i ∉ seen := fun hi => (List.nodup_append.1 h).2.2 i hi i List.mem_cons_self rfl
    rw [List.foldl_cons,Expr.addColumn,if_neg hi,ih (by simpa using h)]
    simp

theorem occurrences_of_isIdentity {es : List Expr} {width : Nat} (h : Expr.isIdentity es width) :
    es.flatMap Expr.occurrences = List.range width := by
  obtain rfl := Expr.length_of_isIdentity h
  have hcolumns : es.map Expr.occurrences = (List.range es.length).map fun i => [i] := by
    refine List.ext_getElem (by simp) fun k hk _ => ?_
    rw [List.length_map] at hk
    obtain ⟨t,ht⟩ := Expr.eq_column_of_isIdentity h (List.getElem?_eq_getElem hk)
    simp [ht,Expr.occurrences]
  rw [List.flatMap_def,hcolumns,← List.flatMap_def,List.flatMap_singleton']

/-- A projection reads its table as a whole and in order if it does nothing. -/
theorem projectCols_of_isIdentity {t : Table} {es : List Expr} (h : Expr.isIdentity es t.width) :
    projectCols t es = List.range t.width := by
  rw [projectCols,Expr.addColumnsOf_eq_foldl,Expr.occurrencesOf_eq_flatMap,occurrences_of_isIdentity h,
    foldl_addColumn (by simpa using List.nodup_range),List.nil_append,orFirst,if_neg]
  simp

theorem renumberOnto_range (width : Nat) (e : Expr) : renumberOnto (List.range width) e = e := by
  have hid : Expr.positionIn (List.range width) = id := by
    funext i
    unfold Expr.positionIn
    split
    · rename_i hi
      have hlt : i < (List.range width).length := by simpa using hi
      have hidx := List.nodup_range.idxOf_getElem i hlt
      rwa [List.getElem_range] at hidx
    · rfl
  rw [renumberOnto,hid,Expr.renumber_id]

theorem whole_narrowed {t : Table} {es : List Expr} {ns : List String} :
    (project (arrowScan t (projectCols t es)) (es.map (renumberOnto (projectCols t es))) ns).Whole ↔
      (project (scan t) es ns).Whole := by
  have hsame : (List.range t.width).length = t.width ∧ es.map (renumberOnto (List.range t.width)) = es :=
    ⟨List.length_range,(List.map_congr_left fun e _ => renumberOnto_range _ e).trans (List.map_id' es)⟩
  simp only [Whole,width,and_true]
  constructor
  · rintro ⟨hid,hcols⟩
    rwa [hcols,hsame.1,hsame.2] at hid
  · intro hid
    have hcols := projectCols_of_isIdentity hid
    rw [hcols,hsame.1,hsame.2]
    exact ⟨hid,rfl⟩

theorem projectScan_keepsFirm (h : projectScanRule.apply p = .ok (some q)) : KeepsFirm p q := by
  obtain ⟨t,es,ns,rfl,rfl⟩ := projectScan_eq_some h
  refine fun _ => ⟨?_,.trans ⟨by simp [width],False.elim,whole_narrowed,?_,?_⟩
    (alike_projectUnlessIdentity _ _ _)⟩
  · exact everywhere_unlessIdentity trivial (everywhere_arrowScan.2 trivial)
  · simp [Bare]
  · simp [Stuck,Bare]

theorem wholeScan_keepsFirm (h : wholeScanRule.apply p = .ok (some q)) : KeepsFirm p q := by
  obtain ⟨t,rfl,rfl⟩ := wholeScan_eq_some h
  exact fun _ => ⟨everywhere_arrowScan.2 trivial,by simp [width],False.elim,by simp [Whole],.rfl,.rfl⟩

end ArrowScans

theorem apply_keepsFirm {rule : RewriteRule} (hrule : rule ∈ ArrowScans.earlier)
    (h : rule.apply p = .ok (some q)) : KeepsFirm p q := by
  simp only [ArrowScans.earlier,List.mem_cons,List.not_mem_nil,or_false] at hrule
  rcases hrule with rfl|rfl|rfl|rfl|rfl|rfl
  · exact AverageSplit.apply_keepsFirm h
  · exact FilterPushing.apply_keepsFirm h
  · exact ColumnPruning.apply_keepsFirm h
  · exact IdentityProject.apply_keepsFirm h
  · exact ArrowScans.projectScan_keepsFirm h
  · exact ArrowScans.wholeScan_keepsFirm h

end QueryPlan
