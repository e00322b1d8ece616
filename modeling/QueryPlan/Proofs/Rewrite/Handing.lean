import QueryPlan.Proofs.Relation.Demand
import QueryPlan.Proofs.Rewrite.Elimination

/-! # What joins and aggregates are handed

Rules put projections of single columns below joins, if any, and leave the inputs of aggregates as
wide as they are. So joins are handed columns as they are in their inputs, and aggregates nothing
they do not ask for. -/
namespace QueryPlan

theorem Expr.Narrow.renumber {e : Expr} (h : e.Narrow) (f : Nat → Nat) : (e.renumber f).Narrow := by
  unfold Narrow
  rw [occurrences_renumber]
  simp only [List.forall_mem_map]
  exact fun i hi j hj => congrArg f (h i hi j hj)

namespace Plan

/-- Rows as they are in tables and joins, of which projections pick columns. -/
def Fetched : Plan → Prop
  | project input es _ => input.Fetched ∧ ∀ e ∈ es, e.Narrow
  | aggregate _ _ _ => False
  | _ => True

theorem Fetched.narrow {p : Plan} (h : p.Fetched) : p.Narrow := by
  cases p with
  | project input es ns => exact h.2
  | _ => trivial

section
variable {t : Table} {input left right : Plan} {condition : Expr} {kind : JoinKind} {groups : List Nat}
  {calls : List AggregateCall}

theorem not_constant_scan : ¬ (scan t).Constant := by
  rintro ⟨_,_,_,he⟩
  cases he

theorem not_constant_filter : ¬ (filter input condition).Constant := by
  rintro ⟨_,_,_,he⟩
  cases he

theorem not_constant_join : ¬ (join left right condition kind).Constant := by
  rintro ⟨_,_,_,he⟩
  cases he

theorem not_constant_aggregate : ¬ (aggregate input groups calls).Constant := by
  rintro ⟨_,_,_,he⟩
  cases he

end

/-- A join at the root is inner and is handed rows as they are fetched; an aggregate is handed
columns that it groups by or computes with, or one that is the same in each row. -/
def Handed : Plan → Prop
  | join left right _ kind => kind = .inner ∧ left.Fetched ∧ right.Fetched
  | aggregate input groups calls => input.Asks groups calls
  | _ => True

/-- What rules keep of a plan and of what its operators are handed. -/
structure KeepsHanded (p q : Plan) : Prop where
  width : q.width = p.width
  constant : p.Constant → q.Constant
  fetched : p.Fetched → q.Fetched
  handed : p.Everywhere Handed → q.Everywhere Handed

theorem keepsHanded_compatible : Compatible KeepsHanded where
  refl _ := ⟨rfl,id,id,id⟩
  trans _ _ _ h h' := ⟨h'.width.trans h.width,h'.constant ∘ h.constant,h'.fetched ∘ h.fetched,
    h'.handed ∘ h.handed⟩
  filter p q c h := by
    refine ⟨h.width,not_constant_filter.elim,id,fun hp => ?_⟩
    exact everywhere_filter.2 ⟨trivial,h.handed (everywhere_filter.1 hp).2⟩
  project p q es ns h := by
    refine ⟨rfl,?_,fun hp => ⟨h.fetched hp.1,hp.2⟩,fun hp => ?_⟩
    · rintro ⟨_,v,ns,he⟩
      cases he
      exact ⟨q,v,_,rfl⟩
    · exact everywhere_project.2 ⟨trivial,h.handed (everywhere_project.1 hp).2⟩
  join p q p' q' c k h h' := by
    refine ⟨?_,not_constant_join.elim,id,fun hp => ?_⟩
    · rw [width,width,h.width,h'.width]
    · obtain ⟨⟨hk,hl,hr⟩,hp,hp'⟩ := everywhere_join.1 hp
      exact everywhere_join.2 ⟨⟨hk,h.fetched hl,h'.fetched hr⟩,h.handed hp,h'.handed hp'⟩
  aggregate p q gs cs h := by
    refine ⟨rfl,not_constant_aggregate.elim,id,fun hp => ?_⟩
    obtain ⟨hroot,hp⟩ := everywhere_aggregate.1 hp
    refine everywhere_aggregate.2 ⟨?_,h.handed hp⟩
    rw [Handed,Asks,h.width]
    exact hroot.imp_left h.constant

end Plan

open Plan

variable {p q : Plan}

/-- A call that is asked for an average asks for the same columns as the ones that serve it. -/
theorem AverageSplit.Serves.args {groups : Nat} {calls : List AggregateCall} {c : AggregateCall}
    {e : Expr} (h : Serves groups calls c e) : ∃ d ∈ calls, d.args = c.args := by
  have hheld {c : AggregateCall} {k : Nat} (h : Held calls c k) : ∃ d ∈ calls, d.args = c.args := by
    obtain ⟨d,hd,-,-,hargs⟩ := h
    exact ⟨d,List.mem_of_getElem? hd,hargs⟩
  unfold Serves at h
  split at h
  · obtain ⟨k,hk,-⟩ := h
    exact hheld hk
  · obtain ⟨s,_,_,hs,-⟩ := h
    obtain ⟨d,hd,hargs⟩ := hheld hs
    exact ⟨d,hd,hargs⟩

theorem AverageSplit.apply_keepsHanded (h : rule.apply p = .ok (some q)) : KeepsHanded p q := by
  obtain ⟨input,groups,calls,placed,values,rfl,hs,rfl⟩ := apply_eq_some h
  have hserves := (splitCalls_spec hs).2
  refine ⟨by simp [width,hserves.length_eq],not_constant_aggregate.elim,False.elim,fun hp => ?_⟩
  obtain ⟨hroot,hinput⟩ := everywhere_aggregate.1 hp
  refine everywhere_project.2 ⟨trivial,everywhere_aggregate.2 ⟨?_,hinput⟩⟩
  refine hroot.imp_right fun hall i hi => (hall i hi).imp_right ?_
  rintro ⟨c,hc,hi⟩
  obtain ⟨e,-,he⟩ := exists_of_forall₂ hserves hc
  obtain ⟨d,hd,hargs⟩ := he.args
  exact ⟨d,hd,hargs ▸ hi⟩

theorem FilterPushing.fetched_filtered (es : List Expr) (h : p.Fetched) : (filtered p es).Fetched :=
  filtered_induction h fun _ => trivial

theorem FilterPushing.apply_keepsHanded (h : rule.apply p = .ok (some q)) : KeepsHanded p q := by
  obtain ⟨left,right,on,condition,rfl,rfl⟩ := apply_eq_some h
  refine ⟨by simp [width],not_constant_filter.elim,fun _ => trivial,fun hp => ?_⟩
  obtain ⟨⟨-,hl,hr⟩,hleft,hright⟩ := everywhere_join.1 (everywhere_filter.1 hp).2
  exact everywhere_join.2 ⟨⟨rfl,fetched_filtered _ hl,fetched_filtered _ hr⟩,
    everywhere_filtered trivial hleft,everywhere_filtered trivial hright⟩

theorem ColumnPruning.fetched_prune (cols : List Nat) (h : p.Fetched) : (prune p cols).Fetched := by
  refine prune_induction (fun _ => h) ⟨h,List.forall_mem_map.2 fun c _ => ?_⟩
  simp [Expr.Narrow,Expr.occurrences]

theorem ColumnPruning.apply_keepsHanded (h : rule.apply p = .ok (some q)) : KeepsHanded p q := by
  obtain ⟨left,right,on,kind,es,ns,rfl,rfl⟩ := apply_eq_some h
  refine ⟨by simp [width],?_,fun hp => ⟨trivial,?_⟩,fun hp => ?_⟩
  · rintro ⟨_,v,ns,he⟩
    cases he
    exact ⟨_,v,_,rfl⟩
  · exact List.forall_mem_map.2 fun e he => (hp.2 e he).renumber _
  · obtain ⟨⟨hkind,hl,hr⟩,hleft,hright⟩ := everywhere_join.1 (everywhere_project.1 hp).2
    exact everywhere_project.2 ⟨trivial,everywhere_join.2
      ⟨⟨hkind,fetched_prune _ hl,fetched_prune _ hr⟩,everywhere_pruned (fun _ _ => trivial) hleft,
        everywhere_pruned (fun _ _ => trivial) hright⟩⟩

theorem IdentityProject.keepsHanded {input : Plan} {es : List Expr} {ns : List String}
    (hid : Expr.isIdentity es input.width) : KeepsHanded (project input es ns) input where
  width := (Expr.length_of_isIdentity hid).symm
  constant := by
    rintro ⟨_,v,_,he⟩
    cases he
    simp [Expr.isIdentity] at hid
  fetched hp := hp.1
  handed hp := (everywhere_project.1 hp).2

theorem IdentityProject.apply_keepsHanded (h : rule.apply p = .ok (some q)) : KeepsHanded p q := by
  obtain ⟨es,ns,rfl,hid⟩ := apply_eq_some h
  exact keepsHanded hid

namespace ArrowScans

/-- A narrowed input below what is left of a projection. -/
theorem keepsHanded_narrowed {input input' : Plan} {es : List Expr} {ns : List String}
    (cols : List Nat) (hfetched : input'.Fetched) (hhanded : input'.Everywhere Handed) :
    KeepsHanded (project input es ns)
      (projectUnlessIdentity input' (es.map (renumberOnto cols)) ns) := by
  have hnarrowed : KeepsHanded (project input es ns) (project input' (es.map (renumberOnto cols)) ns) := by
    refine ⟨by simp [width],?_,fun hp => ⟨hfetched,?_⟩,fun _ => everywhere_project.2 ⟨trivial,hhanded⟩⟩
    · rintro ⟨_,v,ns,he⟩
      cases he
      exact ⟨input',v,_,rfl⟩
    · exact List.forall_mem_map.2 fun e he => (hp.2 e he).renumber _
  refine keepsHanded_compatible.trans _ _ _ hnarrowed ?_
  exact projectUnlessIdentity_induction IdentityProject.keepsHanded fun _ => keepsHanded_compatible.refl _

theorem projectScan_keepsHanded (h : projectScanRule.apply p = .ok (some q)) : KeepsHanded p q := by
  obtain ⟨t,es,ns,rfl,rfl⟩ := projectScan_eq_some h
  exact keepsHanded_narrowed _ trivial (everywhere_arrowScan.2 trivial)

theorem wholeScan_keepsHanded (h : wholeScanRule.apply p = .ok (some q)) : KeepsHanded p q := by
  obtain ⟨t,rfl,rfl⟩ := wholeScan_eq_some h
  exact ⟨by simp [width],not_constant_scan.elim,fun _ => trivial,
    fun _ => everywhere_arrowScan.2 trivial⟩

theorem filterScan_keepsHanded (h : filterScanRule.apply p = .ok (some q)) : KeepsHanded p q := by
  obtain ⟨t,condition,es,ns,rfl,rfl⟩ := filterScan_eq_some h
  exact keepsHanded_narrowed _ trivial
    (everywhere_filter.2 ⟨trivial,everywhere_arrowScan.2 trivial⟩)

end ArrowScans

theorem apply_keepsHanded {rule : RewriteRule} (hrule : rule ∈ defaultRules)
    (h : rule.apply p = .ok (some q)) : KeepsHanded p q := by
  simp only [defaultRules,List.mem_cons,List.not_mem_nil,or_false] at hrule
  rcases hrule with rfl|rfl|rfl|rfl|rfl|rfl|rfl
  · exact AverageSplit.apply_keepsHanded h
  · exact FilterPushing.apply_keepsHanded h
  · exact ColumnPruning.apply_keepsHanded h
  · exact IdentityProject.apply_keepsHanded h
  · exact ArrowScans.projectScan_keepsHanded h
  · exact ArrowScans.wholeScan_keepsHanded h
  · exact ArrowScans.filterScan_keepsHanded h

end QueryPlan
