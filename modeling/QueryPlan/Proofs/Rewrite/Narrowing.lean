import QueryPlan.Proofs.Rewrite.Settling

/-! # The rules that narrow rows come to rest in one pass

Once the averages are split and the filters pushed down, joins and scans are narrowed to the columns
in use and projections that do nothing are dropped. What is left of a join or a scan is in use, so
narrowing it again would change nothing. -/
namespace QueryPlan
open Plan

/-! ## Pruned joins -/

namespace ColumnPruning
variable {leftWidth rightWidth : Nat} {exprs : List Expr} {on : Expr}

theorem apply_eq_none {p : Plan} : rule.apply p = .ok none ↔ ∀ input exprs names,
    p = .project input exprs names → ∀ lw rw on kind, input.face = .join lw rw on kind →
      (fromLeft lw exprs on).length = lw ∧ (fromRight lw rw exprs on).length = rw := by
  change apply p = .ok none ↔ _
  constructor
  · rintro h input exprs names rfl lw rw on kind hface
    obtain ⟨left,right,rfl,rfl,rfl⟩ := eq_join_of_face hface
    simp only [apply] at h
    split at h
    · rename_i hfull
      exact hfull
    · cases h
  · intro h
    unfold apply
    split
    · exact if_pos (h _ _ _ rfl _ _ _ _ rfl)
    · rfl

theorem staysQuiet : rule.StaysQuiet Face.Turns := by
  intro p q hp hpq hnone
  refine apply_eq_none.2 fun input exprs names hq lw rw on kind hface => ?_
  subst hq
  cases hpq with
  | @project input' _ es ns h =>
    have hinput := h.face
    rw [hface] at hinput
    exact apply_eq_none.1 hnone _ _ _ rfl _ _ _ _ (hinput.eq_join hp)

theorem InOrder.length_eq {width : Nat} {cols : List Nat} (h : InOrder width cols)
    (hall : ∀ k < width, k ∈ cols) : cols.length = width := by
  have hnodup : cols.Nodup := h.1.imp Nat.ne_of_lt
  have hperm : cols.Perm (List.range width) :=
    (List.perm_ext_iff_of_nodup hnodup List.nodup_range).2 fun k =>
      ⟨fun hk => List.mem_range.2 (h.2 k hk),fun hk => hall k (List.mem_range.1 hk)⟩
  simpa using hperm.length_eq

theorem keep_ne_nil {width : Nat} (cols : List Nat) (h : 0 < width) : keep cols width ≠ [] := by
  unfold keep
  split
  · simp
  · rename_i hcols
    simpa [h] using hcols

/-- Of columns that have been kept, all are kept again if those in use are still in use. -/
theorem length_keep {width : Nat} {cols cols' : List Nat} (h : InOrder width (keep cols width))
    (h' : InOrder (keep cols width).length (keep cols' (keep cols width).length))
    (huse : ∀ i ∈ cols, Expr.positionIn (keep cols width) i ∈ cols') :
    (keep cols' (keep cols width).length).length = (keep cols width).length := by
  refine h'.length_eq fun k hk => ?_
  by_cases hcols : cols = []
  · -- Nothing is in use: at most the first column is kept, and the new list has some column, too.
    have hone : (keep cols width).length ≤ 1 := by
      rw [hcols]
      unfold keep
      split <;> simp
    obtain ⟨i,hi⟩ := List.exists_mem_of_ne_nil _ (keep_ne_nil cols' (Nat.zero_lt_of_lt hk))
    have hlt := h'.2 i hi
    rwa [show k = i by omega]
  · have hkeep : keep cols width = cols := by
      rw [keep,if_neg (by simp [hcols])]
    rw [hkeep] at h hk huse ⊢
    have hposition : Expr.positionIn cols cols[k] = k := by
      rw [Expr.positionIn,if_pos (List.getElem_mem hk)]
      have hnodup : cols.Nodup := h.1.imp Nat.ne_of_lt
      exact hnodup.idxOf_getElem k hk
    refine mem_keep ?_
    rw [← hposition]
    exact huse _ (List.getElem_mem hk)

theorem mem_needed_renumber {f : Nat → Nat} {i : Nat} (h : i ∈ needed exprs on) :
    f i ∈ needed (exprs.map (Expr.renumber f)) (on.renumber f) := by
  rw [mem_needed] at h ⊢
  rcases h with ⟨e,he,hi⟩|hi
  · exact .inl ⟨_,List.mem_map_of_mem he,Expr.mem_occurrences_renumber hi⟩
  · exact .inr (Expr.mem_occurrences_renumber hi)

/-- Both inputs of a pruned join are in use as a whole. -/
theorem length_moved {move : Nat → Nat} (hmove : move = moved leftWidth (fromLeft leftWidth exprs on)
      (fromRight leftWidth rightWidth exprs on))
    (hneeded : ∀ i ∈ needed exprs on, i < leftWidth+rightWidth)
    (hmoved : ∀ i ∈ needed (exprs.map (Expr.renumber move)) (on.renumber move),
      i < (fromLeft leftWidth exprs on).length+(fromRight leftWidth rightWidth exprs on).length) :
    (fromLeft (fromLeft leftWidth exprs on).length (exprs.map (Expr.renumber move))
        (on.renumber move)).length = (fromLeft leftWidth exprs on).length ∧
      (fromRight (fromLeft leftWidth exprs on).length (fromRight leftWidth rightWidth exprs on).length
        (exprs.map (Expr.renumber move)) (on.renumber move)).length
        = (fromRight leftWidth rightWidth exprs on).length := by
  constructor
  · refine length_keep inOrder_fromLeft inOrder_fromLeft fun i hi => ?_
    obtain ⟨hi,hlt⟩ := List.mem_filter.1 hi
    rw [decide_eq_true_eq] at hlt
    have hposition : move i = Expr.positionIn (fromLeft leftWidth exprs on) i := by
      rw [hmove,moved,if_pos hlt]
    refine List.mem_filter.2 ⟨?_,decide_eq_true (Expr.positionIn_lt (mem_fromLeft hi hlt))⟩
    exact hposition ▸ mem_needed_renumber hi
  · refine length_keep (inOrder_fromRight hneeded) (inOrder_fromRight hmoved) fun i hi => ?_
    obtain ⟨j,hj,rfl⟩ := List.mem_map.1 hi
    obtain ⟨hj,hle⟩ := List.mem_filter.1 hj
    rw [decide_eq_true_eq] at hle
    have hposition : move j = (fromLeft leftWidth exprs on).length
        +Expr.positionIn (fromRight leftWidth rightWidth exprs on) (j-leftWidth) := by
      rw [hmove,moved,if_neg (by omega)]
    refine List.mem_map.2 ⟨move j,List.mem_filter.2 ⟨mem_needed_renumber hj,?_⟩,?_⟩
    · exact decide_eq_true (by omega)
    · rw [hposition,Nat.add_sub_cancel_left]
      rfl

/-- What is asked for before a pass: the inputs of joins below the root, but not of the root, are
not projected. -/
structure Ready (p : Plan) : Prop where
  placed : p.WellPlaced
  quiet : p.QuietFor [AverageSplit.rule,FilterPushing.rule]
  below : ∀ c ∈ p.inputs, c.Everywhere fun n =>
    n.QuietFor [AverageSplit.rule,FilterPushing.rule] ∧ n.JoinsOver Face.IsRows

theorem Ready.of_everywhere {p : Plan} (hp : p.WellPlaced) (h : p.Everywhere fun n =>
      n.QuietFor [AverageSplit.rule,FilterPushing.rule] ∧ n.JoinsOver Face.IsRows) : Ready p :=
  ⟨hp,(everywhere_iff.1 h).1.1,(everywhere_iff.1 h).2⟩

theorem everywhere_prune {input : Plan} (cols : List Nat) (h : input.Everywhere fun n =>
      n.QuietFor [AverageSplit.rule,FilterPushing.rule] ∧ n.JoinsOver Face.IsRows)
    (hface : input.face.IsRows) : (prune input cols).Everywhere fun n =>
      n.QuietFor [AverageSplit.rule,FilterPushing.rule] ∧ n.JoinsOver Face.IsRows := by
  refine prune_induction (fun _ => h) (everywhere_project.2 ⟨⟨⟨hface.ne_project,?_⟩,trivial⟩,h⟩)
  simp [AverageSplit.rule,AverageSplit.apply,FilterPushing.rule,FilterPushing.apply]

/-- Joins are pruned all the way down in one pass. -/
theorem settles : rule.Settles Ready (QuietFor [AverageSplit.rule,FilterPushing.rule,rule])
    (Replaces Face.Turns) where
  leaves p hp hnone := by
    refine ⟨fun c hc => ?_,hp.quiet.append hnone,.refl p⟩
    exact .of_everywhere (hp.placed.inputs c hc) (hp.below c hc)
  rewrites p r hp hsome := by
    have hplaced := (apply_keepsShape hsome hp.placed).1
    obtain ⟨left,right,on,kind,exprs,names,rfl,rfl⟩ := apply_eq_some hsome
    obtain ⟨⟨-,hl,hr⟩,hleft,hright⟩ := everywhere_join.1
      (hp.below (.join left right on kind) (by simp [inputs]))
    obtain ⟨hes,-,hj⟩ := wellPlaced_project.1 hp.placed
    obtain ⟨hon,hwl,hwr⟩ := wellPlaced_join.1 hj
    obtain ⟨hes',-,hj'⟩ := wellPlaced_project.1 hplaced
    obtain ⟨hon',hwl',hwr'⟩ := wellPlaced_join.1 hj'
    have hquiet := length_moved rfl (needed_lt hes hon hwl hwr)
      (by simpa only [width_prune] using needed_lt hes' hon' hwl' hwr')
    refine ⟨?_,⟨by simp [Layered,face],?_⟩,⟨by simp [width],?_⟩⟩
    · simp only [inputs,List.mem_singleton,forall_eq]
      refine ⟨hj',⟨trivial,?_⟩,?_⟩
      · simp [AverageSplit.rule,AverageSplit.apply,FilterPushing.rule,FilterPushing.apply]
      · simp only [inputs,List.forall_mem_cons]
        exact ⟨everywhere_prune _ hleft hl,everywhere_prune _ hright hr,by simp⟩
    · have hnone := (apply_eq_none (p := .project (.join (prune left (fromLeft left.width exprs on))
          (prune right (fromRight left.width right.width exprs on)) _ kind) _ names)).2
        fun input' exprs' names' he lw rw on' kind' hface => by
          cases he
          cases hface
          simpa only [width_prune] using hquiet
      simpa [AverageSplit.rule,AverageSplit.apply,FilterPushing.rule,FilterPushing.apply] using hnone
    · rw [face_project_eq_project (by simp [face,Face.isGrouped])]
      exact .dropped _
  post_over p q hp h := by
    refine RewriteRule.quietFor_over ?_ (fun _ _ => Replaces.early) hp h
    simpa using ⟨AverageSplit.staysQuiet.late,FilterPushing.staysQuiet.late,staysQuiet⟩
  rel_over _ _ _ _ hpr h := hpr.trans (Over.replaces (h.imp fun _ _ _ => Replaces.early))

end ColumnPruning

/-! ## Identities -/

namespace IdentityProject

theorem apply_eq_none {p : Plan} : rule.apply p = .ok none ↔ ∀ input exprs names,
    p = .project input exprs names → ¬ Expr.isIdentity exprs input.width := by
  change apply p = .ok none ↔ _
  constructor
  · rintro h input exprs names rfl hid
    simp [apply,hid] at h
  · intro h
    unfold apply
    split
    · exact if_neg (h _ _ _ rfl)
    · rfl

theorem staysQuiet : rule.StaysQuiet Face.Turns := by
  intro p q _ hpq hnone
  refine apply_eq_none.2 fun input exprs names hq => ?_
  subst hq
  cases hpq with
  | project es ns h =>
    rw [h.width]
    exact apply_eq_none.1 hnone _ _ _ rfl

/-- No identity is left after one pass: below one stands no other. -/
theorem settles : rule.Settles
    (Everywhere (QuietFor [AverageSplit.rule,FilterPushing.rule,ColumnPruning.rule]))
    (QuietFor [AverageSplit.rule,FilterPushing.rule,ColumnPruning.rule,rule])
    (Replaces Face.Turns) := by
  refine RewriteRule.settles_late _ ?_ fun p r hp hsome => ?_
  · simpa using ⟨AverageSplit.staysQuiet.late,FilterPushing.staysQuiet.late,
      ColumnPruning.staysQuiet,staysQuiet⟩
  · obtain ⟨exprs,names,rfl,hid⟩ := apply_eq_some hsome
    obtain ⟨⟨hlayered,-⟩,hr⟩ := everywhere_project.1 hp
    refine ⟨hr,apply_eq_none.2 fun input es ns he => ?_,(Expr.length_of_isIdentity hid).symm,?_⟩
    · subst he
      by_contra hinput
      exact hlayered (face_project_eq_project fun h => (face_project_eq_regrouped.1 h).2 hinput)
    · rw [face_project_eq_project fun h => (face_project_eq_regrouped.1 h).2 hid]
      exact .dropped _

end IdentityProject

/-! ## Scans -/

namespace ArrowScans

theorem projectScan_eq_none {p : Plan} : projectScanRule.apply p = .ok none ↔
    ∀ input exprs names, p = .project input exprs names → input.face ≠ .scan := by
  change projectScan p = .ok none ↔ _
  constructor
  · rintro h input exprs names rfl hface
    obtain ⟨t,rfl⟩ := eq_scan_of_face hface
    cases h
  · intro h
    unfold projectScan
    split
    · exact absurd rfl (h _ _ _ rfl)
    · rfl

theorem projectScan_staysQuiet : projectScanRule.StaysQuiet Face.Turns := by
  intro p q hp hpq hnone
  refine projectScan_eq_none.2 fun input exprs names hq hface => ?_
  subst hq
  cases hpq with
  | project es ns h =>
    have hinput := h.early.face
    rw [hface] at hinput
    exact projectScan_eq_none.1 hnone _ _ _ rfl (hinput.eq_scan hp)

theorem wholeScan_staysQuiet : wholeScanRule.StaysQuiet Face.Turns := by
  intro p q _ hpq hnone
  cases hpq with
  | scan t => cases hnone
  | _ => rfl

/-- The rules before the one that narrows filtered scans. -/
def earlier : List RewriteRule := [AverageSplit.rule,FilterPushing.rule,ColumnPruning.rule,
  IdentityProject.rule,projectScanRule,wholeScanRule]

theorem earlier_staysQuiet : ∀ rule ∈ earlier, rule.StaysQuiet Face.Turns := by
  simpa [earlier] using ⟨AverageSplit.staysQuiet.late,FilterPushing.staysQuiet.late,
    ColumnPruning.staysQuiet,IdentityProject.staysQuiet,projectScan_staysQuiet,wholeScan_staysQuiet⟩

variable {t : Table} {cols : List Nat} {exprs : List Expr} {names : List String}

theorem quietFor_arrowScan : (arrowScan t cols).QuietFor earlier := by
  refine ⟨trivial,?_⟩
  simp only [earlier,List.forall_mem_cons]
  exact ⟨rfl,rfl,rfl,rfl,rfl,rfl,by simp⟩

theorem quietFor_filter_arrowScan {condition : Expr} :
    (filter (arrowScan t cols) condition).QuietFor earlier := by
  refine ⟨by simp [Layered,face],?_⟩
  simp only [earlier,List.forall_mem_cons]
  exact ⟨rfl,rfl,rfl,rfl,rfl,rfl,by simp⟩

/-- A projection of a narrowed scan, filtered or not, is left where it does something. -/
theorem everywhere_projectUnlessIdentity {input : Plan} (hinput : input.Everywhere (QuietFor earlier))
    (hface : input.face = .arrowScan ∨ input.face = .filter) :
    (projectUnlessIdentity input exprs names).Everywhere (QuietFor earlier) := by
  unfold projectUnlessIdentity
  split
  · exact hinput
  · rename_i hid
    have hlayered : input.face ≠ .project := by rcases hface with h|h <;> simp [h]
    have hpruned : ColumnPruning.rule.apply (.project input exprs names) = .ok none := by
      refine ColumnPruning.apply_eq_none.2 ?_
      rintro _ _ _ he lw rw on kind hjoin
      cases he
      rcases hface with h|h <;> simp [h] at hjoin
    have hscan : projectScanRule.apply (.project input exprs names) = .ok none := by
      refine projectScan_eq_none.2 ?_
      rintro _ _ _ he hscan
      cases he
      rcases hface with h|h <;> simp [h] at hscan
    have hdropped : IdentityProject.rule.apply (.project input exprs names) = .ok none :=
      if_neg hid
    refine everywhere_project.2 ⟨⟨hlayered,?_⟩,hinput⟩
    simp only [earlier,List.forall_mem_cons]
    exact ⟨rfl,rfl,hpruned,hdropped,hscan,rfl,by simp⟩

theorem replaces_projectUnlessIdentity {p input : Plan} (hface : p.face = .project)
    (hwidth : p.width = exprs.length) :
    Replaces Face.Turns p (projectUnlessIdentity input exprs names) := by
  refine ⟨?_,hface ▸ .dropped _⟩
  exact projectUnlessIdentity_induction
    (fun hid => (Expr.length_of_isIdentity hid).symm.trans hwidth.symm) fun _ => hwidth.symm

/-- Projected scans are narrowed in one pass. -/
theorem projectScan_settles : projectScanRule.Settles (Everywhere (QuietFor (earlier.take 4)))
    (QuietFor (earlier.take 5)) (Replaces Face.Turns) := by
  refine RewriteRule.settles_late _ (fun rule hrule => earlier_staysQuiet rule (List.take_subset 5 _ hrule))
    fun p r _ hsome => ?_
  obtain ⟨t,exprs,names,rfl,rfl⟩ := projectScan_eq_some hsome
  have hr : (projectUnlessIdentity (.arrowScan t (projectCols t exprs))
      (exprs.map (renumberOnto (projectCols t exprs))) names).Everywhere (QuietFor earlier) :=
    everywhere_projectUnlessIdentity (everywhere_arrowScan.2 quietFor_arrowScan) (.inl rfl)
  refine ⟨fun n hn => (hr n hn).mono (List.take_subset 4 _),
    (everywhere_iff.1 hr).1.2 _ (by simp [earlier]),replaces_projectUnlessIdentity ?_ ?_⟩
  · exact face_project_eq_project (by simp [face,Face.isGrouped])
  · simp [width]

/-- All scans are Arrow scans after one pass. -/
theorem wholeScan_settles : wholeScanRule.Settles (Everywhere (QuietFor (earlier.take 5)))
    (QuietFor earlier) (Replaces Face.Turns) := by
  refine RewriteRule.settles_late (earlier.take 5) earlier_staysQuiet fun p r _ hsome => ?_
  obtain ⟨t,rfl,rfl⟩ := wholeScan_eq_some hsome
  refine ⟨everywhere_arrowScan.2 (quietFor_arrowScan.mono (List.take_subset 5 _)),rfl,⟨?_,.read⟩⟩
  simp [width]

/-! ## Filtered scans -/

theorem filterScan_eq_none {p : Plan} (h : ∀ t condition exprs names,
    p ≠ .project (.filter (.arrowScan t (List.range t.width)) condition) exprs names) :
    filterScanRule.apply p = .ok none := by
  change filterScan p = .ok none
  unfold filterScan
  split
  · rename_i t whole condition exprs names
    refine if_pos fun hwhole => h t condition exprs names ?_
    rw [hwhole]
  · rfl

/-- A filtered scan that has been narrowed is not narrowed again. -/
theorem filterScan_projectUnlessIdentity {condition : Expr} (h : cols.length ≠ t.width) :
    filterScanRule.apply (projectUnlessIdentity (.filter (.arrowScan t cols) condition) exprs names)
      = .ok none := by
  refine filterScan_eq_none fun t' _ _ _ he => ?_
  unfold projectUnlessIdentity at he
  split at he
  · cases he
  · simp only [project.injEq,filter.injEq,arrowScan.injEq] at he
    obtain ⟨⟨⟨rfl,hrange⟩,-⟩,-⟩ := he
    rw [hrange,List.length_range] at h
    exact h rfl

/-- A filtered scan is narrowed where it reads more columns than are in use. -/
theorem length_filterCols {condition : Expr} {r : Plan} (h : filterScanRule.apply
      (.project (.filter (.arrowScan t (List.range t.width)) condition) exprs names) = .ok (some r)) :
    (filterCols t exprs condition).length ≠ t.width := by
  change filterScan (.project (.filter (.arrowScan t (List.range t.width)) condition) exprs names)
    = .ok (some r) at h
  unfold filterScan at h
  simp only [ne_eq,not_true,if_false] at h
  split at h
  · split at h
    · cases h
    · rename_i hlength
      exact hlength
  · cases h

/-- A plan as wide as another one and with its face, which is no whole scan, filtered or not, unless
it is that other one. -/
structure Narrows (p q : Plan) : Prop extends Replaces Face.Turns p q where
  scan : ∀ t cols, q = .arrowScan t cols → p = q
  filter : ∀ t condition, q = .filter (.arrowScan t (List.range t.width)) condition → p = q

theorem Narrows.over {p r q : Plan} (hpr : Narrows p r) (h : r.Over Narrows q) : Narrows p q where
  toReplaces := hpr.toReplaces.trans
    (Over.replaces (h.imp fun _ _ _ hcd => hcd.toReplaces.early))
  scan t cols hq := by
    subst hq
    cases h
    exact hpr.scan t cols rfl
  filter t condition hq := by
    subst hq
    cases h with
    | filter _ h =>
      obtain rfl := h.scan t _ rfl
      exact hpr.filter t condition rfl

theorem filterScan_over {p q : Plan} (h : p.Over Narrows q) (hp : filterScanRule.apply p = .ok none) :
    filterScanRule.apply q = .ok none := by
  cases h with
  | @project c d es ns h =>
    by_cases hd : ∃ t condition, d = .filter (.arrowScan t (List.range t.width)) condition
    · obtain ⟨t,condition,hd⟩ := hd
      rwa [h.filter t condition hd] at hp
    · refine filterScan_eq_none fun t condition _ _ he => hd ⟨t,condition,?_⟩
      cases he
      rfl
  | _ => rfl

theorem narrows_projectUnlessIdentity {p : Plan} {condition : Expr} (hcols : cols.length ≠ t.width)
    (hface : p.face = .project) (hwidth : p.width = exprs.length) :
    Narrows p (projectUnlessIdentity (.filter (.arrowScan t cols) condition) exprs names) where
  toReplaces := replaces_projectUnlessIdentity hface hwidth
  scan _ _ h := by
    unfold projectUnlessIdentity at h
    split at h <;> cases h
  filter _ _ h := by
    unfold projectUnlessIdentity at h
    split at h
    · cases h
      simp at hcols
    · cases h

/-- Filtered scans are narrowed in one pass. -/
theorem filterScan_settles : filterScanRule.Settles (Everywhere (QuietFor earlier))
    (QuietFor (earlier ++ [filterScanRule])) Narrows where
  leaves p hp hnone := by
    obtain ⟨hroot,hinputs⟩ := everywhere_iff.1 hp
    exact ⟨hinputs,hroot.append hnone,⟨.refl p,fun _ _ _ => rfl,fun _ _ _ => rfl⟩⟩
  rewrites p r hp hsome := by
    obtain ⟨t,condition,exprs,names,rfl,rfl⟩ := filterScan_eq_some hsome
    have hcols := length_filterCols hsome
    have hr : (projectUnlessIdentity (.filter (.arrowScan t (filterCols t exprs condition))
        (renumberOnto (filterCols t exprs condition) condition))
        (exprs.map (renumberOnto (filterCols t exprs condition))) names).Everywhere
          (QuietFor earlier) :=
      everywhere_projectUnlessIdentity (everywhere_filter.2 ⟨quietFor_filter_arrowScan,
        everywhere_arrowScan.2 quietFor_arrowScan⟩) (.inr rfl)
    obtain ⟨hroot,hinputs⟩ := everywhere_iff.1 hr
    refine ⟨hinputs,hroot.append (filterScan_projectUnlessIdentity hcols),
      narrows_projectUnlessIdentity hcols ?_ (by simp [width])⟩
    exact face_project_eq_project (by simp [face,Face.isGrouped])
  post_over p q hp h := by
    obtain ⟨hlayered,hquiet⟩ := hp
    have hearlier : p.QuietFor earlier :=
      ⟨hlayered,fun rule hrule => hquiet rule (List.mem_append_left _ hrule)⟩
    refine (RewriteRule.quietFor_over earlier_staysQuiet (fun _ _ => Replaces.early) hearlier
      (h.imp fun _ _ _ => Narrows.toReplaces)).append (filterScan_over h (hquiet _ (by simp)))
  rel_over _ _ _ _ := Narrows.over

end ArrowScans
end QueryPlan
