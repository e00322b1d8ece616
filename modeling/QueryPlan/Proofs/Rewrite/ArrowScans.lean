import QueryPlan.Proofs.Meaning.Picking
import QueryPlan.Proofs.Rewrite.IdentityProject

/-! # Arrow scans keep columns and rows -/
namespace QueryPlan.ArrowScans
open Plan

/-- The columns that a projection of a table reads. -/
def projectCols (t : Table) (exprs : List Expr) : List Nat :=
  orFirst (Expr.addColumnsOf [] exprs) t

/-- The columns that a projection of a filtered table reads. -/
def filterCols (t : Table) (exprs : List Expr) (condition : Expr) : List Nat :=
  orFirst ((Expr.addColumns (Expr.addColumnsOf [] exprs) condition).mergeSort (· ≤ ·)) t

theorem projectScan_eq_some {p q : Plan} (h : projectScan p = .ok (some q)) :
    ∃ t exprs names, p = .project (.scan t) exprs names ∧
      q = projectUnlessIdentity (.arrowScan t (projectCols t exprs))
        (exprs.map (renumberOnto (projectCols t exprs))) names := by
  unfold projectScan at h
  split at h
  · cases h
    exact ⟨_,_,_,rfl,rfl⟩
  · cases h

theorem wholeScan_eq_some {p q : Plan} (h : wholeScan p = .ok (some q)) :
    ∃ t, p = .scan t ∧ q = .arrowScan t (List.range t.width) := by
  unfold wholeScan at h
  split at h
  · cases h
    exact ⟨_,rfl,rfl⟩
  · cases h

theorem filterScan_eq_some {p q : Plan} (h : filterScan p = .ok (some q)) :
    ∃ t condition exprs names,
      p = .project (.filter (.arrowScan t (List.range t.width)) condition) exprs names ∧
      q = projectUnlessIdentity (.filter (.arrowScan t (filterCols t exprs condition))
          (renumberOnto (filterCols t exprs condition) condition))
        (exprs.map (renumberOnto (filterCols t exprs condition))) names := by
  unfold filterScan at h
  split at h
  · split at h
    · cases h
    · rename_i hwhole
      rw [ne_eq,not_not] at hwhole
      subst hwhole
      split at h
      · dsimp only at h
        split at h
        · cases h
        · cases h
          exact ⟨_,_,_,_,rfl,rfl⟩
      · cases h
  · cases h

/-! ## The columns read -/

/-- A scan of the given columns reads all that some expressions refer to, and no others than its
table has. -/
structure Reads (t : Table) (cols : List Nat) (es : List Expr) : Prop where
  lt : ∀ i ∈ cols, i < t.width
  mem : ∀ e ∈ es, ∀ i ∈ e.occurrences, i ∈ cols

variable {t : Table} {cols : List Nat} {e condition : Expr} {es : List Expr}

theorem mem_orFirst {i : Nat} (h : i ∈ cols) : i ∈ orFirst cols t := by
  unfold orFirst
  split
  · rename_i hc
    simp only [Bool.and_eq_true,List.isEmpty_iff] at hc
    simp [hc.1] at h
  · exact h

theorem orFirst_lt (h : ∀ i ∈ cols, i < t.width) : ∀ i ∈ orFirst cols t, i < t.width := by
  unfold orFirst
  split
  · rename_i hc
    simp only [Bool.and_eq_true,decide_eq_true_eq] at hc
    simpa using hc.2
  · exact h

/-- The columns that expressions over a table refer to, in any order, are enough. -/
theorem reads_orFirst (h : ∀ e ∈ es, e.Fits (scan t).types)
    (hcols : ∀ i, i ∈ cols ↔ ∃ e ∈ es, i ∈ e.occurrences) : Reads t (orFirst cols t) es where
  lt := orFirst_lt fun i hi => by
    obtain ⟨e,he,hi⟩ := (hcols i).1 hi
    simpa [types,Table.width] using (h e he).lt i hi
  mem e he i hi := mem_orFirst ((hcols i).2 ⟨e,he,hi⟩)

theorem reads_projectCols (h : ∀ e ∈ es, e.Fits (scan t).types) : Reads t (projectCols t es) es :=
  reads_orFirst h fun i => by simp

theorem reads_filterCols (hc : condition.Fits (scan t).types) (h : ∀ e ∈ es, e.Fits (scan t).types) :
    Reads t (filterCols t es condition) (condition :: es) :=
  reads_orFirst (List.forall_mem_cons.2 ⟨hc,h⟩) fun i => by simp [or_comm]

@[simp] theorem types_arrowScan_range :
    (arrowScan t (List.range t.width)).types = (scan t).types := by
  simpa [types,Table.width] using filterMap_getElem?_range (t.columns.map Column.type) []

/-- Renumbered onto the columns read, an expression fits the scan of these. -/
theorem Reads.fits (h : Reads t cols es) (he : e ∈ es) (hfits : e.Fits (scan t).types) :
    (renumberOnto cols e).Fits (arrowScan t cols).types := by
  refine hfits.renumber fun i hi => ?_
  simp only [types]
  rw [getElem?_filterMap_getElem? (by simpa [Table.width] using h.lt),
    Expr.getElem?_positionIn (h.mem e he i hi)]
  rfl

/-- What a filter above a whole scan and a projection above that refer to. -/
theorem fits_of_wellPlaced {exprs : List Expr} {names : List String}
    (h : (project (.filter (.arrowScan t (List.range t.width)) condition) exprs names).WellPlaced) :
    condition.Fits (scan t).types ∧ ∀ e ∈ exprs, e.Fits (scan t).types := by
  obtain ⟨he,-,hf⟩ := wellPlaced_project.1 h
  have hc := (wellPlaced_filter.1 hf).1
  have htypes : (filter (.arrowScan t (List.range t.width)) condition).types = (scan t).types :=
    types_arrowScan_range
  rw [htypes] at he
  rw [types_arrowScan_range] at hc
  exact ⟨hc,he⟩

/-! ## Columns -/

variable {exprs : List Expr} {names : List String}

/-- A projection is there unless it does nothing. -/
@[elab_as_elim]
theorem projectUnlessIdentity_induction {P : Plan → Prop} {input : Plan}
    (hinput : Expr.isIdentity exprs input.width → P input)
    (hproject : ¬ Expr.isIdentity exprs input.width → P (.project input exprs names)) :
    P (projectUnlessIdentity input exprs names) := by
  unfold projectUnlessIdentity
  split
  · rename_i hid
    exact hinput hid
  · rename_i hid
    exact hproject hid

theorem everywhere_unlessIdentity {P : Plan → Prop} {input : Plan} (hP : P (.project input exprs names))
    (h : input.Everywhere P) : (projectUnlessIdentity input exprs names).Everywhere P :=
  projectUnlessIdentity_induction (fun _ => h) fun _ => everywhere_project.2 ⟨hP,h⟩

theorem projectUnlessIdentity_keepsShape {input : Plan} :
    KeepsShape (.project input exprs names) (projectUnlessIdentity input exprs names) :=
  projectUnlessIdentity_induction IdentityProject.dropped_keepsShape fun _ =>
    keepsShape_compatible.refl _

theorem projected_keepsShape : KeepsShape (.project (.scan t) exprs names)
    (.project (.arrowScan t (projectCols t exprs))
      (exprs.map (renumberOnto (projectCols t exprs))) names) := by
  intro hp
  obtain ⟨he,hn,-⟩ := wellPlaced_project.1 hp
  have hreads := reads_projectCols he
  refine ⟨wellPlaced_project.2 ⟨?_,by simpa using hn,wellPlaced_arrowScan.2 hreads.lt⟩,?_,rfl⟩
  · rw [List.forall_mem_map]
    exact fun e hm => hreads.fits hm (he e hm)
  · simp [types,renumberOnto]

theorem filtered_keepsShape :
    KeepsShape (.project (.filter (.arrowScan t (List.range t.width)) condition) exprs names)
      (.project (.filter (.arrowScan t (filterCols t exprs condition))
          (renumberOnto (filterCols t exprs condition) condition))
        (exprs.map (renumberOnto (filterCols t exprs condition))) names) := by
  intro hp
  obtain ⟨hc,he⟩ := fits_of_wellPlaced hp
  have hreads := reads_filterCols hc he
  refine ⟨wellPlaced_project.2 ⟨?_,by simpa using (wellPlaced_project.1 hp).2.1,
    wellPlaced_filter.2 ⟨?_,wellPlaced_arrowScan.2 hreads.lt⟩⟩,?_,rfl⟩
  · rw [List.forall_mem_map]
    exact fun e hm => hreads.fits (List.mem_cons_of_mem _ hm) (he e hm)
  · exact hreads.fits List.mem_cons_self hc
  · simp [types,renumberOnto]

theorem projectScan_keepsShape {p q : Plan} (h : projectScan p = .ok (some q)) :
    KeepsShape p q := by
  obtain ⟨t,exprs,names,rfl,rfl⟩ := projectScan_eq_some h
  exact keepsShape_compatible.trans _ _ _ projected_keepsShape projectUnlessIdentity_keepsShape

theorem wholeScan_keepsShape {p q : Plan} (h : wholeScan p = .ok (some q)) : KeepsShape p q := by
  obtain ⟨t,rfl,rfl⟩ := wholeScan_eq_some h
  exact fun _ => ⟨wellPlaced_arrowScan.2 (by simp),types_arrowScan_range,rfl⟩

theorem filterScan_keepsShape {p q : Plan} (h : filterScan p = .ok (some q)) :
    KeepsShape p q := by
  obtain ⟨t,condition,exprs,names,rfl,rfl⟩ := filterScan_eq_some h
  exact keepsShape_compatible.trans _ _ _ filtered_keepsShape projectUnlessIdentity_keepsShape

theorem projectUnlessIdentity_sound {conditions : Prop} {input : Plan}
    (he : ∀ e ∈ exprs, e.Typed) (hi : input.Everywhere (Sound conditions)) :
    (projectUnlessIdentity input exprs names).Everywhere (Sound conditions) :=
  everywhere_unlessIdentity (sound_project.2 he) hi

theorem projectScan_keepsSound {conditions : Prop} {p q : Plan} (h : projectScan p = .ok (some q)) :
    KeepsSound conditions p q := by
  obtain ⟨t,exprs,names,rfl,rfl⟩ := projectScan_eq_some h
  intro hp
  have he := sound_project.1 (everywhere_project.1 hp).1
  refine projectUnlessIdentity_sound ?_ (everywhere_arrowScan.2 sound_arrowScan)
  exact List.forall_mem_map.2 fun e hm => (he e hm).renumber

theorem wholeScan_keepsSound {conditions : Prop} {p q : Plan} (h : wholeScan p = .ok (some q)) :
    KeepsSound conditions p q := by
  obtain ⟨t,rfl,rfl⟩ := wholeScan_eq_some h
  exact fun _ => everywhere_arrowScan.2 sound_arrowScan

theorem filterScan_keepsSound {conditions : Prop} {p q : Plan} (h : filterScan p = .ok (some q)) :
    KeepsSound conditions p q := by
  obtain ⟨t,condition,exprs,names,rfl,rfl⟩ := filterScan_eq_some h
  intro hp
  obtain ⟨he,hf⟩ := everywhere_project.1 hp
  obtain ⟨ht,hb⟩ := sound_filter.1 (everywhere_filter.1 hf).1
  refine projectUnlessIdentity_sound ?_ (everywhere_filter.2 ⟨sound_filter.2 ⟨ht.renumber,?_⟩,
    everywhere_arrowScan.2 sound_arrowScan⟩)
  · exact List.forall_mem_map.2 fun e hm => (sound_project.1 he e hm).renumber
  · rwa [renumberOnto,Expr.type_renumber]

theorem wholeScan_keepsFields {p q : Plan} (h : wholeScan p = .ok (some q)) : KeepsFields p q := by
  refine ⟨wholeScan_keepsShape h,fun _ => ?_⟩
  obtain ⟨t,rfl,rfl⟩ := wholeScan_eq_some h
  simpa [fields,tableFields,Table.width] using filterMap_getElem?_range (tableFields t) []

/-! ## Rows -/

variable {α : Type} {I : Interpretation α}

theorem Reads.eval (h : Reads t cols es) (he : e ∈ es) (r : Row α) :
    I.eval (Row.pick cols r) (renumberOnto cols e) = I.eval r e :=
  Interpretation.eval_renumber fun i hi => Row.getD_pick_positionIn r (h.mem e he i hi)

/-- Expressions have the same values over the columns read as over the row of the table. -/
theorem Reads.map_eval (h : Reads t cols es) (hsub : exprs ⊆ es) (r : Row α) :
    (exprs.map (renumberOnto cols)).map (I.eval (Row.pick cols r)) = exprs.map (I.eval r) := by
  rw [List.map_map]
  exact List.map_congr_left fun e he => h.eval (hsub he) r

variable [DecidableEq α] {db : Database α}

theorem rows_arrowScan_range : (arrowScan t (List.range t.width)).rows I db = db.rows t := by
  refine (Multiset.map_congr rfl fun r hr => ?_).trans (Multiset.map_id _)
  rw [← db.length_row t r hr,Row.pick_range,id]

theorem projectUnlessIdentity_keepsRows {input : Plan} :
    KeepsRows I db (.project input exprs names) (projectUnlessIdentity input exprs names) :=
  projectUnlessIdentity_induction IdentityProject.dropped_keepsRows fun _ =>
    keepsRows_compatible.refl _

theorem projected_keepsRows : KeepsRows I db (.project (.scan t) exprs names)
    (.project (.arrowScan t (projectCols t exprs))
      (exprs.map (renumberOnto (projectCols t exprs))) names) := by
  refine ⟨projected_keepsShape,fun hp => ?_⟩
  have hreads := reads_projectCols (wellPlaced_project.1 hp).1
  simp only [rows,Multiset.map_map]
  exact Multiset.map_congr rfl fun r _ => hreads.map_eval (List.Subset.refl _) r

theorem filtered_keepsRows :
    KeepsRows I db (.project (.filter (.arrowScan t (List.range t.width)) condition) exprs names)
      (.project (.filter (.arrowScan t (filterCols t exprs condition))
          (renumberOnto (filterCols t exprs condition) condition))
        (exprs.map (renumberOnto (filterCols t exprs condition))) names) := by
  refine ⟨filtered_keepsShape,fun hp => ?_⟩
  obtain ⟨hc,he⟩ := fits_of_wellPlaced hp
  have hreads := reads_filterCols hc he
  have hfilter : (db.rows t).filter (I.holds (renumberOnto (filterCols t exprs condition) condition)
      ∘ Row.pick (filterCols t exprs condition)) = (db.rows t).filter (I.holds condition) :=
    Multiset.filter_congr fun r _ => by
      rw [Function.comp_apply,Interpretation.holds,Interpretation.holds,
        hreads.eval List.mem_cons_self]
  have hwhole : (filter (.arrowScan t (List.range t.width)) condition).rows I db
      = (db.rows t).filter (I.holds condition) := by rw [rows,rows_arrowScan_range]
  rw [rows,rows,rows,Multiset.filter_map,hfilter,Multiset.map_map,rows,hwhole]
  exact Multiset.map_congr rfl fun r _ => hreads.map_eval (List.subset_cons_self _ _) r

theorem projectScan_keepsRows {p q : Plan} (h : projectScan p = .ok (some q)) :
    KeepsRows I db p q := by
  obtain ⟨t,exprs,names,rfl,rfl⟩ := projectScan_eq_some h
  exact keepsRows_compatible.trans _ _ _ projected_keepsRows projectUnlessIdentity_keepsRows

theorem wholeScan_keepsRows {p q : Plan} (h : wholeScan p = .ok (some q)) : KeepsRows I db p q := by
  refine ⟨wholeScan_keepsShape h,fun _ => ?_⟩
  obtain ⟨t,rfl,rfl⟩ := wholeScan_eq_some h
  exact rows_arrowScan_range

theorem filterScan_keepsRows {p q : Plan} (h : filterScan p = .ok (some q)) :
    KeepsRows I db p q := by
  obtain ⟨t,condition,exprs,names,rfl,rfl⟩ := filterScan_eq_some h
  exact keepsRows_compatible.trans _ _ _ filtered_keepsRows projectUnlessIdentity_keepsRows

end QueryPlan.ArrowScans
