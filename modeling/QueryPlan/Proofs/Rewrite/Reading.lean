import QueryPlan.Proofs.Relation.Demand
import QueryPlan.Proofs.Rewrite.Elimination

/-! # What is read is used

A projection of a scan, filtered or not, and the filters between the two refer to all columns that
are read: a scan that is narrowed reads no others, and what is projected later has been there since
the scan was narrowed. -/
namespace QueryPlan
open Plan

namespace Plan

/-- A scan with the conditions of the filters on top of it. -/
structure Reading where
  table : Table
  cols : List Nat
  conditions : List Expr

/-- What is read where nothing but filters stands on a scan. -/
def reading? : Plan → Option Reading
  | scan t => some ⟨t,List.range t.width,[]⟩
  | arrowScan t cols => some ⟨t,cols,[]⟩
  | filter input condition =>
    input.reading?.map fun r => { r with conditions := condition :: r.conditions }
  | _ => none

/-- Expressions on top of what is read, together with the conditions, refer to all columns. Before
the last rule a filtered scan may read the whole table instead. -/
def Reading.Used (r : Reading) (es : List Expr) : Prop :=
  Uses (r.conditions ++ es) 0 r.cols.length ∨ r.cols = List.range r.table.width ∧ r.conditions ≠ []

/-- The root reads no column twice, and as a projection uses what is read. Only scans of whole
tables may still have to be narrowed. -/
def ReadsUsed : Plan → Prop
  | arrowScan _ cols => cols.Nodup
  | project input es _ => input.face = .scan ∨ ∀ r, input.reading? = some r → r.Used es
  | _ => True

/-- The root is no scan of some of the columns of a table. -/
def Unread : Plan → Prop
  | arrowScan _ _ => False
  | _ => True

/-- Without narrowed scans only whole tables are read. -/
theorem cols_of_unread {p : Plan} {r : Reading} (hp : p.Everywhere Unread) (h : p.reading? = some r) :
    r.cols = List.range r.table.width := by
  induction p generalizing r with
  | scan t =>
    cases h
    rfl
  | arrowScan t cols => exact (everywhere_arrowScan.1 hp).elim
  | filter input c ih =>
    obtain ⟨r',hr,rfl⟩ := Option.map_eq_some_iff.1 h
    have hcols := ih (everywhere_filter.1 hp).2 hr
    exact hcols
  | _ => cases h

theorem conditions_of_face {p : Plan} {r : Reading} (hp : p.Everywhere Unread)
    (h : p.reading? = some r) (hscan : p.face ≠ .scan) : r.conditions ≠ [] := by
  cases p with
  | scan t => exact absurd rfl hscan
  | arrowScan t cols => exact (everywhere_arrowScan.1 hp).elim
  | filter input c =>
    obtain ⟨r',-,rfl⟩ := Option.map_eq_some_iff.1 h
    simp
  | _ => cases h

/-- As long as no scan is narrowed, there is nothing to be used. -/
theorem readsUsed_of_unread {p : Plan} (hp : p.Everywhere Unread) : p.Everywhere ReadsUsed := by
  have hroot (p : Plan) (hp : p.Everywhere Unread) : p.ReadsUsed := by
    cases p with
    | arrowScan t cols => exact (everywhere_arrowScan.1 hp).elim
    | project input es ns =>
      have hinput := (everywhere_project.1 hp).2
      by_cases hscan : input.face = .scan
      · exact .inl hscan
      · exact .inr fun r hr => .inr ⟨cols_of_unread hinput hr,conditions_of_face hinput hr hscan⟩
    | _ => trivial
  induction p with
  | scan t => exact everywhere_scan.2 trivial
  | arrowScan t cols => exact (everywhere_arrowScan.1 hp).elim
  | filter input c ih => exact everywhere_filter.2 ⟨trivial,ih (everywhere_filter.1 hp).2⟩
  | project input es ns ih => exact everywhere_project.2 ⟨hroot _ hp,ih (everywhere_project.1 hp).2⟩
  | aggregate input gs cs ih => exact everywhere_aggregate.2 ⟨trivial,ih (everywhere_aggregate.1 hp).2⟩
  | join left right c k ihl ihr =>
    obtain ⟨-,hl,hr⟩ := everywhere_join.1 hp
    exact everywhere_join.2 ⟨trivial,ihl hl,ihr hr⟩

theorem keepsUnread_compatible : Compatible (KeepsAll Unread) where
  refl _ h := h
  trans _ _ _ hpq hqr h := hqr (hpq h)
  filter p q c hpq h := everywhere_filter.2 ⟨trivial,hpq (everywhere_filter.1 h).2⟩
  project p q es ns hpq h := everywhere_project.2 ⟨trivial,hpq (everywhere_project.1 h).2⟩
  join p q p' q' c k hpq hpq' h := by
    obtain ⟨-,hp,hp'⟩ := everywhere_join.1 h
    exact everywhere_join.2 ⟨trivial,hpq hp,hpq' hp'⟩
  aggregate p q gs cs hpq h := everywhere_aggregate.2 ⟨trivial,hpq (everywhere_aggregate.1 h).2⟩

/-- The rules that are not about scans narrow none. -/
theorem apply_keepsUnread {rule : RewriteRule} (hrule : rule ∈ defaultRules.take 4) {p q : Plan}
    (h : rule.apply p = .ok (some q)) : KeepsAll Unread p q := by
  simp only [defaultRules,List.take_succ_cons,List.take_zero,List.mem_cons,List.not_mem_nil,
    or_false] at hrule
  rcases hrule with rfl|rfl|rfl|rfl
  · obtain ⟨input,groups,calls,placed,values,rfl,-,rfl⟩ := AverageSplit.apply_eq_some h
    intro hp
    exact everywhere_project.2 ⟨trivial,everywhere_aggregate.2 ⟨trivial,(everywhere_aggregate.1 hp).2⟩⟩
  · obtain ⟨left,right,on,condition,rfl,rfl⟩ := FilterPushing.apply_eq_some h
    intro hp
    obtain ⟨-,hl,hr⟩ := everywhere_join.1 (everywhere_filter.1 hp).2
    exact everywhere_join.2 ⟨trivial,FilterPushing.everywhere_filtered trivial hl,
      FilterPushing.everywhere_filtered trivial hr⟩
  · obtain ⟨left,right,on,kind,es,ns,rfl,rfl⟩ := ColumnPruning.apply_eq_some h
    intro hp
    obtain ⟨-,hl,hr⟩ := everywhere_join.1 (everywhere_project.1 hp).2
    exact everywhere_project.2 ⟨trivial,everywhere_join.2 ⟨trivial,
      ColumnPruning.everywhere_pruned (fun _ _ => trivial) hl,
      ColumnPruning.everywhere_pruned (fun _ _ => trivial) hr⟩⟩
  · exact IdentityProject.apply_keepsAll h

/-- A plan in the place of another one that reads the same, unless that is a projection. -/
structure ReadsAlike (p q : Plan) : Prop extends Replaces Face.Turns p q where
  reading : p.face ≠ .project → q.reading? = p.reading?

theorem ReadsAlike.refl (p : Plan) : ReadsAlike p p := ⟨.refl p,fun _ => rfl⟩

theorem ReadsAlike.over {p r q : Plan} (hr : r.Layered) (hpr : ReadsAlike p r)
    (h : r.Over ReadsAlike q) : ReadsAlike p q where
  toReplaces := hpr.toReplaces.trans
    (Over.replaces (h.imp fun _ _ _ hcd => hcd.toReplaces.early))
  reading hp := by
    rw [← hpr.reading hp]
    cases h with
    | filter c h => rw [reading?,reading?,h.reading hr.1]
    | _ => rfl

/-- What is asked for after a pass. -/
structure Settled (p : Plan) : Prop where
  layered : p.Layered
  quiet : ArrowScans.projectScanRule.apply p = .ok none
  used : p.ReadsUsed

theorem Settled.over {p q : Plan} (hp : p.Settled) (h : p.Over ReadsAlike q) : q.Settled where
  layered := hp.layered.over (h.imp fun _ _ _ hcd => hcd.toReplaces.early)
  quiet := ArrowScans.projectScan_staysQuiet p q hp.layered (h.imp fun _ _ _ hcd => hcd.toReplaces)
    hp.quiet
  used := by
    cases h with
    | @project input input' es ns h =>
      have hscan := ArrowScans.projectScan_eq_none.1 hp.quiet _ _ _ rfl
      obtain hface|hused := hp.used
      · exact absurd hface hscan
      · rw [ReadsUsed,h.reading hp.layered]
        exact .inr hused
    | arrowScan t cols => exact hp.used
    | _ => trivial

end Plan

namespace ArrowScans
variable {t : Table} {cols : List Nat} {es : List Expr} {ns : List String} {condition : Expr}

/-- The columns that are read are the ones that expressions refer to, or the first one alone. -/
theorem uses_renumberOnto (h : cols.Nodup) (hcols : ∀ i ∈ cols, ∃ e ∈ es, i ∈ e.occurrences) :
    Uses (es.map (renumberOnto (orFirst cols t))) 0 (orFirst cols t).length := by
  unfold orFirst
  split
  · exact .inl rfl
  · refine .inr fun k hk => ?_
    obtain ⟨e,he,hi⟩ := hcols _ (List.getElem_mem hk)
    have hposition : Expr.positionIn cols cols[k] = k := by
      rw [Expr.positionIn,if_pos (List.getElem_mem hk)]
      exact h.idxOf_getElem k hk
    refine ⟨_,List.mem_map_of_mem he,?_⟩
    rw [Nat.zero_add]
    exact hposition ▸ Expr.mem_occurrences_renumber hi

theorem nodup_orFirst (h : cols.Nodup) : (orFirst cols t).Nodup := by
  unfold orFirst
  split
  · exact List.nodup_singleton 0
  · exact h

theorem uses_projectCols :
    Uses (es.map (renumberOnto (projectCols t es))) 0 (projectCols t es).length :=
  uses_renumberOnto (Expr.nodup_addColumnsOf List.nodup_nil es) fun i hi => by simpa using hi

theorem uses_filterCols : Uses ((condition :: es).map (renumberOnto (filterCols t es condition))) 0
    (filterCols t es condition).length := by
  refine uses_renumberOnto ((Expr.pairwise_mergeSort_addColumns es condition).imp Nat.ne_of_lt)
    fun i hi => ?_
  rw [List.mem_mergeSort,Expr.mem_addColumns,Expr.mem_addColumnsOf] at hi
  simpa [or_comm] using hi

/-- A narrowed scan, filtered or not, below what is left of a projection. -/
theorem settled_projectUnlessIdentity (ns : List String) {input : Plan} {r : Reading}
    (hinput : input.Everywhere Settled) (hface : input.face = .arrowScan ∨ input.face = .filter) (hr : input.reading? = some r)
    (hused : r.Used es) : (projectUnlessIdentity input es ns).Everywhere Settled := by
  unfold projectUnlessIdentity
  split
  · exact hinput
  · have hproject : input.face ≠ .project := by rcases hface with h|h <;> simp [h]
    have hscan : input.face ≠ .scan := by rcases hface with h|h <;> simp [h]
    refine everywhere_project.2 ⟨⟨hproject,projectScan_eq_none.2 ?_,.inr ?_⟩,hinput⟩
    · rintro _ _ _ he
      cases he
      exact hscan
    · intro r' hr'
      rwa [Option.some.inj (hr'.symm.trans hr)]

theorem settled_arrowScan (h : cols.Nodup) : (arrowScan t cols).Everywhere Settled :=
  everywhere_arrowScan.2 ⟨trivial,rfl,h⟩

theorem settled_filter_arrowScan (condition : Expr) (h : cols.Nodup) :
    (filter (arrowScan t cols) condition).Everywhere Settled :=
  everywhere_filter.2 ⟨⟨by simp [Layered,face],rfl,trivial⟩,settled_arrowScan h⟩

theorem readsAlike_of_project {p q : Plan} (h : Replaces Face.Turns p q) (hface : p.face = .project) :
    ReadsAlike p q := ⟨h,fun hp => absurd hface hp⟩

theorem projectScan_settlesReading : projectScanRule.Settles
    (Everywhere fun n => n.Layered ∧ n.ReadsUsed) Settled ReadsAlike where
  leaves p hp hnone := by
    obtain ⟨hroot,hinputs⟩ := everywhere_iff.1 hp
    exact ⟨hinputs,⟨hroot.1,hnone,hroot.2⟩,.refl p⟩
  rewrites p r _ hsome := by
    obtain ⟨t,es,ns,rfl,rfl⟩ := projectScan_eq_some hsome
    have hface : (project (scan t) es ns).face = .project :=
      face_project_eq_project (by simp [face,Face.isGrouped])
    have hnodup : (projectCols t es).Nodup := nodup_orFirst (Expr.nodup_addColumnsOf List.nodup_nil es)
    have hr := settled_projectUnlessIdentity ns (settled_arrowScan (t := t) hnodup) (.inl rfl) rfl
      (.inl (uses_projectCols (t := t)))
    obtain ⟨hroot,hinputs⟩ := everywhere_iff.1 hr
    refine ⟨fun c hc n hn => ?_,hroot,readsAlike_of_project
      (replaces_projectUnlessIdentity hface (by simp [width])) hface⟩
    exact ⟨(hinputs c hc n hn).layered,(hinputs c hc n hn).used⟩
  post_over _ _ hp h := hp.over h
  rel_over _ _ _ hr := ReadsAlike.over hr.layered

/-- Once all projected scans are narrowed, a rule settles by what it puts in the place of others. -/
theorem settlesReading_late {rule : RewriteRule} (hrewrites : ∀ p r, rule.apply p = .ok (some r) →
      r.Everywhere Settled ∧ ReadsAlike p r) :
    rule.Settles (Everywhere Settled) Settled ReadsAlike where
  leaves p hp _ := by
    obtain ⟨hroot,hinputs⟩ := everywhere_iff.1 hp
    exact ⟨hinputs,hroot,.refl p⟩
  rewrites p r _ hsome := by
    obtain ⟨hr,halike⟩ := hrewrites p r hsome
    obtain ⟨hroot,hinputs⟩ := everywhere_iff.1 hr
    exact ⟨hinputs,hroot,halike⟩
  post_over _ _ hp h := hp.over h
  rel_over _ _ _ hr := ReadsAlike.over hr.layered

theorem wholeScan_settlesReading :
    wholeScanRule.Settles (Everywhere Settled) Settled ReadsAlike := by
  refine settlesReading_late fun p r hsome => ?_
  obtain ⟨t,rfl,rfl⟩ := wholeScan_eq_some hsome
  exact ⟨settled_arrowScan List.nodup_range,⟨by simp [width],.read⟩,fun _ => rfl⟩

theorem filterScan_settlesReading :
    filterScanRule.Settles (Everywhere Settled) Settled ReadsAlike := by
  refine settlesReading_late fun p r hsome => ?_
  obtain ⟨t,condition,es,ns,rfl,rfl⟩ := filterScan_eq_some hsome
  have hface : (project (filter (arrowScan t (List.range t.width)) condition) es ns).face = .project :=
    face_project_eq_project (by simp [face,Face.isGrouped])
  have hnodup : (filterCols t es condition).Nodup :=
    nodup_orFirst ((Expr.pairwise_mergeSort_addColumns es condition).imp Nat.ne_of_lt)
  refine ⟨settled_projectUnlessIdentity ns (settled_filter_arrowScan (t := t)
    (renumberOnto (filterCols t es condition) condition) hnodup) (.inr rfl) rfl
    (.inl uses_filterCols),readsAlike_of_project ?_ hface⟩
  exact replaces_projectUnlessIdentity hface (by simp [width])

end ArrowScans
end QueryPlan
