import QueryPlan.Proofs.Binding.Building
import QueryPlan.Proofs.Rewrite.Access
import QueryPlan.Proofs.Rewrite.Fixpoint
import QueryPlan.Proofs.Rewrite.Handing
import QueryPlan.Proofs.Rewrite.Reading

/-! # Optimised plans read what they need

At rest no filter stands on an inner join, and projections use all of the joins and scans below them.
So each scan of an optimised query reads needed columns only, but for one that its rows are counted by. -/
namespace QueryPlan
open Plan

/-! ## At rest -/

section
variable {left right : Plan} {on condition : Expr} {kind : JoinKind} {es : List Expr}
  {ns : List String} {t : Table}

theorem ColumnPruning.uses_keep {cols : List Nat} {width offset : Nat}
    (horder : InOrder width (keep cols width)) (hlength : (keep cols width).length = width)
    (hcols : ∀ i ∈ cols, offset+i ∈ needed es on) : Uses (on :: es) offset width := by
  unfold keep at horder hlength
  split at hlength
  · exact .inl hlength.symm
  · rename_i hcond
    rw [if_neg hcond] at horder
    refine .inr fun i hi => ?_
    have hmem : i ∈ cols := by
      rw [eq_range_of_length_eq horder.1 horder.2 hlength]
      exact List.mem_range.2 hi
    simpa [or_comm] using mem_needed.1 (hcols i hmem)

/-- A join below a projection has been pruned. -/
theorem ColumnPruning.uses_of_quiet (hp : (project (join left right on kind) es ns).WellPlaced)
    (hquiet : rule.apply (.project (.join left right on kind) es ns) = .ok none) :
    Uses (on :: es) 0 left.width ∧ Uses (on :: es) left.width right.width := by
  obtain ⟨hleft,hright⟩ := apply_eq_none.1 hquiet _ _ _ rfl _ _ _ _ rfl
  obtain ⟨hes,-,hj⟩ := wellPlaced_project.1 hp
  obtain ⟨hon,hl,hr⟩ := wellPlaced_join.1 hj
  refine ⟨uses_keep inOrder_fromLeft hleft fun i hi => ?_,
    uses_keep (inOrder_fromRight (needed_lt hes hon hl hr)) hright fun i hi => ?_⟩
  · rw [Nat.zero_add]
    exact (List.mem_filter.1 hi).1
  · obtain ⟨j,hj,rfl⟩ := List.mem_map.1 hi
    obtain ⟨hj,hle⟩ := List.mem_filter.1 hj
    rw [decide_eq_true_eq] at hle
    rwa [Nat.add_sub_cancel' hle]

/-- A filtered scan that the last rule leaves at the whole table is used as a whole. -/
theorem ArrowScans.uses_of_quiet
    (hp : (project (filter (arrowScan t (List.range t.width)) condition) es ns).WellPlaced)
    (hquiet : filterScanRule.apply
      (.project (.filter (.arrowScan t (List.range t.width)) condition) es ns) = .ok none) :
    Uses (condition :: es) 0 t.width := by
  obtain ⟨hc,he⟩ := fits_of_wellPlaced hp
  have hreads := (reads_filterCols hc he).lt
  have hlength : (filterCols t es condition).length = t.width := by
    change filterScan (.project (.filter (.arrowScan t (List.range t.width)) condition) es ns)
      = .ok none at hquiet
    unfold filterScan at hquiet
    simp only [ne_eq,not_true,if_false] at hquiet
    split at hquiet
    · split at hquiet
      · rename_i hlength
        exact hlength
      · cases hquiet
    · cases hquiet
  unfold filterCols orFirst at hreads hlength
  split at hlength
  · exact .inl hlength.symm
  · rename_i hcond
    rw [if_neg hcond] at hreads
    have hrange := eq_range_of_length_eq (Expr.pairwise_mergeSort_addColumns es condition) hreads hlength
    refine .inr fun i hi => ?_
    have hmem := hrange ▸ List.mem_range.2 hi
    rw [List.mem_mergeSort,Expr.mem_addColumns,Expr.mem_addColumnsOf] at hmem
    simpa [or_comm] using hmem

end

/-- What is at rest under all rules hands nothing up in vain. -/
theorem Plan.economical_of_quiet {p : Plan} (hp : p.WellPlaced) (hquiet : p.QuietFor defaultRules)
    (hused : p.ReadsUsed) (hhanded : p.Everywhere Handed) : p.Economical where
  layered := hquiet.1
  scan := by
    rintro t rfl
    cases hquiet.2 ArrowScans.wholeScanRule (by simp [defaultRules])
  filter := by
    rintro left right on kind condition rfl
    obtain ⟨⟨rfl,-⟩,-⟩ := everywhere_join.1 (everywhere_filter.1 hhanded).2
    have hnone := hquiet.2 FilterPushing.rule (by simp [defaultRules])
    exact FilterPushing.apply_eq_none.1 hnone _ _ rfl _ _ _ rfl
  pruned := by
    rintro left right on kind es ns rfl
    exact ColumnPruning.uses_of_quiet hp (hquiet.2 _ (by simp [defaultRules]))
  read := by
    rintro t cols es ns rfl
    obtain hscan|hused := hused
    · cases hscan
    · exact (hused ⟨t,cols,[]⟩ rfl).resolve_right fun h => h.2 rfl
  filtered := by
    rintro t cols condition es ns rfl
    obtain hscan|hused := hused
    · cases hscan
    · obtain huses|⟨hcols,-⟩ := hused ⟨t,cols,[condition]⟩ rfl
      · exact huses
      · obtain rfl : cols = List.range t.width := hcols
        rw [List.length_range]
        exact ArrowScans.uses_of_quiet hp (hquiet.2 _ (by simp [defaultRules]))
  joined := by
    rintro left right on kind rfl
    obtain ⟨-,hl,hr⟩ := (everywhere_join.1 hhanded).1
    exact ⟨hl.narrow,hr.narrow⟩
  asks := by
    rintro input groups calls rfl
    exact (everywhere_aggregate.1 hhanded).1

/-! ## Optimised queries -/

theorem Face.IsSource.fetched {p : Plan} (h : p.face.IsSource) : p.Fetched := by
  cases p with
  | project input es ns =>
    exfalso
    by_cases hp : (project input es ns).face = .regrouped
    · rw [hp] at h
      cases h
    · rw [face_project_eq_project hp] at h
      cases h
  | aggregate input gs cs => cases h
  | _ => trivial

/-- A query with inner joins hands joins and aggregates what they need. -/
theorem Plan.Built.handed {inner : Prop} {p : Plan} (h : p.Built inner) (hinner : inner) : p.Handed := by
  cases p with
  | join left right on kind => exact ⟨h.2.2 hinner,Face.IsSource.fetched h.1,Face.IsSource.fetched h.2.1⟩
  | aggregate input gs cs => exact h.1
  | _ => trivial

theorem Plan.Built.unread {inner : Prop} {p : Plan} (h : p.Built inner) : p.Unread := by
  cases p with
  | arrowScan t cols => exact h
  | _ => trivial

/-- The rules about scans leave no column unused that they read. -/
theorem leadsThrough_reading : LeadsThrough
    (fun p => p.Everywhere (QuietFor (defaultRules.take 4)) ∧
      p.Everywhere fun n => n.Layered ∧ n.ReadsUsed)
    (defaultRules.drop 4) (fun q => q.Everywhere (QuietFor defaultRules) ∧ q.Everywhere Settled) := by
  refine .step (ArrowScans.leads_projectScan.and_settles ArrowScans.projectScan_settlesReading) ?_
  refine .step (ArrowScans.leads_wholeScan.and_settles ArrowScans.wholeScan_settlesReading) ?_
  refine .step (ArrowScans.leads_filterScan.and_settles ArrowScans.filterScan_settlesReading) ?_
  exact .done _

/-- Where all joins of a query are inner, each scan of the optimised plan reads columns of its table,
each once, and at most one of them is not needed by the output columns, the conditions, the group keys
and the arguments of aggregates: a column that was kept because no other one of an input is needed. -/
theorem Catalog.optimise_bind_thrifty {c : Catalog} {query : Sql.Query} {p q : Plan} {limit : Nat}
    (hjoins : query.JoinsInner) (hp : c.bind query = .ok p)
    (hq : (optimise limit defaultRules p).1 = .ok q) {t : Table} {cols : List Nat}
    (hscan : .arrowScan t cols ∈ q.operators) :
    cols.Nodup ∧ (∀ i ∈ cols, i < t.width) ∧
      (∃ N, Demands q {i | i < q.width} (.arrowScan t cols) N) ∧
      ∀ N, Demands q {i | i < q.width} (.arrowScan t cols) N →
        Thrifty q {i | i < q.width} (.arrowScan t cols) N := by
  have hplaced : p.WellPlaced := (Binding.query_bound hp).wellPlaced
  have hbuilt := Binding.query_built hp
  have hq' : (optimise limit (defaultRules.take 4 ++ defaultRules.drop 4) p).1 = .ok q := hq
  obtain ⟨r,hr,hrq⟩ := optimise_append_eq_ok hq'
  have hquiet := (leadsThrough_firstRules.optimise ⟨hplaced,Binding.query_unrewritten hp⟩ hr).1
  have hunread : r.Everywhere Unread := optimise_induction keepsUnread_compatible
    (fun _ hrule _ _ => apply_keepsUnread hrule) hr fun n hn => (hbuilt n hn).unread
  have hused := readsUsed_of_unread hunread
  obtain ⟨⟨hrests,hsettled⟩,-⟩ := leadsThrough_reading.optimise
    ⟨hquiet,fun n hn => ⟨(hquiet n hn).1,hused n hn⟩⟩ hrq
  have hkept : KeepsHanded p q := optimise_induction keepsHanded_compatible
    (fun _ hrule _ _ => apply_keepsHanded hrule) hq
  have hhanded := hkept.handed fun n hn => (hbuilt n hn).handed hjoins
  have hshape : KeepsShape p q := optimise_induction keepsShape_compatible
    (fun _ hrule _ _ => apply_keepsShape hrule) hq
  have hplaced' := (hshape hplaced).1
  have heconomical : q.Everywhere Economical := fun n hn =>
    economical_of_quiet ⟨hplaced'.columns.of_mem hn,hplaced'.names.of_mem hn⟩ (hrests n hn)
      (hsettled n hn).used (hhanded.of_mem hn)
  have hcolumns : (arrowScan t cols).ColumnsFit := hplaced'.columns _ hscan
  exact ⟨(hsettled _ hscan).used,columnsFit_arrowScan.1 hcolumns,Demands.exists_of_mem hscan,
    fun _ => thrifty_of_economical heconomical⟩

theorem joinsInner_busyCities : busyCities.JoinsInner := by
  rintro s ⟨⟩
  simp [Sql.Select.JoinsInner]

theorem optimise_busyCities_thrifty : busyCities.JoinsInner ∧
    shop.bind busyCities = .ok busyCitiesPlan ∧
    (optimise 10 defaultRules busyCitiesPlan).1 = .ok busyCitiesOptimised ∧
    .arrowScan orders [1,2] ∈ busyCitiesOptimised.operators ∧
    [1,2].Nodup ∧ (∀ i ∈ [1,2], i < orders.width) ∧
      (∃ N, Demands busyCitiesOptimised {i | i < 2} (.arrowScan orders [1,2]) N) ∧
      ∀ N, Demands busyCitiesOptimised {i | i < 2} (.arrowScan orders [1,2]) N →
        Thrifty busyCitiesOptimised {i | i < 2} (.arrowScan orders [1,2]) N := by
  have hp : shop.bind busyCities = .ok busyCitiesPlan := by decide +kernel
  have hscan : .arrowScan orders [1,2] ∈ busyCitiesOptimised.operators := by decide +kernel
  exact ⟨joinsInner_busyCities,hp,optimise_busyCities,hscan,
    Catalog.optimise_bind_thrifty joinsInner_busyCities hp optimise_busyCities hscan⟩

end QueryPlan
