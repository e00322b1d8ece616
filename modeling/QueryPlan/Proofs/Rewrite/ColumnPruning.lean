import QueryPlan.Proofs.Meaning.Picking
import QueryPlan.Proofs.Rewrite.Rows
import Mathlib.Data.List.GetD

/-! # Pruned joins keep columns and rows -/
namespace QueryPlan.ColumnPruning
open Plan

/-- The columns that a projection needs of the join below it, in the order of the row. -/
def needed (exprs : List Expr) (on : Expr) : List Nat :=
  (Expr.addColumns (Expr.addColumnsOf [] exprs) on).mergeSort (· ≤ ·)

/-- The columns to keep of the left input. -/
def fromLeft (leftWidth : Nat) (exprs : List Expr) (on : Expr) : List Nat :=
  keep ((needed exprs on).filter (· < leftWidth)) leftWidth

/-- The columns to keep of the right input. -/
def fromRight (leftWidth rightWidth : Nat) (exprs : List Expr) (on : Expr) : List Nat :=
  keep (((needed exprs on).filter (leftWidth ≤ ·)).map (· - leftWidth)) rightWidth

/-- Columns in the order of a row, each once. -/
def InOrder (width : Nat) (cols : List Nat) : Prop :=
  cols.Pairwise (· < ·) ∧ ∀ c ∈ cols, c < width

/-- What the rule makes of a projection of a join. -/
theorem apply_eq_some {p q : Plan} (h : apply p = .ok (some q)) :
    ∃ left right on kind exprs names, p = .project (.join left right on kind) exprs names ∧
      q = .project (.join (prune left (fromLeft left.width exprs on))
          (prune right (fromRight left.width right.width exprs on))
          (on.renumber (moved left.width (fromLeft left.width exprs on)
            (fromRight left.width right.width exprs on))) kind)
        (exprs.map (Expr.renumber (moved left.width (fromLeft left.width exprs on)
          (fromRight left.width right.width exprs on)))) names := by
  unfold apply at h
  split at h
  · rename_i left right on kind exprs names
    dsimp only at h
    split at h
    · cases h
    · cases h
      exact ⟨left,right,on,kind,exprs,names,rfl,rfl⟩
  · cases h

/-! ## The columns kept -/

variable {leftWidth rightWidth : Nat} {exprs : List Expr} {on : Expr}

theorem mem_needed {i : Nat} :
    i ∈ needed exprs on ↔ (∃ e ∈ exprs, i ∈ e.occurrences) ∨ i ∈ on.occurrences := by
  simp [needed]

theorem needed_lt {left right : Plan} (hes : ∀ e ∈ exprs, e.Fits (left.types ++ right.types))
    (hon : on.Fits (left.types ++ right.types)) (hl : left.WellPlaced) (hr : right.WellPlaced) :
    ∀ i ∈ needed exprs on, i < left.width+right.width := by
  rw [← hl.length_types,← hr.length_types,← List.length_append]
  intro i hi
  rcases mem_needed.1 hi with ⟨e,he,hi⟩|hi
  · exact (hes e he).lt i hi
  · exact hon.lt i hi

theorem inOrder_keep {width : Nat} {cols : List Nat} (h : InOrder width cols) :
    InOrder width (keep cols width) := by
  unfold keep
  split
  · rename_i hw
    simp only [Bool.and_eq_true,decide_eq_true_eq] at hw
    exact ⟨List.pairwise_singleton _ _,by simpa using hw.2⟩
  · exact h

theorem mem_keep {width i : Nat} {cols : List Nat} (h : i ∈ cols) : i ∈ keep cols width := by
  unfold keep
  split
  · rename_i hw
    simp only [Bool.and_eq_true,List.isEmpty_iff] at hw
    simp [hw.1] at h
  · exact h

theorem inOrder_fromLeft : InOrder leftWidth (fromLeft leftWidth exprs on) :=
  inOrder_keep ⟨(Expr.pairwise_mergeSort_addColumns exprs on).filter _,
    fun c hc => by simpa using (List.mem_filter.1 hc).2⟩

theorem inOrder_fromRight (h : ∀ i ∈ needed exprs on, i < leftWidth+rightWidth) :
    InOrder rightWidth (fromRight leftWidth rightWidth exprs on) := by
  refine inOrder_keep ⟨?_,?_⟩
  · refine List.pairwise_map.2 (((Expr.pairwise_mergeSort_addColumns exprs on).filter _).imp_of_mem ?_)
    intro a b ha hb hab
    have ha := (List.mem_filter.1 ha).2
    simp only [decide_eq_true_eq] at ha
    omega
  · rw [List.forall_mem_map]
    intro c hc
    obtain ⟨hc,hle⟩ := List.mem_filter.1 hc
    have := h c hc
    simp only [decide_eq_true_eq] at hle
    omega

theorem mem_fromLeft {i : Nat} (h : i ∈ needed exprs on) (hi : i < leftWidth) :
    i ∈ fromLeft leftWidth exprs on :=
  mem_keep (List.mem_filter.2 ⟨h,by simpa using hi⟩)

theorem mem_fromRight (rightWidth : Nat) {i : Nat} (h : i ∈ needed exprs on) (hi : leftWidth ≤ i) :
    i-leftWidth ∈ fromRight leftWidth rightWidth exprs on :=
  mem_keep (List.mem_map.2 ⟨i,List.mem_filter.2 ⟨h,by simpa using hi⟩,rfl⟩)

/-! ## Pruned inputs -/

variable {p : Plan} {cols : List Nat}

/-- An input is pruned by a projection to columns, unless all columns are kept. -/
@[elab_as_elim]
theorem prune_induction {P : Plan → Prop} (hp : cols.length = p.width → P p)
    (hproject : P (p.projectDerived
      (cols.map fun c => .column c (((p.fields[c]?).map Field.type).getD .null)))) :
    P (prune p cols) := by
  unfold prune
  split
  · rename_i hlength
    exact hp hlength
  · exact hproject

theorem everywhere_pruned {P : Plan → Prop} (hP : ∀ exprs names, P (.project p exprs names))
    (h : p.Everywhere P) : (prune p cols).Everywhere P :=
  prune_induction (fun _ => h) (everywhere_project.2 ⟨hP _ _,h⟩)

theorem width_prune : (prune p cols).width = cols.length :=
  prune_induction Eq.symm (by simp [projectDerived,width])

@[simp] theorem scans_prune : (prune p cols).scans = p.scans :=
  prune_induction (fun _ => rfl) rfl

theorem types_prune (hp : p.WellPlaced) (h : InOrder p.width cols) :
    (prune p cols).types = cols.map fun c => (p.types[c]?).getD .null := by
  refine prune_induction (fun hl => ?_) ?_
  · rw [eq_range_of_length_eq h.1 h.2 hl,← hp.length_types]
    refine List.ext_getElem (by simp) fun k hk hk' => ?_
    simp [hk]
  · simp only [projectDerived,types,List.map_map]
    refine List.map_congr_left fun c _ => ?_
    simp [Expr.type,hp.getElem?_fields]

theorem wellPlaced_prune (hp : p.WellPlaced) (h : InOrder p.width cols) :
    (prune p cols).WellPlaced := by
  refine prune_induction (fun _ => hp) ?_
  refine wellPlaced_project.2 ⟨?_,by simp [uniquify_length],hp⟩
  rw [List.forall_mem_map]
  intro c hc
  have hc := h.2 c hc
  rw [← hp.length_types] at hc
  simp [hp.getElem?_fields,hc]

/-- A column keeps its type where it is moved to. -/
theorem getElem?_types_prune {i : Nat} (hp : p.WellPlaced) (h : InOrder p.width cols) (hi : i ∈ cols) :
    (prune p cols).types[Expr.positionIn cols i]? = p.types[i]? := by
  have hlt := h.2 i hi
  rw [← hp.length_types] at hlt
  rw [types_prune hp h,List.getElem?_map,Expr.getElem?_positionIn hi]
  simp [hlt]

theorem apply_keepsShape {p q : Plan} (h : apply p = .ok (some q)) : KeepsShape p q := by
  obtain ⟨left,right,on,kind,exprs,names,rfl,rfl⟩ := apply_eq_some h
  intro hp
  obtain ⟨hes,hn,hj⟩ := wellPlaced_project.1 hp
  obtain ⟨hon,hl,hr⟩ := wellPlaced_join.1 hj
  have hneeded := needed_lt hes hon hl hr
  have hkl : InOrder left.width (fromLeft left.width exprs on) := inOrder_fromLeft
  have hkr := inOrder_fromRight hneeded
  have hmoved : ∀ i ∈ needed exprs on,
      ((prune left (fromLeft left.width exprs on)).types
        ++ (prune right (fromRight left.width right.width exprs on)).types)[moved left.width
          (fromLeft left.width exprs on) (fromRight left.width right.width exprs on) i]?
        = (left.types ++ right.types)[i]? := by
    intro i hi
    have hwl := (wellPlaced_prune hl hkl).length_types.trans width_prune
    unfold moved
    split
    · rename_i hlt
      have hmem := mem_fromLeft hi hlt
      rw [List.getElem?_append_left (by rw [hwl]; exact Expr.positionIn_lt hmem),
        List.getElem?_append_left (by rwa [hl.length_types]),getElem?_types_prune hl hkl hmem]
    · rename_i hle
      have hmem := mem_fromRight right.width hi (Nat.le_of_not_lt hle)
      rw [List.getElem?_append_right (by rw [hwl]; omega),hwl,Nat.add_sub_cancel_left,
        getElem?_types_prune hr hkr hmem,
        List.getElem?_append_right (by rw [hl.length_types]; omega),hl.length_types]
  refine ⟨wellPlaced_project.2 ⟨?_,by simpa using hn,wellPlaced_join.2 ⟨?_,
    wellPlaced_prune hl hkl,wellPlaced_prune hr hkr⟩⟩,by simp [types],by simp [scans]⟩
  · rw [List.forall_mem_map]
    exact fun e he => (hes e he).renumber fun i hi => hmoved i (mem_needed.2 (.inl ⟨e,he,hi⟩))
  · exact hon.renumber fun i hi => hmoved i (mem_needed.2 (.inr hi))

theorem sound_prune {conditions : Prop} (hp : p.Everywhere (Sound conditions)) :
    (prune p cols).Everywhere (Sound conditions) := by
  refine prune_induction (fun _ => hp) (everywhere_project.2 ⟨sound_project.2 ?_,hp⟩)
  exact List.forall_mem_map.2 fun _ _ => Expr.typed_column

theorem apply_keepsSound {conditions : Prop} {p q : Plan} (h : apply p = .ok (some q)) :
    KeepsSound conditions p q := by
  obtain ⟨left,right,on,kind,exprs,names,rfl,rfl⟩ := apply_eq_some h
  intro hp
  obtain ⟨hes,hj⟩ := everywhere_project.1 hp
  obtain ⟨hon,hl,hr⟩ := everywhere_join.1 hj
  obtain ⟨hot,hob⟩ := sound_join.1 hon
  refine everywhere_project.2 ⟨sound_project.2 ?_,everywhere_join.2 ⟨sound_join.2 ⟨hot.renumber,?_⟩,
    sound_prune hl,sound_prune hr⟩⟩
  · exact List.forall_mem_map.2 fun e he => (sound_project.1 hes e he).renumber
  · rwa [Expr.type_renumber]

theorem apply_keepsFields {p q : Plan} (h : apply p = .ok (some q)) : KeepsFields p q := by
  refine ⟨apply_keepsShape h,fun _ => ?_⟩
  obtain ⟨left,right,on,kind,exprs,names,rfl,rfl⟩ := apply_eq_some h
  simp [fields,List.zipWith_map_left]

/-! ## Rows -/

variable {α : Type} {I : Interpretation α}

/-- A column keeps its value where it is moved to. -/
theorem getD_moved {left right : List Nat} {l r : Row α} {i : Nat}
    (hl : i < l.length → i ∈ left) (hr : l.length ≤ i → i-l.length ∈ right) :
    (Row.pick left l ++ Row.pick right r).getD (moved l.length left right i) .null
      = (l ++ r).getD i .null := by
  unfold moved
  split
  · rename_i hlt
    rw [List.getD_append _ _ _ _ (by simpa using Expr.positionIn_lt (hl hlt)),
      List.getD_append _ _ _ _ hlt,Row.getD_pick_positionIn _ (hl hlt)]
  · rename_i hle
    have hle := Nat.le_of_not_lt hle
    rw [List.getD_append_right _ _ _ _ (by simp),List.getD_append_right _ _ _ _ hle,
      Row.length_pick,Nat.add_sub_cancel_left,Row.getD_pick_positionIn _ (hr hle)]

/-- Expressions keep their values over the narrowed row. -/
theorem eval_moved {l r : Row α} {e : Expr} (hl : l.length = leftWidth)
    (he : ∀ i ∈ e.occurrences, i ∈ needed exprs on) :
    I.eval (Row.pick (fromLeft leftWidth exprs on) l
        ++ Row.pick (fromRight leftWidth rightWidth exprs on) r)
      (e.renumber (moved leftWidth (fromLeft leftWidth exprs on)
        (fromRight leftWidth rightWidth exprs on))) = I.eval (l ++ r) e := by
  subst hl
  exact Interpretation.eval_renumber fun i hi =>
    getD_moved (fun h => mem_fromLeft (he i hi) h) fun h => mem_fromRight rightWidth (he i hi) h

variable [DecidableEq α] {db : Database α}

theorem rows_prune {p : Plan} {cols : List Nat} (h : InOrder p.width cols) :
    (prune p cols).rows I db = (p.rows I db).map (Row.pick cols) := by
  refine prune_induction (fun hl => ?_) ?_
  · rw [eq_range_of_length_eq h.1 h.2 hl]
    refine ((Multiset.map_congr rfl fun r hr => ?_).trans (Multiset.map_id _)).symm
    rw [← length_row r hr,Row.pick_range,id]
  · simp only [projectDerived,rows,List.map_map]
    rfl

theorem apply_keepsRows {p q : Plan} (h : apply p = .ok (some q)) : KeepsRows I db p q := by
  refine ⟨apply_keepsShape h,fun hp => ?_⟩
  obtain ⟨left,right,on,kind,exprs,names,rfl,rfl⟩ := apply_eq_some h
  obtain ⟨hes,hn,hj⟩ := wellPlaced_project.1 hp
  obtain ⟨hon,hl,hr⟩ := wellPlaced_join.1 hj
  have hneeded := needed_lt hes hon hl hr
  have hout : ∀ l r : Row α, l.length = left.width →
      (exprs.map (Expr.renumber (moved left.width (fromLeft left.width exprs on)
        (fromRight left.width right.width exprs on)))).map (I.eval
          (Row.pick (fromLeft left.width exprs on) l
            ++ Row.pick (fromRight left.width right.width exprs on) r))
        = exprs.map (I.eval (l ++ r)) := by
    intro l r hlen
    rw [List.map_map]
    exact List.map_congr_left fun e he =>
      eval_moved hlen fun i hi => mem_needed.2 (.inl ⟨e,he,hi⟩)
  simp only [rows,width_prune,rows_prune inOrder_fromLeft,rows_prune (inOrder_fromRight hneeded)]
  refine JoinKind.map_rows (fun l hl' r _ => ?_) (fun l hl' r _ => hout l r (length_row l hl'))
    (fun l hl' => ?_) fun r _ => ?_
  · rw [Interpretation.holds,Interpretation.holds,
      eval_moved (length_row l hl') fun i hi => mem_needed.2 (.inr hi)]
  · rw [← Row.pick_nulls right.width]
    exact hout l _ (length_row l hl')
  · rw [← Row.pick_nulls left.width]
    exact hout _ r (Row.length_nulls _)

end QueryPlan.ColumnPruning
