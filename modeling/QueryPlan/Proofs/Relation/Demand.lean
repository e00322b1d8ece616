import QueryPlan.Proofs.Relation.WellFormed
import QueryPlan.Proofs.Rewrite.Layers

/-! # Which columns of a plan are needed

From the columns needed of a plan follows what its operators need of their inputs: the columns of
their conditions, of the expressions that are needed, of group keys and of arguments. A column that
nothing above asks for is dead. -/
namespace QueryPlan

/-- An expression refers to one column at most. -/
def Expr.Narrow (e : Expr) : Prop := ∀ i ∈ e.occurrences, ∀ j ∈ e.occurrences, i = j

namespace Plan

/-- Where the columns `D` of a plan are needed, the columns `N` of its operator `n` are. -/
inductive Demands : Plan → Set Nat → Plan → Set Nat → Prop
  | root (p : Plan) (D : Set Nat) : Demands p D p D
  | filter {input n : Plan} {D N : Set Nat} {condition : Expr} :
    Demands input {i | i ∈ D ∨ i ∈ condition.occurrences} n N →
    Demands (filter input condition) D n N
  | project {input n : Plan} {D N : Set Nat} {es : List Expr} {ns : List String} :
    Demands input {i | ∃ k ∈ D, ∃ e, es[k]? = some e ∧ i ∈ e.occurrences} n N →
    Demands (project input es ns) D n N
  | joinLeft {left right n : Plan} {D N : Set Nat} {on : Expr} {kind : JoinKind} :
    Demands left {i | i < left.width ∧ (i ∈ D ∨ i ∈ on.occurrences)} n N →
    Demands (join left right on kind) D n N
  | joinRight {left right n : Plan} {D N : Set Nat} {on : Expr} {kind : JoinKind} :
    Demands right {i | left.width+i ∈ D ∨ left.width+i ∈ on.occurrences} n N →
    Demands (join left right on kind) D n N
  | aggregate {input n : Plan} {D N : Set Nat} {groups : List Nat} {calls : List AggregateCall} :
    Demands input {i | i ∈ groups ∨ ∃ c ∈ calls, i ∈ c.args} n N →
    Demands (aggregate input groups calls) D n N

namespace Demands
variable {p m n : Plan} {D M N : Set Nat}

theorem trans (h : Demands p D m M) (h' : Demands m M n N) : Demands p D n N := by
  induction h with
  | root => exact h'
  | filter _ ih => exact .filter (ih h')
  | project _ ih => exact .project (ih h')
  | joinLeft _ ih => exact .joinLeft (ih h')
  | joinRight _ ih => exact .joinRight (ih h')
  | aggregate _ ih => exact .aggregate (ih h')

/-- Each operator is come to on some way down from the root. -/
theorem exists_of_mem (h : n ∈ p.operators) : ∃ N, Demands p D n N := by
  induction p generalizing D with
  | scan t => exact ⟨D,List.mem_singleton.1 h ▸ .root _ _⟩
  | arrowScan t cols => exact ⟨D,List.mem_singleton.1 h ▸ .root _ _⟩
  | filter input c ih =>
    rcases List.mem_cons.1 h with rfl|h
    · exact ⟨D,.root _ _⟩
    · exact (ih h).imp fun _ => .filter
  | project input es ns ih =>
    rcases List.mem_cons.1 h with rfl|h
    · exact ⟨D,.root _ _⟩
    · exact (ih h).imp fun _ => .project
  | aggregate input gs cs ih =>
    rcases List.mem_cons.1 h with rfl|h
    · exact ⟨D,.root _ _⟩
    · exact (ih h).imp fun _ => .aggregate
  | join left right c k ihl ihr =>
    rcases List.mem_cons.1 h with rfl|h
    · exact ⟨D,.root _ _⟩
    · rcases List.mem_append.1 h with h|h
      · exact (ihl h).imp fun _ => .joinLeft
      · exact (ihr h).imp fun _ => .joinRight

end Demands

/-- A column that is not needed. -/
def Dead (p : Plan) (N : Set Nat) (i : Nat) : Prop := i < p.width ∧ i ∉ N

/-- At most one column of an operator is dead, and this only where it comes from an input of one
column that is not needed. -/
structure Thrifty (p : Plan) (D : Set Nat) (n : Plan) (N : Set Nat) : Prop where
  one : ∀ i j, n.Dead N i → n.Dead N j → i = j
  kept : ∀ i, n.Dead N i → ∃ m M, Demands p D m M ∧ Demands m M n N ∧ m.width = 1 ∧ 0 ∉ M

namespace Thrifty
variable {p n c : Plan} {D N C : Set Nat}

theorem of_needed (h : ∀ i < n.width, i ∈ N) : Thrifty p D n N where
  one i _ hi _ := absurd (h i hi.1) hi.2
  kept i hi := absurd (h i hi.1) hi.2

theorem of_width (h : n.width = 1) (hn : Demands p D n N) : Thrifty p D n N := by
  have hzero (i : Nat) (hi : n.Dead N i) : i = 0 := by
    have := hi.1
    omega
  refine ⟨fun i j hi hj => (hzero i hi).trans (hzero j hj).symm,fun i hi => ?_⟩
  exact ⟨n,N,hn,.root n N,h,hzero i hi ▸ hi.2⟩

/-- Dead columns that are dead further up already. -/
theorem below {f : Nat → Nat} (hf : ∀ i j, f i = f j → i = j) (h : Thrifty p D n N)
    (hstep : Demands n N c C) (hdead : ∀ i, c.Dead C i → n.Dead N (f i)) : Thrifty p D c C where
  one i j hi hj := hf i j (h.one _ _ (hdead i hi) (hdead j hj))
  kept i hi := by
    obtain ⟨m,M,hm,hn,hwidth,hzero⟩ := h.kept _ (hdead i hi)
    exact ⟨m,M,hm,hn.trans hstep,hwidth,hzero⟩

/-- Dead columns that only a dead expression of a projection refers to, where this refers to one
column at most. -/
theorem below_project {input : Plan} {es : List Expr} {ns : List String} {f : Nat → Nat}
    (hf : ∀ i j, f i = f j → i = j) (h : Thrifty p D (project input es ns) N)
    (hnarrow : ∀ k, (project input es ns).Dead N k → ∀ e ∈ es, e.Narrow)
    (hstep : Demands (project input es ns) N c C)
    (hdead : ∀ i, c.Dead C i → ∃ k e, es[k]? = some e ∧ k ∉ N ∧ f i ∈ e.occurrences) :
    Thrifty p D c C := by
  have hup (i : Nat) (hi : c.Dead C i) : ∃ k e, (project input es ns).Dead N k ∧
      es[k]? = some e ∧ f i ∈ e.occurrences := by
    obtain ⟨k,e,hk,hN,hi⟩ := hdead i hi
    exact ⟨k,e,⟨(List.getElem?_eq_some_iff.1 hk).1,hN⟩,hk,hi⟩
  refine ⟨fun i j hi hj => hf i j ?_,fun i hi => ?_⟩
  · obtain ⟨k,e,hk,he,hi⟩ := hup i hi
    obtain ⟨k',e',hk',he',hj⟩ := hup j hj
    obtain rfl := h.one _ _ hk hk'
    obtain rfl : e = e' := Option.some.inj (he.symm.trans he')
    exact hnarrow k hk e (List.mem_of_getElem? he) _ hi _ hj
  · obtain ⟨k,_,hk,-,-⟩ := hup i hi
    obtain ⟨m,M,hm,hn,hwidth,hzero⟩ := h.kept _ hk
    exact ⟨m,M,hm,hn.trans hstep,hwidth,hzero⟩

end Thrifty

/-! ## Operators that need what is below them -/

/-- An aggregate with filters and projections on top of it. -/
def Grouped : Plan → Prop
  | aggregate _ _ _ => True
  | filter input _ | project input _ _ => input.Grouped
  | _ => False

/-- A projection at the root refers to one column at most in each expression. -/
def Narrow : Plan → Prop
  | project _ es _ => ∀ e ∈ es, e.Narrow
  | _ => True

/-- One column with the same value in each row. -/
def Constant (p : Plan) : Prop := ∃ input v ns, p = .project input [.literal v] ns

/-- An aggregate groups by each column of its input or computes with it; the input may be constant
instead. -/
def Asks (input : Plan) (groups : List Nat) (calls : List AggregateCall) : Prop :=
  input.Constant ∨ ∀ i < input.width, i ∈ groups ∨ ∃ c ∈ calls, i ∈ c.args

/-- The columns that some expressions refer to are all of a row, unless it has one column only. -/
def Uses (es : List Expr) (offset width : Nat) : Prop :=
  width = 1 ∨ ∀ i < width, ∃ e ∈ es, offset+i ∈ e.occurrences

/-- The root hands nothing up from its inputs that is not asked for, as far as it can tell. -/
structure Economical (p : Plan) : Prop where
  layered : p.Layered
  scan : ∀ t, p ≠ .scan t
  filter : ∀ left right on kind condition, p ≠ .filter (.join left right on kind) condition
  pruned : ∀ left right on kind es ns, p = .project (.join left right on kind) es ns →
    Uses (on :: es) 0 left.width ∧ Uses (on :: es) left.width right.width
  read : ∀ t cols es ns, p = .project (.arrowScan t cols) es ns → Uses es 0 cols.length
  filtered : ∀ t cols condition es ns, p = .project (.filter (.arrowScan t cols) condition) es ns →
    Uses (condition :: es) 0 cols.length
  joined : ∀ left right on kind, p = .join left right on kind → left.Narrow ∧ right.Narrow
  asks : ∀ input groups calls, p = .aggregate input groups calls → input.Asks groups calls

/-- What the way down from the root has come to: an aggregate lies ahead, or of all inputs that
matter most columns are needed. -/
inductive Spared (p : Plan) (D : Set Nat) : Plan → Set Nat → Prop
  | grouped {n : Plan} {N : Set Nat} : n.Grouped → Spared p D n N
  | arrowScan {t : Table} {cols : List Nat} {N : Set Nat} : Thrifty p D (arrowScan t cols) N →
    Spared p D (arrowScan t cols) N
  | filter {input : Plan} {condition : Expr} {N : Set Nat} :
    Thrifty p D input {i | i ∈ N ∨ i ∈ condition.occurrences} → Spared p D (filter input condition) N
  | project {input : Plan} {es : List Expr} {ns : List String} {N : Set Nat} :
    Thrifty p D (project input es ns) N →
    (∀ k, (project input es ns).Dead N k → ∀ e ∈ es, e.Narrow) → Spared p D (project input es ns) N
  | join {left right : Plan} {on : Expr} {kind : JoinKind} {N : Set Nat} :
    Thrifty p D left {i | i < left.width ∧ (i ∈ N ∨ i ∈ on.occurrences)} →
    Thrifty p D right {i | left.width+i ∈ N ∨ left.width+i ∈ on.occurrences} →
    Spared p D (join left right on kind) N

section
variable {p n : Plan} {D N : Set Nat}

theorem Thrifty.spared (h : Thrifty p D n N) (hn : ∀ t, n ≠ scan t)
    (hnarrow : ∀ k, n.Dead N k → n.Narrow) : Spared p D n N := by
  cases n with
  | scan t => exact absurd rfl (hn t)
  | arrowScan t cols => exact .arrowScan h
  | filter input c =>
    refine .filter (h.below (f := id) (fun _ _ h => h) (.filter (.root _ _)) fun i hi => ⟨hi.1,?_⟩)
    exact fun hN => hi.2 (.inl hN)
  | project input es ns => exact .project h hnarrow
  | aggregate input gs cs => exact .grouped trivial
  | join left right on kind =>
    refine .join (h.below (f := id) (fun _ _ h => h) (.joinLeft (.root _ _)) fun i hi => ?_)
      (h.below (f := (left.width + ·)) (fun _ _ => Nat.add_left_cancel) (.joinRight (.root _ _)) fun i hi => ?_)
    · exact ⟨Nat.lt_add_right _ hi.1,fun hN => hi.2 ⟨hi.1,.inl hN⟩⟩
    · exact ⟨Nat.add_lt_add_left hi.1 _,fun hN => hi.2 (.inl hN)⟩

end

section
variable {p input left right : Plan} {D N C : Set Nat} {condition on : Expr} {es : List Expr}
  {ns : List String} {kind : JoinKind} {groups : List Nat} {calls : List AggregateCall}

theorem grouped_of_face {n : Plan} (h : n.face.isGrouped) : n.Grouped := by
  induction n with
  | aggregate input gs cs => trivial
  | project input es ns ih =>
    by_cases hface : (project input es ns).face = .regrouped
    · exact ih (face_project_eq_regrouped.1 hface).1
    · rw [face_project_eq_project hface] at h
      cases h
  | _ => cases h

/-- A projection that cannot be taken away is one of groups. -/
theorem grouped_of_project (h : (project input es ns).face ≠ .project) :
    (project input es ns).Grouped := by
  by_cases hface : (project input es ns).face = .regrouped
  · exact grouped_of_face (hface ▸ rfl)
  · exact absurd (face_project_eq_project hface) h

theorem grouped_or_narrow {n : Plan} (h : n.face ≠ .project) : n.Grouped ∨ n.Narrow := by
  cases n with
  | project input es ns => exact .inl (grouped_of_project h)
  | _ => exact .inr trivial

theorem spared_of_filter (h : Spared p D (filter input condition) N)
    (hn : (filter input condition).Economical) (hi : input.Economical) :
    Spared p D input {i | i ∈ N ∨ i ∈ condition.occurrences} := by
  cases h with
  | grouped h => exact .grouped h
  | filter h =>
    obtain hg|hnarrow := grouped_or_narrow hn.layered.1
    · exact .grouped hg
    · exact h.spared hi.scan fun _ _ => hnarrow

theorem spared_of_join (h : Spared p D (join left right on kind) N)
    (hn : (join left right on kind).Economical) (hl : left.Economical) (hr : right.Economical) :
    Spared p D left {i | i < left.width ∧ (i ∈ N ∨ i ∈ on.occurrences)} ∧
      Spared p D right {i | left.width+i ∈ N ∨ left.width+i ∈ on.occurrences} := by
  obtain ⟨hnl,hnr⟩ := hn.joined _ _ _ _ rfl
  cases h with
  | grouped h => exact h.elim
  | join h h' => exact ⟨h.spared hl.scan fun _ _ => hnl,h'.spared hr.scan fun _ _ => hnr⟩

theorem spared_of_aggregate (hdemands : Demands p D (aggregate input groups calls) N)
    (hn : (aggregate input groups calls).Economical) (hi : input.Economical) :
    Spared p D input {i | i ∈ groups ∨ ∃ c ∈ calls, i ∈ c.args} := by
  obtain ⟨inner,v,ns,rfl⟩|hall := hn.asks _ _ _ rfl
  · refine (Thrifty.of_width rfl (hdemands.trans (.aggregate (.root _ _)))).spared hi.scan fun _ _ => ?_
    intro e he i hi
    rw [List.mem_singleton.1 he] at hi
    cases hi
  · exact (Thrifty.of_needed hall).spared hi.scan fun i hi' => absurd (hall i hi'.1) hi'.2

/-- Below a projection a column is dead if only dead expressions refer to it. -/
theorem Thrifty.of_uses {c : Plan} (conditions : List Expr) {offset : Nat}
    (h : Thrifty p D (project input es ns) N)
    (hnarrow : ∀ k, (project input es ns).Dead N k → ∀ e ∈ es, e.Narrow)
    (hdemands : Demands p D (project input es ns) N) (hstep : Demands (project input es ns) N c C)
    (huses : Uses (conditions ++ es) offset c.width)
    (hconditions : ∀ i < c.width, (∃ e ∈ conditions, offset+i ∈ e.occurrences) → i ∈ C)
    (hneeded : ∀ i < c.width, (∃ k ∈ N, ∃ e, es[k]? = some e ∧ offset+i ∈ e.occurrences) → i ∈ C) :
    Thrifty p D c C := by
  obtain hone|hall := huses
  · exact .of_width hone (hdemands.trans hstep)
  · refine h.below_project (f := (offset+·)) (fun _ _ => Nat.add_left_cancel) hnarrow hstep fun i hi => ?_
    obtain ⟨e,he,hocc⟩ := hall i hi.1
    rcases List.mem_append.1 he with he|he
    · exact absurd (hconditions i hi.1 ⟨e,he,hocc⟩) hi.2
    · obtain ⟨k,hk,rfl⟩ := List.getElem_of_mem he
      refine ⟨k,es[k],List.getElem?_eq_getElem hk,fun hN => ?_,hocc⟩
      exact hi.2 (hneeded i hi.1 ⟨k,hN,es[k],List.getElem?_eq_getElem hk,hocc⟩)

theorem spared_of_project (h : Spared p D (project input es ns) N)
    (hdemands : Demands p D (project input es ns) N)
    (hn : (project input es ns).Economical) (hi : input.Everywhere Economical) :
    Spared p D input {i | ∃ k ∈ N, ∃ e, es[k]? = some e ∧ i ∈ e.occurrences} := by
  obtain ⟨hroot,hinputs⟩ := everywhere_iff.1 hi
  cases h with
  | grouped h => exact .grouped h
  | project h hnarrow =>
    cases input with
    | scan t => exact absurd rfl (hroot.scan t)
    | aggregate x gs cs => exact .grouped trivial
    | project x es' ns' => exact .grouped (grouped_of_project hn.layered)
    | arrowScan t cols =>
      exact .arrowScan (h.of_uses [] hnarrow hdemands (.project (.root _ _))
        (hn.read _ _ _ _ rfl) (by simp) fun i _ hi => Nat.zero_add i ▸ hi)
    | filter x c =>
      have hx : x.Economical := (everywhere_iff.1 (hinputs x (by simp [inputs]))).1
      cases x with
      | scan t => exact absurd rfl (hx.scan t)
      | aggregate x gs cs => exact .grouped trivial
      | project x es' ns' =>
        have hx : (project x es' ns').Grouped := grouped_of_project hroot.layered.1
        exact .grouped hx
      | filter x c' => exact absurd rfl hroot.layered.2
      | join left right on kind => exact absurd rfl (hroot.filter _ _ _ _ _)
      | arrowScan t cols =>
        refine .filter (h.of_uses [c] hnarrow hdemands
          (.project (.filter (.root _ _))) (hn.filtered _ _ _ _ _ rfl) (fun i _ hi => .inr ?_)
          fun i _ hi => .inl (Nat.zero_add i ▸ hi))
        simpa using hi
    | join left right on kind =>
      obtain ⟨hl,hr⟩ := hn.pruned _ _ _ _ _ _ rfl
      refine .join (h.of_uses [on] hnarrow hdemands (.project (.joinLeft (.root _ _)))
        hl (fun i hi hon => ⟨hi,.inr ?_⟩) fun i hi hes => ⟨hi,.inl (Nat.zero_add i ▸ hes)⟩)
        (h.of_uses [on] hnarrow hdemands (.project (.joinRight (.root _ _))) hr
          (fun i _ hon => .inr ?_) fun i _ hes => .inl hes)
      · simpa using hon
      · simpa using hon

/-- What is spared at the root is spared all the way down. -/
theorem Demands.spared {m n : Plan} {M : Set Nat} (h : Demands m M n N) (hdemands : Demands p D m M)
    (hm : m.Everywhere Economical) (hspared : Spared p D m M) : Spared p D n N := by
  induction h with
  | root => exact hspared
  | filter _ ih =>
    obtain ⟨hn,hi⟩ := everywhere_filter.1 hm
    exact ih (hdemands.trans (.filter (.root _ _))) hi
      (spared_of_filter hspared hn (everywhere_iff.1 hi).1)
  | project _ ih =>
    obtain ⟨hn,hi⟩ := everywhere_project.1 hm
    exact ih (hdemands.trans (.project (.root _ _))) hi (spared_of_project hspared hdemands hn hi)
  | joinLeft _ ih =>
    obtain ⟨hn,hl,hr⟩ := everywhere_join.1 hm
    exact ih (hdemands.trans (.joinLeft (.root _ _))) hl
      (spared_of_join hspared hn (everywhere_iff.1 hl).1 (everywhere_iff.1 hr).1).1
  | joinRight _ ih =>
    obtain ⟨hn,hl,hr⟩ := everywhere_join.1 hm
    exact ih (hdemands.trans (.joinRight (.root _ _))) hr
      (spared_of_join hspared hn (everywhere_iff.1 hl).1 (everywhere_iff.1 hr).1).2
  | aggregate _ ih =>
    obtain ⟨hn,hi⟩ := everywhere_aggregate.1 hm
    exact ih (hdemands.trans (.aggregate (.root _ _))) hi
      (spared_of_aggregate hdemands hn (everywhere_iff.1 hi).1)

/-- Where no operator hands up what is not asked for, no scan reads more than one dead column. -/
theorem thrifty_of_economical {t : Table} {cols : List Nat} (hp : p.Everywhere Economical)
    (h : Demands p {i | i < p.width} (arrowScan t cols) N) :
    Thrifty p {i | i < p.width} (arrowScan t cols) N := by
  have hroot : Thrifty p {i | i < p.width} p {i | i < p.width} := .of_needed fun i hi => hi
  have hspared := h.spared (.root _ _) hp (hroot.spared (everywhere_iff.1 hp).1.scan
    fun i hi => absurd hi.1 hi.2)
  cases hspared with
  | grouped h => exact h.elim
  | arrowScan h => exact h

end

end Plan
end QueryPlan
