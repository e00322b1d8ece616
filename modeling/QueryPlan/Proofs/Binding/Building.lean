import QueryPlan.Proofs.Binding.GroupedMeaning
import QueryPlan.Proofs.Relation.Demand

/-! # What bound plans are built of

Tables are scanned as a whole, and joins stand on tables and joins. An aggregate groups by its first
inputs and each of the others is the argument of a call, so nothing is gathered in vain. -/
namespace QueryPlan

namespace Sql

/-- All joins that are written out in a FROM clause are inner or cross joins. -/
def Select.JoinsInner (s : Select) : Prop :=
  ∀ t ∈ s.tables, ∀ j ∈ t.joins, j.form = .inner ∨ j.form = .cross

def Query.JoinsInner (q : Query) : Prop := ∀ s, q.select? = some s → s.JoinsInner

end Sql

/-- An operator as the binder builds it; whether all joins are inner is a matter of the query. -/
def Plan.Built (inner : Prop) : Plan → Prop
  | arrowScan _ _ => False
  | join left right _ kind => left.face.IsSource ∧ right.face.IsSource ∧ (inner → kind = .inner)
  | aggregate input groups calls =>
    input.Asks groups calls ∧ ∀ c ∈ calls, c.function = .avg → c.type.isNumeric
  | _ => True

theorem Plan.Built.mono {inner inner' : Prop} {p : Plan} (h : p.Built inner) (himp : inner' → inner) :
    p.Built inner' := by
  cases p with
  | join left right c k => exact ⟨h.1,h.2.1,h.2.2 ∘ himp⟩
  | _ => exact h

namespace Binding

variable {c : Catalog} {p : Plan}

/-! ## Inputs of aggregates -/

/-- Each input behind the keys is an argument of a call, and averages are taken of numbers. -/
structure Gathered.Asked (keys : List Expr) (g : Gathered) : Prop where
  inputs : ∀ i < g.inputs.length, i < keys.length ∨ ∃ call ∈ g.calls, i ∈ call.args
  averages : ∀ call ∈ g.calls, call.function = .avg → call.type.isNumeric

variable {n : Names} {keys : List Expr} {clause : Clause} {g g' : Gathered}

theorem inputOf_asked {e : Expr} {i : Nat} (h : gatheringEnds.To g (inputOf e) g' i) :
    g'.calls = g.calls ∧ ∀ j < g'.inputs.length, j < g.inputs.length ∨ j = i := by
  obtain ⟨-,rfl|⟨rfl,rfl⟩⟩ := inputOf_eq_ok h
  · exact ⟨rfl,fun _ => .inl⟩
  · refine ⟨rfl,fun j hj => ?_⟩
    rw [List.length_append,List.length_singleton] at hj
    omega

theorem callOf_asked {call : AggregateCall} {k keyCount : Nat}
    (h : gatheringEnds.To g (callOf keyCount call) g' k) : g'.inputs = g.inputs ∧
      ∀ d ∈ g'.calls, d ∈ g.calls ∨ d.function = call.function ∧ d.type = call.type := by
  obtain ⟨-,rfl|⟨-,name,rfl⟩⟩ := callOf_eq_ok h
  · exact ⟨rfl,fun _ => .inl⟩
  · refine ⟨rfl,fun d hd => (List.mem_append.1 hd).imp_right fun hd => ?_⟩
    rw [List.mem_singleton.1 hd]
    exact ⟨rfl,rfl⟩

theorem isNumeric_of_checkArgument {type : Option SqlType} (h : checkArgument .avg type = .ok ())
    (hsome : type ≠ none) : (AggregateFunction.avg.resultType type).isNumeric := by
  cases type with
  | none => exact absurd rfl hsome
  | some t =>
    rw [checkArgument] at h
    split at h
    · rename_i hnumeric
      exact hnumeric
    · cases h

/-- A call asks for the input that it puts behind the others. -/
theorem aggregateCall_asked {args : List Sql.FunctionArg} {tail : Sql.CallTail} {f : AggregateFunction}
    {keyCount : Nat} {b : Expr} (hg : g.Asked keys)
    (h : gatheringEnds.To g (aggregateCall n keyCount f args tail) g' b) : g'.Asked keys := by
  obtain ⟨arg,inputs,g₁,k,harg,hchecked,hsome,hnone,hk,-⟩ := aggregateCall_to h
  obtain ⟨hinputs,hnew⟩ := callOf_asked hk
  obtain ⟨⟨-,hcalls⟩,d,hd,-,-,hargs⟩ := callOf_to hk
  have hg₁ : g₁.calls = g.calls ∧ ∀ j < g₁.inputs.length, j < g.inputs.length ∨ j ∈ inputs := by
    cases arg with
    | none =>
      obtain ⟨rfl,-⟩ := hnone rfl
      exact ⟨rfl,fun _ => .inl⟩
    | some input =>
      obtain ⟨i,hi,rfl⟩ := hsome _ rfl
      simpa using inputOf_asked hi
  refine ⟨fun j hj => ?_,fun call hcall havg => ?_⟩
  · rw [hinputs] at hj
    obtain hj|hj := hg₁.2 j hj
    · refine (hg.inputs j hj).imp_right fun ⟨call,hmem,hj⟩ => ⟨call,hcalls.subset ?_,hj⟩
      rwa [hg₁.1]
    · exact .inr ⟨d,List.mem_of_getElem? hd,hargs ▸ hj⟩
  · obtain hcall|⟨hf,ht⟩ := hnew call hcall
    · exact hg.averages call (hg₁.1 ▸ hcall) havg
    · obtain rfl : f = .avg := hf.symm.trans havg
      rw [ht]
      refine isNumeric_of_checkArgument hchecked fun hnone => ?_
      rw [Option.map_eq_none_iff] at hnone
      subst hnone
      obtain ⟨_,_,-,-,he⟩|⟨-,hcount,-⟩ := aggregateArgument_ok harg
      · cases he
      · cases hcount

theorem groupedWhole_asked {e : Sql.Expr} {r : Option Expr} (hg : g.Asked keys)
    (h : gatheringEnds.To g (groupedWhole n keys clause e) g' r) : g'.Asked keys := by
  cases hagg : e.hasAggregate with
  | false =>
    obtain ⟨_,-,rfl,-⟩ := (to_groupedWhole hagg).1 h
    exact hg
  | true =>
    cases hf : e.aggregate? with
    | none =>
      simp only [groupedWhole,hf,hagg,if_true] at h
      obtain ⟨rfl,-⟩ := gatheringEnds.pure.1 h
      exact hg
    | some f =>
      cases e with
      | function name args filter tail =>
        simp only [groupedWhole,hf] at h
        obtain ⟨g₁,b,hcall,hpure⟩ := gatheringEnds.bind.1 h
        obtain ⟨rfl,-⟩ := gatheringEnds.pure.1 hpure
        exact aggregateCall_asked hg hcall
      | _ => cases hf

/-- What each of several computations keeps, all of them do. -/
theorem each_keeps {α β : Type} {f : α → Gathering β} {P : Gathered → Prop} {xs : List α} {ys : List β}
    (h : gatheringEnds.Each f g xs g' ys)
    (hkeep : ∀ x ∈ xs, ∀ {g g' y}, P g → gatheringEnds.To g (f x) g' y → P g') (hg : P g) : P g' := by
  induction h with
  | nil => exact hg
  | cons hy _ ih =>
    obtain ⟨hx,hxs⟩ := List.forall_mem_cons.1 hkeep
    exact ih hxs (hx hg hy)

theorem groupedExpr_asked {e : Sql.Expr} {b : Expr} (hg : g.Asked keys)
    (h : gatheringEnds.To g (groupedExpr n keys clause e) g' b) : g'.Asked keys := by
  induction e using Sql.Expr.byParts generalizing g g' b with
  | step e ih =>
  obtain ⟨g₁,r,hwhole,h⟩ := gatheringEnds.exprWith.1 h
  have hg₁ := groupedWhole_asked hg hwhole
  cases r with
  | some a =>
    obtain ⟨rfl,-⟩ := h
    exact hg₁
  | none =>
    obtain ⟨bs,hbs,-⟩ := h
    exact each_keeps hbs (fun s hs _ _ _ hg h => ih s hs hg h) hg₁

theorem each_of_mapM {α β : Type} {f : α → Gathering β} {xs : List α} {ys : List β}
    (h : gatheringEnds.To g (xs.mapM f) g' ys) : gatheringEnds.Each f g xs g' ys := by
  induction xs generalizing g ys with
  | nil =>
    rw [List.mapM_nil] at h
    obtain ⟨rfl,rfl⟩ := gatheringEnds.pure.1 h
    exact .nil
  | cons x xs ih =>
    rw [List.mapM_cons] at h
    obtain ⟨g₁,y,hy,hrest⟩ := gatheringEnds.bind.1 h
    obtain ⟨g₂,ys,hys,hpure⟩ := gatheringEnds.bind.1 hrest
    obtain ⟨rfl,rfl⟩ := gatheringEnds.pure.1 hpure
    exact .cons hy (ih hys)

/-- Whatever a grouped query gathers is asked for. -/
theorem gather_asked {ts : List Target} {having : Option Sql.Expr} {es : List Expr}
    {condition : Option Expr} (h : gather n keys ts having = .ok ((es,condition),g)) :
    g.Asked keys := by
  obtain ⟨g₁,hes,hcondition⟩ := gather_to h
  have hg₁ : g₁.Asked keys := by
    refine each_keeps (each_of_mapM hes) (fun t _ _ _ _ hg h => ?_) ⟨fun i hi => .inl hi,by simp⟩
    cases t with
    | expr e label => exact groupedExpr_asked hg h
    | column i c =>
      obtain ⟨rfl,-⟩ := gatheringEnds.lift.1 h
      exact hg
  obtain ⟨-,-,rfl⟩|⟨e,b,-,-,hb⟩ := hcondition
  · exact hg₁
  · exact groupedExpr_asked hg₁ hb

/-! ## Plans -/

variable {inner : Prop} {bound bound' : Plan × Scope} {input : Plan}

/-- Tables and their joins, as the binder builds them. -/
def Sourced (inner : Prop) (p : Plan) : Prop := p.Everywhere (Plan.Built inner) ∧ p.face.IsSource

theorem Sourced.join {left right : Plan} {on : Expr} {kind : JoinKind} (hl : Sourced inner left)
    (hr : Sourced inner right) (hkind : inner → kind = .inner) :
    Sourced inner (.join left right on kind) :=
  ⟨Plan.everywhere_join.2 ⟨⟨hl.2,hr.2,hkind⟩,hl.1,hr.1⟩,.join _ _ _ _⟩

theorem table_sourced {t : Sql.TableFactor} (h : table c t = .ok bound) : Sourced inner bound.1 := by
  obtain ⟨t,-,_,rfl⟩ := table_eq_ok h
  exact ⟨Plan.everywhere_scan.2 trivial,.scan⟩

theorem join_sourced {j : Sql.Join} (hj : inner → j.form = .inner ∨ j.form = .cross)
    (hb : Sourced inner bound.1) (h : join c bound j = .ok bound') : Sourced inner bound'.1 := by
  obtain ⟨right,s,on,kind,constrained,hr,-,hkind,-,rfl⟩ := join_eq_ok h
  refine hb.join (table_sourced hr) fun hinner => ?_
  rcases hj hinner with hform|hform
  · rw [hform] at hkind
    cases hkind
    rfl
  · rw [hform] at hkind
    cases hkind
    rfl

theorem tableWithJoins_sourced {t : Sql.TableWithJoins}
    (ht : inner → ∀ j ∈ t.joins, j.form = .inner ∨ j.form = .cross)
    (h : tableWithJoins c t = .ok bound) : Sourced inner bound.1 := by
  obtain ⟨first,hfirst,h⟩ := bind_eq_ok_iff.1 h
  exact foldlM_induction_mem (P := fun b => Sourced inner b.1)
    (fun _ j hj _ => join_sourced fun hinner => ht hinner j hj) (table_sourced hfirst) h

theorem fromClause_sourced {s : Sql.Select} (h : fromClause c s.tables = .ok bound) :
    Sourced s.JoinsInner bound.1 := by
  unfold fromClause at h
  split at h
  · cases h
  · rename_i first rest htables
    have hinner (hs : s.JoinsInner) (t : Sql.TableWithJoins) (ht : t ∈ first :: rest) :
        ∀ j ∈ t.joins, j.form = .inner ∨ j.form = .cross := hs t (htables ▸ ht)
    obtain ⟨left,hleft,h⟩ := bind_eq_ok_iff.1 h
    refine foldlM_induction_mem (P := fun b => Sourced s.JoinsInner b.1)
      (fun b t ht b' hb hstep => ?_)
      (tableWithJoins_sourced (fun hs => hinner hs first List.mem_cons_self) hleft) h
    obtain ⟨right,hr,hstep⟩ := bind_eq_ok_iff.1 hstep
    obtain ⟨scope,-,hstep⟩ := bind_eq_ok_iff.1 hstep
    cases hstep
    exact hb.join (tableWithJoins_sourced (fun hs => hinner hs t (List.mem_cons_of_mem _ ht)) hr)
      fun _ => rfl

theorem filtered_built {selection : Option Sql.Expr} (hi : input.Everywhere (Plan.Built inner))
    (h : filtered n input selection = .ok p) : p.Everywhere (Plan.Built inner) := by
  obtain rfl|⟨_,e,-,-,-,rfl⟩ := filtered_eq_ok h
  · exact hi
  · exact Plan.everywhere_filter.2 ⟨trivial,hi⟩

/-- Calls with other names ask for the same columns and compute the same. -/
theorem forall₂_nameCalls (keyCount : Nat) (ts : List Target) (es : List Expr) (names : List String)
    (calls : List AggregateCall) :
    (nameCalls keyCount ts es names calls).Forall₂
      (fun d call => d.function = call.function ∧ d.args = call.args ∧ d.type = call.type) calls := by
  have h := nameCalls_spec keyCount ts es names calls
  rw [← List.forall₂_eq_eq_eq,List.forall₂_map_left_iff,List.forall₂_map_right_iff] at h
  refine h.imp fun d call hd => ?_
  cases d
  cases call
  cases hd
  exact ⟨rfl,rfl,rfl⟩

theorem aggregation_built {groupBy : List Sql.Expr} {ts : List Target} {names : List String}
    {having : Option Sql.Expr} {es : List Expr} (hi : input.Everywhere (Plan.Built inner))
    (h : aggregation n input groupBy ts names having = .ok (p,es)) :
    p.Everywhere (Plan.Built inner) := by
  obtain ⟨keys,-,h⟩ := bind_eq_ok_iff.1 h
  obtain ⟨⟨⟨es',condition⟩,g⟩,hg,h⟩ := bind_eq_ok_iff.1 h
  have hasked : g.Asked keys := gather_asked hg
  have hnamed := forall₂_nameCalls keys.length ts es' names g.calls
  have hgroups : (Plan.aggregate
      (input.projectDerived (if g.inputs.isEmpty then [.literal (.integer 0)] else g.inputs))
      (List.range keys.length) (nameCalls keys.length ts es' names g.calls)).Everywhere
        (Plan.Built inner) := by
    refine Plan.everywhere_aggregate.2 ⟨⟨?_,fun d hd havg => ?_⟩,Plan.everywhere_project.2 ⟨trivial,hi⟩⟩
    · split
      · exact .inl ⟨_,_,_,rfl⟩
      · refine .inr fun i hlt => (hasked.inputs i hlt).imp List.mem_range.2 ?_
        rintro ⟨call,hcall,hmem⟩
        obtain ⟨d,hd,-,hargs,-⟩ := exists_of_forall₂ hnamed.flip hcall
        exact ⟨d,hd,hargs ▸ hmem⟩
    · obtain ⟨call,hcall,hf,-,ht⟩ := exists_of_forall₂ hnamed hd
      rw [ht]
      exact hasked.averages call hcall (hf.symm.trans havg)
  cases condition with
  | none =>
    cases h
    exact hgroups
  | some e =>
    cases h
    exact Plan.everywhere_filter.2 ⟨trivial,hgroups⟩

theorem distinct_built {d : Option Sql.Distinct} {q : Plan} (hp : p.Everywhere (Plan.Built inner))
    (h : distinct p d = .ok q) : q.Everywhere (Plan.Built inner) := by
  obtain rfl|rfl := distinct_eq_ok h
  · exact hp
  · exact Plan.everywhere_aggregate.2 ⟨⟨.inr fun i hi => .inl (List.mem_range.2 hi),by simp⟩,hp⟩

theorem select_built {s : Sql.Select} (h : select c s = .ok p) :
    p.Everywhere (Plan.Built s.JoinsInner) := by
  obtain ⟨tables,scope,input,ts,plan,es,htables,hinput,-,hplan,hp⟩ := select_eq_ok h
  have hi : input.Everywhere (Plan.Built s.JoinsInner) :=
    filtered_built (fromClause_sourced htables).1 hinput
  refine distinct_built (Plan.everywhere_project.2 ⟨trivial,?_⟩) hp
  obtain ⟨rfl,-⟩|⟨_,hagg⟩ := hplan
  · exact hi
  · exact aggregation_built hi hagg

theorem query_built {q : Sql.Query} (h : query c q = .ok p) :
    p.Everywhere (Plan.Built q.JoinsInner) := by
  obtain ⟨s,hs,hselect⟩ := select_of_query h
  have hjoins : q.JoinsInner → s.JoinsInner := fun hq => hq s hs
  exact fun m hm => (select_built hselect m hm).mono hjoins

end Binding
end QueryPlan
