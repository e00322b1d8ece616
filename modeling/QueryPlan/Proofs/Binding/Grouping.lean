import QueryPlan.Proofs.Binding.From

/-! # Grouped queries are bound well

While a grouped query is bound, the inputs and the calls of its aggregate only grow at their ends,
so a column given out once stays the column it was. -/
namespace QueryPlan

/-- A call that fits a row fits every longer one. -/
theorem AggregateCall.Fits.mono {c : AggregateCall} {types types' : List SqlType}
    (h : c.Fits types) (ht : types <+: types') : c.Fits types' := by
  obtain ⟨rest,rfl⟩ := ht
  obtain ⟨ha,htype⟩ := h
  refine ⟨fun a hmem => ?_,?_⟩
  · rw [List.length_append]
    exact Nat.lt_add_right _ (ha a hmem)
  · rw [htype]
    cases hargs : c.args with
    | nil => rfl
    | cons a as =>
      have hlt := ha a (by simp [hargs])
      simp [List.getElem?_append_left hlt]

namespace Binding

instance : Preorder Gathered where
  le g g' := g.inputs <+: g'.inputs ∧ g.calls <+: g'.calls
  le_refl g := ⟨List.prefix_refl _,List.prefix_refl _⟩
  le_trans _ _ _ h h' := ⟨h.1.trans h'.1,h.2.trans h'.2⟩

/-- The keys come first among the inputs, inputs are bound over the FROM row, and calls fit them. -/
structure Gathered.Fits (types : List SqlType) (keys : List Expr) (g : Gathered) : Prop where
  keys : keys <+: g.inputs
  inputs : ∀ e ∈ g.inputs, e.Bound types
  calls : ∀ c ∈ g.calls, c.Fits (g.inputs.map Expr.type)

/-- The row of the aggregate as far as it has been gathered. -/
def Gathered.types (keys : List Expr) (g : Gathered) : List SqlType :=
  keys.map Expr.type ++ g.calls.map AggregateCall.type

variable {types : List SqlType} {keys : List Expr} {g g' : Gathered}

theorem Gathered.types_mono (h : g ≤ g') : g.types keys <+: g'.types keys := by
  obtain ⟨rest,hrest⟩ := h.2
  exact ⟨rest.map AggregateCall.type,by simp [types,← hrest]⟩

/-- What holds once a computation that gathers has ended, whatever was there before in good order. -/
def gatheringOutcomes (types : List SqlType) (keys : List Expr) : Outcomes Gathering Gathered where
  Yields w x P := ∀ g a g', w ≤ g → g.Fits types keys → x.run g = .ok (a,g') →
    g ≤ g' ∧ g'.Fits types keys ∧ P g' a
  pure h g a g' hw hg hrun := by
    cases hrun
    exact ⟨le_rfl,hg,h g hw⟩
  lift h g a g' hw hg hrun := by
    obtain ⟨b,hb,hrun⟩ := bind_eq_ok_iff.1 hrun
    cases hrun
    exact ⟨le_rfl,hg,h _ hb g hw⟩
  bind hx hf g b g' hw hg hrun := by
    obtain ⟨⟨a,g₁⟩,ha,hrun⟩ := bind_eq_ok_iff.1 hrun
    obtain ⟨hle,hg₁,hP⟩ := hx g a g₁ hw hg ha
    obtain ⟨hle',hg',hQ⟩ := hf g₁ a (le_trans hw hle) hP g₁ b g' le_rfl hg₁ hrun
    exact ⟨le_trans hle hle',hg',hQ⟩

theorem run_inputOf (e : Expr) (g : Gathered) : (inputOf e).run g =
    match g.inputs.idxOf? e with
    | some i => .ok (i,g)
    | none => .ok (g.inputs.length,{ g with inputs := g.inputs ++ [e] }) := by
  unfold inputOf
  cases hi : g.inputs.idxOf? e <;> simp [hi] <;> rfl

/-- An input is where it was gathered before, or it is put behind all others. -/
theorem inputOf_eq_ok {e : Expr} {i : Nat} (h : (inputOf e).run g = .ok (i,g')) :
    g'.inputs[i]? = some e ∧
      (g' = g ∨ i = g.inputs.length ∧ g' = { g with inputs := g.inputs ++ [e] }) := by
  rw [run_inputOf] at h
  split at h
  · rename_i k hk
    cases h
    obtain ⟨hlt,heq,-⟩ := List.findIdx?_eq_some_iff_getElem.1 hk
    exact ⟨by rw [List.getElem?_eq_getElem hlt,eq_of_beq heq],.inl rfl⟩
  · cases h
    exact ⟨List.getElem?_concat_length,.inr ⟨rfl,rfl⟩⟩

theorem inputOf_fits {e : Expr} {i : Nat} (he : e.Bound types) (hg : g.Fits types keys)
    (h : (inputOf e).run g = .ok (i,g')) :
    g ≤ g' ∧ g'.Fits types keys ∧ g'.inputs[i]? = some e := by
  obtain ⟨hi,rfl|⟨-,rfl⟩⟩ := inputOf_eq_ok h
  · exact ⟨le_rfl,hg,hi⟩
  · have hle : g ≤ { g with inputs := g.inputs ++ [e] } := ⟨List.prefix_append _ _,List.prefix_refl _⟩
    refine ⟨hle,⟨hg.keys.trans hle.1,?_,fun c hc => (hg.calls c hc).mono ?_⟩,hi⟩
    · exact List.forall_mem_append.2 ⟨hg.inputs,by simpa using he⟩
    · simp

theorem run_callOf (keyCount : Nat) (c : AggregateCall) (g : Gathered) : (callOf keyCount c).run g =
    match g.calls.findIdx? (·.sameComputation c) with
    | some i => .ok (i,g)
    | none => .ok (g.calls.length,{ g with
        calls := g.calls ++ [{ c with name := "$f" ++ toString (keyCount+g.calls.length) }] }) := by
  unfold callOf
  cases hi : g.calls.findIdx? (·.sameComputation c) <;> simp [hi] <;> rfl

/-- A call is where the same one was gathered before, or it is put behind all others. -/
theorem callOf_eq_ok {c : AggregateCall} {i keyCount : Nat}
    (h : (callOf keyCount c).run g = .ok (i,g')) :
    (∃ d, g'.calls[i]? = some d ∧ d.function = c.function ∧ d.distinct = c.distinct ∧ d.args = c.args) ∧
      (g' = g ∨ i = g.calls.length ∧ ∃ name, g' = { g with calls := g.calls ++ [{ c with name }] }) := by
  rw [run_callOf] at h
  split at h
  · rename_i k hk
    cases h
    obtain ⟨hlt,hsame,-⟩ := List.findIdx?_eq_some_iff_getElem.1 hk
    simp only [AggregateCall.sameComputation,Bool.and_eq_true,beq_iff_eq] at hsame
    exact ⟨⟨_,List.getElem?_eq_getElem hlt,hsame.1.1,hsame.1.2,hsame.2⟩,.inl rfl⟩
  · cases h
    exact ⟨⟨_,List.getElem?_concat_length,rfl,rfl,rfl⟩,.inr ⟨rfl,_,rfl⟩⟩

theorem callOf_fits {c : AggregateCall} {i keyCount : Nat} (hg : g.Fits types keys)
    (hc : c.Fits (g.inputs.map Expr.type)) (h : (callOf keyCount c).run g = .ok (i,g')) :
    g ≤ g' ∧ g'.Fits types keys ∧ (g'.calls.map AggregateCall.type)[i]? = some c.type := by
  obtain ⟨⟨d,hd,hfunction,-,hargs⟩,rfl|⟨rfl,name,rfl⟩⟩ := callOf_eq_ok h
  · have htype := (hg.calls d (List.mem_of_getElem? hd)).2
    rw [hfunction,hargs,← hc.2] at htype
    refine ⟨le_rfl,hg,?_⟩
    rw [List.getElem?_map,hd,← htype]
    rfl
  · refine ⟨⟨List.prefix_refl _,List.prefix_append _ _⟩,⟨hg.keys,hg.inputs,?_⟩,?_⟩
    · refine List.forall_mem_append.2 ⟨hg.calls,fun d hd => ?_⟩
      rw [List.mem_singleton.1 hd]
      exact hc
    · simp

variable {n : Names} {clause : Clause} {e : Expr}

theorem aggregateArgument_bound {f : AggregateFunction} {distinct : Bool}
    {args : List Sql.FunctionArg} (hnames : n.scope.types = types)
    (h : aggregateArgument n f distinct args = .ok (some e)) : e.Bound types := by
  unfold aggregateArgument at h
  split at h
  · obtain ⟨b,hb,h⟩ := bind_eq_ok_iff.1 h
    cases h
    exact hnames ▸ expr_bound (fun _ _ _ => names_bound) hb
  · split at h
    · split at h <;> cases h
    · split at h <;> cases h
    · cases h

theorem inputOf_yields (he : e.Bound types) (w : Gathered) :
    (gatheringOutcomes types keys).Yields w (inputOf e) fun w' i => w'.inputs[i]? = some e :=
  fun _ _ _ _ hg h => inputOf_fits he hg h

/-- A new column of the aggregate has the type of the call that stands there. -/
theorem callOf_yields {c : AggregateCall} {w : Gathered} (hc : c.Fits (w.inputs.map Expr.type)) :
    (gatheringOutcomes types keys).Yields w
      (do
        let i ← callOf keys.length c
        return Expr.column (keys.length+i) c.type)
      fun w' e => e.Bound (w'.types keys) := by
  refine (gatheringOutcomes types keys).bind
    (P := fun w' i => (w'.calls.map AggregateCall.type)[i]? = some c.type)
    (fun g i g' hw hg h => callOf_fits hg (hc.mono (hw.1.map _)) h) fun w₁ i _ hi => ?_
  refine (gatheringOutcomes types keys).pure fun w' hw' => Expr.Bound.mono (.column ?_)
    (Gathered.types_mono hw')
  rw [Gathered.types,List.getElem?_append_right (by simp),List.length_map,Nat.add_sub_cancel_left]
  exact hi

/-- The column of a call has its type. -/
theorem aggregateCall_yields {f : AggregateFunction} {args : List Sql.FunctionArg}
    {tail : Sql.CallTail} (hnames : n.scope.types = types) (w : Gathered) :
    (gatheringOutcomes types keys).Yields w (aggregateCall n keys.length f args tail)
      fun w' e => e.Bound (w'.types keys) := by
  unfold aggregateCall
  split
  · exact (gatheringOutcomes types keys).bind (P := fun _ _ => False)
      (fun g _ g' _ _ h => nomatch h) fun _ _ _ h => h.elim
  · refine (gatheringOutcomes types keys).bind (P := fun _ arg => ∀ e, arg = some e → e.Bound types)
      ((gatheringOutcomes types keys).lift fun arg harg _ _ e he => ?_) fun w₁ arg _ harg => ?_
    · rw [he] at harg
      exact aggregateArgument_bound hnames harg
    refine (gatheringOutcomes types keys).bind (P := fun _ _ => True)
      ((gatheringOutcomes types keys).lift fun _ _ _ _ => trivial) fun w₂ _ _ _ => ?_
    cases arg with
    | none => exact callOf_yields ⟨by simp,rfl⟩
    | some e =>
      refine (gatheringOutcomes types keys).bind (inputOf_yields (harg e rfl) w₂)
        fun w₃ i _ hi => callOf_yields ⟨?_,?_⟩
      · simpa using (List.getElem?_eq_some_iff.1 hi).1
      · simp [hi]

/-- A key is a column of the aggregate's row. -/
theorem key_bound {w : Gathered} {i : Nat} (h : keys.idxOf? e = some i) :
    (Expr.column i e.type).Bound (w.types keys) := by
  obtain ⟨hlt,heq,-⟩ := List.findIdx?_eq_some_iff_getElem.1 h
  refine .column ?_
  rw [Gathered.types,List.getElem?_append_left (by simpa using hlt),List.getElem?_map,
    List.getElem?_eq_getElem hlt,eq_of_beq heq]
  rfl

theorem hasAggregate_of_isColumnName {sql : Sql.Expr} (h : isColumnName sql) :
    sql.hasAggregate = false := by
  cases sql with
  | identifier name => rfl
  | compound parts => rfl
  | _ => cases h

theorem groupedWhole_bound (hnames : n.scope.types = types) :
    WholeBound (gatheringOutcomes types keys) (Gathered.types keys) n (groupedWhole n keys clause) := by
  intro w sql
  unfold groupedWhole
  split
  · refine (gatheringOutcomes types keys).bind (aggregateCall_yields hnames w) fun w₁ e _ he => ?_
    exact (gatheringOutcomes types keys).pure fun w' hw' => he.mono (Gathered.types_mono hw')
  · split
    · rename_i hagg
      refine (gatheringOutcomes types keys).pure fun _ _ hname => ?_
      exact absurd hagg (by rw [hasAggregate_of_isColumnName hname]; simp)
    · refine (gatheringOutcomes types keys).bind (P := fun _ plain => plain.Bound types)
        ((gatheringOutcomes types keys).lift fun plain hplain _ _ => ?_) fun w₁ plain _ hplain => ?_
      · exact hnames ▸ expr_bound (fun _ _ _ => names_bound) hplain
      split
      · rename_i i hi
        exact (gatheringOutcomes types keys).pure fun _ _ => key_bound hi
      · split
        · rename_i hempty
          refine (gatheringOutcomes types keys).pure fun _ _ => hplain.congr fun i hi => ?_
          have hcolumns := Expr.mem_columns.2 hi
          rw [List.isEmpty_iff.1 hempty] at hcolumns
          cases hcolumns
        · split
          · intro g e g' _ _ h
            cases h
          · rename_i hname
            exact (gatheringOutcomes types keys).pure fun _ _ h => absurd h hname

theorem groupedExpr_yields {sql : Sql.Expr} (hnames : n.scope.types = types) (w : Gathered) :
    (gatheringOutcomes types keys).Yields w (groupedExpr n keys clause sql)
      fun w' e => e.Bound (w'.types keys) :=
  exprWith_yields (fun _ _ => Gathered.types_mono) (groupedWhole_bound hnames) w sql

theorem groupedCondition_yields {sql : Sql.Expr} (hnames : n.scope.types = types) (w : Gathered) :
    (gatheringOutcomes types keys).Yields w (groupedCondition n keys sql)
      fun w' e => e.Bound (w'.types keys) ∧ e.type.isBooleanLike := by
  refine (gatheringOutcomes types keys).bind (groupedExpr_yields hnames w) fun w₁ e _ he => ?_
  refine (gatheringOutcomes types keys).bind (P := fun _ _ => e.type.isBooleanLike)
    ((gatheringOutcomes types keys).lift fun _ h _ _ => checkCondition_ok h) fun w₂ _ hw₂ hb => ?_
  exact (gatheringOutcomes types keys).pure fun w' hw' =>
    ⟨he.mono (Gathered.types_mono (le_trans hw₂ hw')),hb⟩

theorem groupedColumn_bound {c : ScopeColumn} {i : Nat} {w : Gathered}
    (h : groupedColumn keys i c = .ok e) : e.Bound (w.types keys) := by
  unfold groupedColumn at h
  split at h
  · rename_i k hk
    cases h
    exact key_bound hk
  · cases h

/-- What holds of all that is bound in a GROUP BY clause holds of the keys. -/
theorem groupKeys_induction {P : Expr → Prop} {ks : List Sql.Expr}
    (hP : ∀ sql key, expr n .groupBy sql = .ok key → P key) (h : groupKeys n ks = .ok keys) :
    ∀ e ∈ keys, P e := by
  refine foldlM_induction (P := fun placed => ∀ e ∈ placed, P e)
    (fun placed sql placed' hplaced hstep => ?_) (by simp) h
  obtain ⟨key,hkey,hstep⟩ := bind_eq_ok_iff.1 hstep
  cases hstep
  split
  · exact hplaced
  · refine List.forall_mem_append.2 ⟨hplaced,fun e he => ?_⟩
    rw [List.mem_singleton.1 he]
    exact hP sql key hkey

theorem groupKeys_bound {ks : List Sql.Expr} (hnames : n.scope.types = types)
    (h : groupKeys n ks = .ok keys) : ∀ e ∈ keys, e.Bound types :=
  groupKeys_induction (fun _ _ hkey => hnames ▸ expr_bound (fun _ _ _ => names_bound) hkey) h

end Binding
end QueryPlan
