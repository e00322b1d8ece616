import QueryPlan.Proofs.Relation.WellFormed

/-! # Conditions taken apart and put together -/
namespace QueryPlan.Expr

variable {P : Expr → Prop} {types : List SqlType}

/-- A literal other than TRUE is its only conjunct. -/
theorem conjuncts_literal {v : Literal} (h : literal v ≠ true) :
    (literal v).conjuncts = [literal v] := by
  unfold conjuncts
  split
  · rename_i heq
    cases heq
  · rename_i heq
    exact absurd heq h
  · rfl

/-- A call of another operator than the conjunction is its only conjunct. -/
theorem conjuncts_call_of_ne {op : Operator} (h : op ≠ .and) (args : List Expr) (t : SqlType) :
    (call op args t).conjuncts = [call op args t] := by
  cases op <;> first | rfl | exact absurd rfl h

theorem conjuncts_and (args : List Expr) (t : SqlType) :
    (call .and args t).conjuncts = args.flatMap conjuncts := by
  rw [conjuncts,conjunctsOf_eq_flatMap]

/-- What conjunctions hand down to their operands holds of all conjuncts. -/
theorem forall_conjuncts {e : Expr} (hand : ∀ args t, P (call .and args t) → ∀ e ∈ args, P e)
    (h : P e) : ∀ c ∈ e.conjuncts, P c := by
  induction e using induct with
  | column i t => simpa [Expr.conjuncts] using h
  | literal v =>
    by_cases htrue : literal v = true
    · rw [htrue]
      exact nofun
    · simpa [conjuncts_literal htrue] using h
  | call op args t ih =>
    by_cases hop : op = .and
    · subst hop
      rw [conjuncts_and]
      intro c hc
      obtain ⟨e,he,hc⟩ := List.mem_flatMap.1 hc
      exact ih e he (hand args t h e he) c hc
    · simpa [conjuncts_call_of_ne hop] using h

/-- What holds everywhere in a condition holds everywhere in its conjuncts. -/
theorem Everywhere.conjuncts {e : Expr} (h : e.Everywhere P) :
    ∀ c ∈ e.conjuncts, c.Everywhere P :=
  forall_conjuncts (fun _ _ h => (everywhere_call.1 h).2) h

theorem Everywhere.flatOperands {op : Operator} {es : List Expr}
    (h : ∀ e ∈ es, e.Everywhere P) : ∀ e ∈ flatOperands op es, e.Everywhere P := by
  intro c hc
  obtain ⟨e,he,hc⟩ := List.mem_flatMap.1 hc
  have hP := h e he
  cases e with
  | call inner nested t =>
    dsimp only at hc
    split at hc
    · exact (everywhere_call.1 hP).2 c hc
    · rwa [List.mem_singleton.1 hc]
  | _ => rwa [List.mem_singleton.1 hc]

theorem fits_all {es : List Expr} (h : ∀ e ∈ es, e.Fits types) : (all es).Fits types := by
  match es with
  | [] => exact fits_true
  | [e] => exact h e (by simp)
  | e :: e' :: es => exact fits_call.2 (Everywhere.flatOperands h)

/-- An expression whose columns fit one row fits another one that has the same types there. -/
theorem Fits.congr {types' : List SqlType} {e : Expr} (h : e.Fits types)
    (ht : ∀ i ∈ e.occurrences, types'[i]? = types[i]?) : e.Fits types' := by
  have hr := h.renumber (f := id) ht
  rwa [renumber_id] at hr

/-- What a call of `op` draws from its operands can be drawn from those of nested calls at once. -/
theorem flatMap_flatOperands {β : Type} {g : Expr → List β} {op : Operator}
    (h : ∀ args t, g (call op args t) = args.flatMap g) (es : List Expr) :
    (flatOperands op es).flatMap g = es.flatMap g := by
  rw [flatOperands,List.flatMap_assoc]
  refine List.flatMap_congr fun e _ => ?_
  cases e with
  | call inner nested t =>
    dsimp only
    split
    · rename_i hinner
      rw [hinner,h]
    · exact List.flatMap_singleton _ _
  | _ => exact List.flatMap_singleton _ _

theorem occurrences_of_mem_conjuncts {e c : Expr} (h : c ∈ e.conjuncts) :
    ∀ i ∈ c.occurrences, i ∈ e.occurrences := by
  have hall : ∀ c ∈ e.conjuncts, ∀ i ∈ c.occurrences, i ∈ e.occurrences := by
    refine forall_conjuncts (fun args t hcall c hc i hi => hcall i ?_) fun _ => id
    rw [occurrences_call]
    exact List.mem_flatMap.2 ⟨c,hc,hi⟩
  exact hall c h

/-- Put together, expressions have the conjuncts that they had. -/
theorem conjuncts_all (es : List Expr) : (all es).conjuncts = es.flatMap Expr.conjuncts := by
  match es with
  | [] => rfl
  | [e] => simp [all]
  | e :: e' :: es =>
    change (call .and (Expr.flatOperands .and (e :: e' :: es)) .boolean).conjuncts = _
    rw [conjuncts_and,flatMap_flatOperands conjuncts_and]

/-- A conjunct is not taken apart any further. -/
theorem conjuncts_of_mem {e c : Expr} (h : c ∈ e.conjuncts) : c.conjuncts = [c] := by
  induction e using induct with
  | column i t =>
    rw [List.mem_singleton.1 h]
    rfl
  | literal v =>
    by_cases htrue : literal v = true
    · rw [htrue] at h
      cases h
    · rw [conjuncts_literal htrue] at h
      rw [List.mem_singleton.1 h,conjuncts_literal htrue]
  | call op args t ih =>
    by_cases hop : op = .and
    · subst hop
      rw [conjuncts_and] at h
      obtain ⟨e,he,h⟩ := List.mem_flatMap.1 h
      exact ih e he h
    · rw [conjuncts_call_of_ne hop] at h
      rw [List.mem_singleton.1 h,conjuncts_call_of_ne hop]

/-- Conjuncts that are put together are the conjuncts of what they are put together to. -/
theorem conjuncts_all_of_conjuncts {es : List Expr} (h : ∀ e ∈ es, e.conjuncts = [e]) :
    (all es).conjuncts = es := by
  rw [conjuncts_all,List.flatMap_congr h,List.flatMap_singleton']

theorem conjuncts_renumber (f : Nat → Nat) (e : Expr) :
    (e.renumber f).conjuncts = e.conjuncts.map (renumber f) := by
  induction e using induct with
  | column i t => rfl
  | literal v =>
    cases v with
    | boolean b => cases b <;> rfl
    | _ => rfl
  | call op args t ih =>
    rw [renumber_call]
    by_cases hop : op = .and
    · subst hop
      rw [conjuncts_and,conjuncts_and,List.flatMap_map,List.map_flatMap]
      exact List.flatMap_congr ih
    · rw [conjuncts_call_of_ne hop,conjuncts_call_of_ne hop,List.map_singleton,renumber_call]

end QueryPlan.Expr
