import QueryPlan.Binding.Grouping
import QueryPlan.Proofs.Expr.Calls
import Mathlib

/-! # Expressions are bound well

The same binding runs in two monads, so it is followed once, for all that can be said of what a
computation yields. Worlds stand for what has been gathered so far. -/
namespace QueryPlan.Binding

/-- How to speak of what computations yield: a computation started in a world yields values that
have a property in a later one. -/
structure Outcomes (m : Type → Type) [Monad m] [MonadLiftT (Except QueryError) m]
    (W : Type) [Preorder W] where
  Yields {α : Type} : W → m α → (W → α → Prop) → Prop
  pure {α : Type} {w : W} {a : α} {P : W → α → Prop} :
    (∀ w', w ≤ w' → P w' a) → Yields w (pure a) P
  lift {α : Type} {w : W} {x : Except QueryError α} {P : W → α → Prop} :
    (∀ a, x = .ok a → ∀ w', w ≤ w' → P w' a) → Yields w (monadLift x) P
  bind {α β : Type} {w : W} {x : m α} {f : α → m β} {P : W → α → Prop} {Q : W → β → Prop} :
    Yields w x P → (∀ w' a, w ≤ w' → P w' a → Yields w' (f a) Q) → Yields w (x >>= f) Q

/-! ## Parts of expressions -/

variable {types : List SqlType} {e e' : Expr}

theorem value_bound {v : Sql.Value} (h : value v = .ok e) : e.Bound types := by
  unfold value at h
  split at h
  · obtain ⟨w,-,h⟩ := bind_eq_ok_iff.1 h
    cases h
    exact .literal w
  · cases h
    exact .literal _
  · cases h
    exact .literal _
  · cases h
    exact .literal _
  · cases h

theorem typedString_bound {t : Sql.DataType} {s : String} (h : typedString t s = .ok e) :
    e.Bound types := by
  unfold typedString at h
  split at h
  · split at h
    · cases h
      exact .literal _
    · cases h
  · cases h

theorem negated_bound (he : e.Bound types) (h : negated e = .ok e') : e'.Bound types := by
  unfold negated at h
  split at h
  · split at h
    · cases h
      exact .literal _
    · exact .ofCall (by simpa using he) h
  · exact .ofCall (by simpa using he) h

theorem unary_bound {op : Sql.UnaryOp} (he : e.Bound types) (h : unary op e = .ok e') :
    e'.Bound types := by
  unfold unary at h
  split at h
  · cases h
    exact he
  · exact negated_bound he h
  · exact .ofCall (by simpa using he) h
  · cases h

theorem between_bound {outside : Bool} {v low high : Expr} (hv : v.Bound types)
    (hlow : low.Bound types) (hhigh : high.Bound types) (h : between outside v low high = .ok e) :
    e.Bound types := by
  unfold between at h
  split at h
  · obtain ⟨below,hb,h⟩ := bind_eq_ok_iff.1 h
    obtain ⟨above,ha,h⟩ := bind_eq_ok_iff.1 h
    have hb : below.Bound types := .ofCall (by simp [hv,hlow]) hb
    have ha : above.Bound types := .ofCall (by simp [hv,hhigh]) ha
    exact .ofCall (by simp [hb,ha]) h
  · obtain ⟨above,ha,h⟩ := bind_eq_ok_iff.1 h
    obtain ⟨below,hb,h⟩ := bind_eq_ok_iff.1 h
    have ha : above.Bound types := .ofCall (by simp [hv,hlow]) ha
    have hb : below.Bound types := .ofCall (by simp [hv,hhigh]) hb
    exact .ofCall (by simp [hb,ha]) h

theorem inList_bound {absent : Bool} {terms : List Expr} (hterms : ∀ t ∈ terms, t.Bound types)
    (h : inList absent terms = .ok e) : e.Bound types := by
  unfold inList at h
  split at h
  · cases h
  · cases h
    exact hterms _ (by simp)
  · exact .ofCall hterms h

theorem like_bound {absent : Bool} {v pattern : Expr} (hv : v.Bound types)
    (hpattern : pattern.Bound types) (h : like absent v pattern = .ok e) : e.Bound types := by
  unfold like at h
  obtain ⟨l,hl,h⟩ := bind_eq_ok_iff.1 h
  have hl : l.Bound types := .ofCall (by simp [hv,hpattern]) hl
  split at h
  · exact .ofCall (by simpa using hl) h
  · cases h
    exact hl

theorem cast_bound {t : Sql.DataType} (he : e.Bound types) (h : cast e t = .ok e') :
    e'.Bound types := by
  unfold cast at h
  obtain ⟨target,-,h⟩ := bind_eq_ok_iff.1 h
  split at h
  · cases h
    exact he.cast target
  · cases h

/-! ## Whole expressions -/

variable {m : Type → Type} [Monad m] [MonadLiftT (Except QueryError) m] {W : Type} [Preorder W]
  {n : Names} {clause : Clause} {whole : Sql.Expr → m (Option Expr)} {rowTypes : W → List SqlType}

/-- What is bound as a whole is bound well; where a column is not, names mean columns of the row. -/
def WholeBound (O : Outcomes m W) (rowTypes : W → List SqlType) (n : Names)
    (whole : Sql.Expr → m (Option Expr)) : Prop :=
  ∀ w e, O.Yields w (whole e) fun w' result => match result with
    | some bound => bound.Bound (rowTypes w')
    | none => isColumnName e → ∀ qualifier name c, n.resolve qualifier name = .ok c →
        c.Bound (rowTypes w')

variable {O : Outcomes m W}

/-- A computation without effects yields what it ends in. -/
theorem yields_lift {w : W} {x : Except QueryError Expr}
    (h : ∀ w', w ≤ w' → ∀ e, x = .ok e → e.Bound (rowTypes w')) :
    O.Yields w (monadLift x) fun w' e => e.Bound (rowTypes w') :=
  O.lift fun e he w' hw => h w' hw e he

theorem resolveParts_bound (h : ∀ qualifier name c, n.resolve qualifier name = .ok c → c.Bound types)
    {parts : List Sql.Ident} {c : Expr} (hc : n.resolveParts parts = .ok c) : c.Bound types := by
  unfold Names.resolveParts at hc
  split at hc
  · cases hc
  · exact h _ _ _ hc
  · exact h _ _ _ hc

mutual
/-- An expression is bound well where what is bound as a whole is. -/
theorem exprWith_yields (hmono : ∀ w w', w ≤ w' → rowTypes w <+: rowTypes w')
    (hwhole : WholeBound O rowTypes n whole) (w : W) (e : Sql.Expr) :
    O.Yields w (exprWith n clause whole e) fun w' b => b.Bound (rowTypes w') := by
  rw [exprWith.eq_def]
  refine O.bind (hwhole w e) fun w₁ result hw₁ hresult => ?_
  cases result with
  | some bound => exact O.pure fun w' hw' => hresult.mono (hmono _ _ hw')
  | none =>
    cases e with
    | identifier name =>
      exact yields_lift fun w' hw' c hc => (hresult rfl _ _ c hc).mono (hmono _ _ hw')
    | compound parts =>
      exact yields_lift fun w' hw' c hc =>
        (resolveParts_bound (hresult rfl) hc).mono (hmono _ _ hw')
    | value v => exact yields_lift fun _ _ _ he => value_bound he
    | typedString t s => exact yields_lift fun _ _ _ he => typedString_bound he
    | nested e => exact exprWith_yields hmono hwhole w₁ e
    | binary left op right =>
      refine O.bind (O.lift fun op' _ _ _ => trivial) fun w₂ op' hw₂ _ => ?_
      refine O.bind (exprWith_yields hmono hwhole w₂ left) fun w₃ l hw₃ hl => ?_
      refine O.bind (exprWith_yields hmono hwhole w₃ right) fun w₄ r hw₄ hr => ?_
      refine yields_lift fun w' hw' b hb => .ofCall ?_ hb
      have hl := hl.mono (hmono _ _ (le_trans hw₄ hw'))
      have hr := hr.mono (hmono _ _ hw')
      simp [hl,hr]
    | unary op e =>
      refine O.bind (exprWith_yields hmono hwhole w₁ e) fun w₂ e hw₂ he => ?_
      exact yields_lift fun w' hw' b hb => unary_bound (he.mono (hmono _ _ hw')) hb
    | isNull e =>
      refine O.bind (exprWith_yields hmono hwhole w₁ e) fun w₂ e hw₂ he => ?_
      exact yields_lift fun w' hw' b hb => .ofCall (by simpa using he.mono (hmono _ _ hw')) hb
    | isNotNull e =>
      refine O.bind (exprWith_yields hmono hwhole w₁ e) fun w₂ e hw₂ he => ?_
      exact yields_lift fun w' hw' b hb => .ofCall (by simpa using he.mono (hmono _ _ hw')) hb
    | between e outside low high =>
      refine O.bind (exprWith_yields hmono hwhole w₁ e) fun w₂ v hw₂ hv => ?_
      refine O.bind (exprWith_yields hmono hwhole w₂ low) fun w₃ l hw₃ hl => ?_
      refine O.bind (exprWith_yields hmono hwhole w₃ high) fun w₄ h hw₄ hh => ?_
      exact yields_lift fun w' hw' b hb => between_bound
        (hv.mono (hmono _ _ (le_trans hw₃ (le_trans hw₄ hw'))))
        (hl.mono (hmono _ _ (le_trans hw₄ hw'))) (hh.mono (hmono _ _ hw')) hb
    | inList e list absent =>
      refine O.bind (exprWith_yields hmono hwhole w₁ e) fun w₂ v hw₂ hv => ?_
      refine O.bind (termsWith_yields hmono hwhole w₂ (membership absent) v hv list) fun w₃ ts hw₃ hts => ?_
      exact yields_lift fun w' hw' b hb =>
        inList_bound (fun t ht => (hts t ht).mono (hmono _ _ hw')) hb
    | like absent e pattern escape =>
      refine O.bind (exprWith_yields hmono hwhole w₁ e) fun w₂ v hw₂ hv => ?_
      refine O.bind (exprWith_yields hmono hwhole w₂ pattern) fun w₃ p hw₃ hp => ?_
      exact yields_lift fun w' hw' b hb => like_bound
        (hv.mono (hmono _ _ (le_trans hw₃ hw'))) (hp.mono (hmono _ _ hw')) hb
    | cast e t format =>
      refine O.bind (exprWith_yields hmono hwhole w₁ e) fun w₂ e hw₂ he => ?_
      exact yields_lift fun w' hw' b hb => cast_bound (he.mono (hmono _ _ hw')) hb
    | function name args filter tail => exact yields_lift fun _ _ _ he => nomatch he
    | subquery text => exact yields_lift fun _ _ _ he => nomatch he
    | other text => exact yields_lift fun _ _ _ he => nomatch he
termination_by structural e
theorem termsWith_yields (hmono : ∀ w w', w ≤ w' → rowTypes w <+: rowTypes w')
    (hwhole : WholeBound O rowTypes n whole) (w : W) (op : Operator) (v : Expr) (hv : v.Bound (rowTypes w))
    (es : List Sql.Expr) :
    O.Yields w (termsWith n clause whole op v es) fun w' ts => ∀ t ∈ ts, t.Bound (rowTypes w') := by
  cases es with
  | nil =>
    rw [termsWith]
    exact O.pure fun _ _ => by simp
  | cons e es =>
    rw [termsWith]
    refine O.bind (exprWith_yields hmono hwhole w e) fun w₁ item hw₁ hitem => ?_
    have hcall : O.Yields w₁ (monadLift (Expr.ofCall op [v,item])) fun w' b =>
        b.Bound (rowTypes w') := by
      refine yields_lift fun w' hw' b hb => .ofCall ?_ hb
      have hv := hv.mono (hmono _ _ (le_trans hw₁ hw'))
      have hitem := hitem.mono (hmono _ _ hw')
      simp [hv,hitem]
    refine O.bind hcall fun w₂ term hw₂ hterm => ?_
    refine O.bind (termsWith_yields hmono hwhole w₂ op v (hv.mono (hmono _ _ (le_trans hw₁ hw₂))) es)
      fun w₃ ts hw₃ hts => O.pure fun w' hw' => ?_
    exact List.forall_mem_cons.2 ⟨hterm.mono (hmono _ _ (le_trans hw₃ hw')),
      fun t ht => (hts t ht).mono (hmono _ _ hw')⟩
termination_by structural es
end

/-! ## Without effects -/

/-- What holds of the value that a computation ends in, if it ends in one. -/
def plainOutcomes : Outcomes (Except QueryError) Unit where
  Yields _ x P := ∀ a, x = .ok a → P () a
  pure h a ha := by
    cases ha
    exact h () le_rfl
  lift h a ha := h a ha () le_rfl
  bind hx hf b hb := by
    obtain ⟨a,ha,hb⟩ := bind_eq_ok_iff.1 hb
    exact hf () a le_rfl (hx a ha) b hb

/-- An expression over the rows of the FROM clause is bound well if names mean its columns. -/
theorem expr_bound {sql : Sql.Expr}
    (hnames : ∀ qualifier name c, n.resolve qualifier name = .ok c → c.Bound types)
    (h : expr n clause sql = .ok e) : e.Bound types := by
  have hwhole : WholeBound plainOutcomes (fun _ => types) n (fun _ => .ok none) := by
    intro w sql result hresult
    cases hresult
    exact fun _ => hnames
  exact exprWith_yields (O := plainOutcomes) (fun _ _ _ => List.prefix_refl _) hwhole () sql e h

theorem checkCondition_ok (h : checkCondition clause e = .ok ()) : e.type.isBooleanLike := by
  unfold checkCondition at h
  split at h
  · assumption
  · cases h

theorem condition_bound {sql : Sql.Expr}
    (hnames : ∀ qualifier name c, n.resolve qualifier name = .ok c → c.Bound types)
    (h : condition n clause sql = .ok e) : e.Bound types ∧ e.type.isBooleanLike := by
  obtain ⟨b,hb,h⟩ := bind_eq_ok_iff.1 h
  obtain ⟨_,hc,h⟩ := bind_eq_ok_iff.1 h
  cases h
  exact ⟨expr_bound hnames hb,checkCondition_ok hc⟩

end QueryPlan.Binding
