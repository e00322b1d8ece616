import QueryPlan.Proofs.Binding.Parts
import QueryPlan.Proofs.Except

/-! # What bound expressions inherit

Whatever literals have and calls hand on to what is built of them, binding hands on from the columns
in scope to whole expressions. This is said once, for the rows of the FROM clause and for groups. -/
namespace QueryPlan.Binding

/-- What literals have and what calls and casts have if their operands do. -/
structure Inherited (Q : Expr → Prop) : Prop where
  value {v : Sql.Value} {e : Expr} : value v = .ok e → Q e
  typedString {t : Sql.DataType} {s : String} {e : Expr} : typedString t s = .ok e → Q e
  negate {v w : Literal} : Q (.literal v) → v.negate? = some w → Q (.literal w)
  ofCall {op : Operator} {args : List Expr} {e : Expr} :
    (∀ a ∈ args, Q a) → Expr.ofCall op args = .ok e → Q e
  cast {t : Sql.DataType} {target : SqlType} {e : Expr} : Q e → t.target = .ok target → Q (e.cast target)

section
variable {Q : Expr → Prop} {n : Names} {e b : Expr}

theorem Inherited.negated (hQ : Inherited Q) (he : Q e) (h : negated e = .ok b) : Q b := by
  unfold Binding.negated at h
  split at h
  · split at h
    · rename_i w hw
      cases h
      exact hQ.negate he hw
    · exact hQ.ofCall (by simpa using he) h
  · exact hQ.ofCall (by simpa using he) h

theorem Inherited.unary (hQ : Inherited Q) {op : Sql.UnaryOp} (he : Q e) (h : unary op e = .ok b) :
    Q b := by
  cases op with
  | plus =>
    cases h
    exact he
  | minus => exact hQ.negated he h
  | not => exact hQ.ofCall (by simpa using he) h
  | factorial => cases h

theorem Inherited.between (hQ : Inherited Q) {outside : Bool} {v low high : Expr} (hv : Q v)
    (hlow : Q low) (hhigh : Q high) (h : between outside v low high = .ok b) : Q b := by
  unfold Binding.between at h
  split at h
  all_goals
    obtain ⟨first,hfirst,h⟩ := bind_eq_ok_iff.1 h
    obtain ⟨second,hsecond,h⟩ := bind_eq_ok_iff.1 h
    have hfirst : Q first := hQ.ofCall (by simp [hv,hlow]) hfirst
    have hsecond : Q second := hQ.ofCall (by simp [hv,hhigh]) hsecond
    exact hQ.ofCall (by simp [hfirst,hsecond]) h

theorem Inherited.inList (hQ : Inherited Q) {absent : Bool} {v : Expr} {items ts : List Expr} (hv : Q v)
    (hitems : ∀ a ∈ items, Q a)
    (hts : items.mapM (fun item => Expr.ofCall (membership absent) [v,item]) = .ok ts)
    (h : inList absent ts = .ok b) : Q b := by
  have hall : ∀ t ∈ ts, Q t := by
    intro t ht
    obtain ⟨item,hitem,hcall⟩ := exists_of_forall₂ (mapM_eq_ok_iff.1 hts).flip ht
    exact hQ.ofCall (by simp [hv,hitems item hitem]) hcall
  unfold Binding.inList at h
  split at h
  · cases h
  · cases h
    exact hall _ List.mem_cons_self
  · exact hQ.ofCall hall h

theorem Inherited.like (hQ : Inherited Q) {absent : Bool} {v pattern : Expr} (hv : Q v)
    (hpattern : Q pattern) (h : like absent v pattern = .ok b) : Q b := by
  obtain ⟨l,hl,h⟩ := bind_eq_ok_iff.1 h
  have hl : Q l := hQ.ofCall (by simp [hv,hpattern]) hl
  split at h
  · exact hQ.ofCall (by simpa using hl) h
  · cases h
    exact hl

theorem Inherited.assemble (hQ : Inherited Q)
    (hnames : ∀ qualifier name c, n.resolve qualifier name = .ok c → Q c) {e : Sql.Expr} {bs : List Expr}
    (hbs : ∀ a ∈ bs, Q a) (h : assemble n e bs = .ok b) : Q b := by
  unfold Binding.assemble at h
  split at h
  case h_1 => exact hnames _ _ _ h
  case h_2 =>
    unfold Names.resolveParts at h
    split at h
    · cases h
    · exact hnames _ _ _ h
    · exact hnames _ _ _ h
  case h_3 => exact hQ.value h
  case h_4 => exact hQ.typedString h
  case h_5 =>
    cases h
    exact hbs _ List.mem_cons_self
  case h_6 =>
    obtain ⟨op,-,h⟩ := bind_eq_ok_iff.1 h
    exact hQ.ofCall hbs h
  case h_7 => exact hQ.unary (hbs _ List.mem_cons_self) h
  case h_8 | h_9 => exact hQ.ofCall hbs h
  case h_10 =>
    simp only [List.forall_mem_cons] at hbs
    exact hQ.between hbs.1 hbs.2.1 hbs.2.2.1 h
  case h_11 =>
    obtain ⟨ts,hts,h⟩ := bind_eq_ok_iff.1 h
    obtain ⟨hv,hitems⟩ := List.forall_mem_cons.1 hbs
    exact hQ.inList hv hitems hts h
  case h_12 =>
    simp only [List.forall_mem_cons] at hbs
    exact hQ.like hbs.1 hbs.2.1 h
  case h_13 =>
    obtain ⟨target,htarget,h⟩ := bind_eq_ok_iff.1 h
    split at h
    · cases h
      exact hQ.cast (hbs _ List.mem_cons_self) htarget
    · cases h
  case h_14 => cases h

end

/-! ## Computations that bind -/

section
variable {m : Type → Type} [Monad m] [MonadLiftT (Except QueryError) m] {W : Type} {E : Ends m W}
  {n : Names} {clause : Clause} {whole : Sql.Expr → m (Option Expr)} {w w' : W} {I : W → Prop}

/-- What each computation keeps and ends in, all of them do. -/
theorem Ends.Each.all {α β : Type} {f : α → m β} {Q : β → Prop} {xs : List α} {ys : List β}
    (h : E.Each f w xs w' ys)
    (hstep : ∀ x ∈ xs, ∀ {w w' y}, I w → E.To w (f x) w' y → I w' ∧ Q y) (hw : I w) :
    I w' ∧ ∀ y ∈ ys, Q y := by
  induction h with
  | nil => exact ⟨hw,by simp⟩
  | cons hy _ ih =>
    obtain ⟨hx,hxs⟩ := List.forall_mem_cons.1 hstep
    obtain ⟨hw₁,hQ⟩ := hx hw hy
    obtain ⟨hw',hall⟩ := ih hxs hw₁
    exact ⟨hw',List.forall_mem_cons.2 ⟨hQ,hall⟩⟩

/-- What is inherited from the expressions that are bound as a whole and from columns, all bound
expressions have. -/
theorem Inherited.exprWith {Q : Expr → Prop} (hQ : Inherited Q)
    (hnames : ∀ qualifier name c, n.resolve qualifier name = .ok c → Q c)
    (hwhole : ∀ e {w w' r}, I w → E.To w (whole e) w' r → I w' ∧ ∀ a, r = some a → Q a)
    {e : Sql.Expr} {b : Expr} (hw : I w) (h : E.To w (exprWith n clause whole e) w' b) : I w' ∧ Q b := by
  induction e using Sql.Expr.byParts generalizing w w' b with
  | step e ih =>
  obtain ⟨w₁,r,hr,h⟩ := E.exprWith.1 h
  obtain ⟨hw₁,hsome⟩ := hwhole e hw hr
  cases r with
  | some a =>
    obtain ⟨rfl,rfl⟩ := h
    exact ⟨hw₁,hsome _ rfl⟩
  | none =>
    obtain ⟨bs,hbs,hb⟩ := h
    obtain ⟨hw',hall⟩ := hbs.all (fun s hs _ _ _ => ih s hs) hw₁
    exact ⟨hw',hQ.assemble hnames hall hb⟩

end

end QueryPlan.Binding
