import QueryPlan.Proofs.Except
import QueryPlan.Proofs.Sql.Folded

/-! # Names mean the same in every spelling

Where names are compared without regard to case, an expression and the folded expression are bound
to one row expression, or are refused with errors of one code. -/
namespace QueryPlan

/-- Errors of one code. -/
def QueryError.SameCode (e e' : QueryError) : Prop := e.code = e'.code

theorem QueryError.SameCode.refl (e : QueryError) : e.SameCode e := rfl

/-- Two computations end in related values, or in errors of one code. -/
abbrev Agree {α β : Type} (R : α → β → Prop) : Except QueryError α → Except QueryError β → Prop :=
  LiftRel QueryError.SameCode R

theorem agree_refl {α : Type} (x : Except QueryError α) : Agree Eq x x :=
  .refl QueryError.SameCode.refl (fun _ => rfl) x

theorem sameName_false (a b : String) : sameName false a b = (a.toLower == b.toLower) := rfl

/-! ## Scopes -/

def ScopeColumn.folded (c : ScopeColumn) : ScopeColumn := { c with relation := c.relation.toLower }

namespace Scope
variable {s s' : Scope}

/-- A scope with the names of its relations in lower case. -/
def folded (s : Scope) : Scope :=
  ⟨s.columns.map ScopeColumn.folded,s.relations.map String.toLower⟩

theorem hasRelation_folded (s : Scope) (relation : String) :
    s.hasRelation false relation = s.folded.relations.any (· == relation.toLower) := by
  simp only [folded,List.any_map]
  rfl

theorem hasRelation_alike (hs : s.folded = s'.folded) {relation relation' : String}
    (h : relation.toLower = relation'.toLower) :
    s.hasRelation false relation = s'.hasRelation false relation' := by
  rw [hasRelation_folded,hasRelation_folded,hs,h]

/-- Columns that a property of their folded forms picks stand at the same places. -/
theorem filter_places_alike (hs : s.folded = s'.folded) (P P' : ScopeColumn → Bool)
    (hP : ∀ c c', c.folded = c'.folded → P c = P' c') :
    (s.places.filter (P ·.1)).Forall₂ (fun p p' => p.1.folded = p'.1.folded ∧ p.2 = p'.2)
      (s'.places.filter (P' ·.1)) := by
  have hplaces : s.places.map (Prod.map ScopeColumn.folded id) =
      s'.places.map (Prod.map ScopeColumn.folded id) := by
    rw [places,places,← List.zipIdx_map,← List.zipIdx_map]
    exact congrArg (fun s : Scope => s.columns.zipIdx) hs
  rw [← List.forall₂_eq_eq_eq,List.forall₂_map_left_iff,List.forall₂_map_right_iff] at hplaces
  refine List.rel_filter (fun p p' h => ?_) (hplaces.imp fun p p' h => Prod.mk.inj h)
  dsimp only
  rw [hP _ _ h.1]

theorem matchesName_alike {qualifier qualifier' : Option String} {name name' : String}
    (hqualifier : qualifier.map String.toLower = qualifier'.map String.toLower)
    (hname : name.toLower = name'.toLower) {c c' : ScopeColumn} (hc : c.folded = c'.folded) :
    matchesName false qualifier name c = matchesName false qualifier' name' c' := by
  obtain ⟨hrelation,hcolumn,-⟩ := ScopeColumn.mk.inj hc
  have hall : ∀ (q : Option String) (c : ScopeColumn), q.all (sameName false c.relation ·) =
      (q.map String.toLower).all (c.relation.toLower == ·) := fun q c => by cases q <;> rfl
  rw [matchesName,matchesName,sameName_false,sameName_false,hname,hcolumn,hall,hall,hqualifier,
    hrelation]

/-- A name means the same column in scopes whose relations go by the same names. -/
theorem resolve_alike (hs : s.folded = s'.folded) {qualifier qualifier' : Option String}
    (hqualifier : qualifier.map String.toLower = qualifier'.map String.toLower) {name name' : String}
    (hname : name.toLower = name'.toLower) :
    Agree Eq (s.resolve false qualifier name)
      (s'.resolve false qualifier' name') := by
  have hfound := filter_places_alike hs (matchesName false qualifier name)
    (matchesName false qualifier' name') fun _ _ => matchesName_alike hqualifier hname
  have hunknown : (qualifier.filter (!s.hasRelation false ·)).isSome =
      (qualifier'.filter (!s'.hasRelation false ·)).isSome := by
    cases qualifier with
    | none =>
      cases qualifier' with
      | none => rfl
      | some q' => cases hqualifier
    | some q =>
      cases qualifier' with
      | none => cases hqualifier
      | some q' =>
        have hq : q.toLower = q'.toLower := Option.some.inj hqualifier
        rw [Option.filter_some,Option.filter_some,hasRelation_alike hs hq]
        split <;> rfl
  unfold resolve
  generalize qualifier.filter (!s.hasRelation false ·) = u,
    qualifier'.filter (!s'.hasRelation false ·) = u' at hunknown ⊢
  generalize s.places.filter (matchesName false qualifier name ·.1) = found,
    s'.places.filter (matchesName false qualifier' name' ·.1) = found' at hfound ⊢
  cases u with
  | some q =>
    cases u' with
    | some q' => exact .error rfl
    | none => cases hunknown
  | none =>
    cases u' with
    | some q' => cases hunknown
    | none =>
      cases hfound with
      | nil => exact .error rfl
      | cons hc hrest =>
        cases hrest with
        | cons _ _ => exact .error rfl
        | nil =>
          obtain ⟨hc,hi⟩ := hc
          obtain ⟨-,-,htype⟩ := ScopeColumn.mk.inj hc
          exact .ok (congrArg₂ Expr.column hi htype)

theorem beside_alike {right right' : Scope} (hs : s.folded = s'.folded)
    (hright : right.folded = right'.folded) :
    Agree (fun r r' => r.folded = r'.folded) (s.beside false right)
      (s'.beside false right') := by
  obtain ⟨hcolumns,hrelations⟩ := Scope.mk.inj hs
  obtain ⟨hcolumns',hrelations'⟩ := Scope.mk.inj hright
  have hany : ∀ left r : Scope, (r.relations.find? (left.hasRelation false)).isSome =
      r.folded.relations.any fun name => left.folded.relations.any (· == name) := fun left r => by
    simp only [List.isSome_find?,hasRelation_folded]
    simp only [folded,List.any_map]
    rfl
  have hfind : (right.relations.find? (s.hasRelation false)).isSome =
      (right'.relations.find? (s'.hasRelation false)).isSome := by
    rw [hany,hany,hs,hright]
  unfold beside
  generalize right.relations.find? (s.hasRelation false) = a,
    right'.relations.find? (s'.hasRelation false) = b at hfind ⊢
  cases a with
  | some relation =>
    cases b with
    | some relation' => exact .error rfl
    | none => cases hfind
  | none =>
    cases b with
    | some relation' => cases hfind
    | none =>
      refine .ok ?_
      simp only [folded,List.map_append,hcolumns,hrelations,hcolumns',hrelations']

end Scope

namespace Binding

/-- Names that mean the same columns, but for the case of letters. -/
structure Names.Alike (n n' : Names) : Prop where
  caseless : n.caseSensitive = false
  caseless' : n'.caseSensitive = false
  scope : n.scope.folded = n'.scope.folded

variable {n n' : Names} {clause : Clause}

theorem Names.Alike.resolve (hn : n.Alike n') {qualifier qualifier' : Option String}
    (hqualifier : qualifier.map String.toLower = qualifier'.map String.toLower) {name name' : String}
    (hname : name.toLower = name'.toLower) :
    Agree Eq (n.resolve qualifier name) (n'.resolve qualifier' name') := by
  rw [Names.resolve,Names.resolve,hn.caseless,hn.caseless']
  exact Scope.resolve_alike hn.scope hqualifier hname

theorem Names.Alike.resolveParts (hn : n.Alike n') (parts : List Sql.Ident) :
    Agree Eq (n.resolveParts parts)
      (n'.resolveParts (parts.map Sql.Ident.folded)) := by
  unfold Names.resolveParts
  rw [← List.map_reverse]
  match parts.reverse with
  | [] => exact .error rfl
  | [name] => exact hn.resolve rfl (by simp)
  | name :: qualifier :: _ => exact hn.resolve (by simp) (by simp)

/-! ## Expressions -/

/-- How to say of two computations that they end alike. -/
structure Comparison (m : Type → Type) [Monad m] [MonadLiftT (Except QueryError) m] where
  Alike {α : Type} : m α → m α → Prop
  pure {α : Type} (a : α) : Alike (pure a) (pure a)
  lift {α : Type} {x y : Except QueryError α} :
    Agree Eq x y → Alike (monadLift x) (monadLift y)
  bind {α β : Type} {x y : m α} {f g : α → m β} :
    Alike x y → (∀ a, Alike (f a) (g a)) → Alike (x >>= f) (y >>= g)

theorem function_sameCode (name : Sql.ObjectName) :
    (function clause name).SameCode (function clause (name.map Sql.Ident.folded)) := by
  unfold function
  rw [Sql.ofName?_folded]
  split <;> rfl

section
variable {m : Type → Type} [Monad m] [MonadLiftT (Except QueryError) m] {C : Comparison m}
  {whole whole' : Sql.Expr → m (Option Expr)}

mutual
theorem exprWith_folded (hn : n.Alike n') (hwhole : ∀ e, C.Alike (whole e) (whole' e.folded))
    (e : Sql.Expr) : C.Alike (exprWith n clause whole e) (exprWith n' clause whole' e.folded) := by
  rw [exprWith.eq_def,exprWith.eq_def n' clause whole' e.folded]
  refine C.bind (hwhole e) fun result => ?_
  cases result with
  | some bound => exact C.pure bound
  | none =>
    cases e with
    | identifier name => exact C.lift (hn.resolve rfl (by simp))
    | compound parts => exact C.lift (hn.resolveParts parts)
    | value v => exact C.lift (agree_refl _)
    | typedString t s => exact C.lift (agree_refl _)
    | nested e => exact exprWith_folded hn hwhole e
    | binary left op right =>
      refine C.bind (C.lift (agree_refl _)) fun op' => ?_
      refine C.bind (exprWith_folded hn hwhole left) fun l => ?_
      exact C.bind (exprWith_folded hn hwhole right) fun r => C.lift (agree_refl _)
    | unary op e => exact C.bind (exprWith_folded hn hwhole e) fun b => C.lift (agree_refl _)
    | isNull e => exact C.bind (exprWith_folded hn hwhole e) fun b => C.lift (agree_refl _)
    | isNotNull e => exact C.bind (exprWith_folded hn hwhole e) fun b => C.lift (agree_refl _)
    | between e outside low high =>
      refine C.bind (exprWith_folded hn hwhole e) fun v => ?_
      refine C.bind (exprWith_folded hn hwhole low) fun l => ?_
      exact C.bind (exprWith_folded hn hwhole high) fun h => C.lift (agree_refl _)
    | inList e list absent =>
      refine C.bind (exprWith_folded hn hwhole e) fun v => ?_
      exact C.bind (termsWith_folded hn hwhole _ v list) fun ts => C.lift (agree_refl _)
    | like absent e pattern escape =>
      refine C.bind (exprWith_folded hn hwhole e) fun v => ?_
      exact C.bind (exprWith_folded hn hwhole pattern) fun p => C.lift (agree_refl _)
    | cast e t format => exact C.bind (exprWith_folded hn hwhole e) fun b => C.lift (agree_refl _)
    | function name args filter tail => exact C.lift (.error (function_sameCode name))
    | subquery text => exact C.lift (.error rfl)
    | other text => exact C.lift (.error rfl)
termination_by structural e
theorem termsWith_folded (hn : n.Alike n') (hwhole : ∀ e, C.Alike (whole e) (whole' e.folded))
    (op : Operator) (v : Expr) (es : List Sql.Expr) :
    C.Alike (termsWith n clause whole op v es)
      (termsWith n' clause whole' op v (Sql.foldedAll es)) := by
  cases es with
  | nil => exact C.pure []
  | cons e es =>
    rw [termsWith,Sql.foldedAll,termsWith]
    refine C.bind (exprWith_folded hn hwhole e) fun item => ?_
    refine C.bind (C.lift (agree_refl _)) fun term => ?_
    exact C.bind (termsWith_folded hn hwhole op v es) fun ts => C.pure (term :: ts)
termination_by structural es
end

end

/-- Without effects: one value, or errors of one code. -/
def plainComparison : Comparison (Except QueryError) where
  Alike := Agree Eq
  pure _ := .ok rfl
  lift h := h
  bind hx hf := hx.bind_eq hf

theorem expr_folded (hn : n.Alike n') (e : Sql.Expr) :
    Agree Eq (expr n clause e) (expr n' clause e.folded) :=
  exprWith_folded (C := plainComparison) hn (fun _ => plainComparison.pure none) e

theorem condition_folded (hn : n.Alike n') (e : Sql.Expr) :
    Agree Eq (condition n clause e) (condition n' clause e.folded) := by
  exact (expr_folded hn e).bind_eq fun _ => agree_refl _

end Binding
end QueryPlan
