import QueryPlan.Proofs.Binding.GroupedMeaning
import QueryPlan.Proofs.Meaning.Comparison

/-! # Predicates that are expanded

Membership in a list and lying between bounds become comparisons under a connective, and so do their
negated forms, with the opposite comparisons under the other connective. -/
namespace QueryPlan

namespace Expr

/-- Terms under a connective, which one term alone does without. -/
def joined (op : Operator) : List Expr → Expr
  | [t] => t
  | ts => .call op ts .boolean

/-- A value compared with another one. -/
def compared (op : Operator) (v w : Expr) : Expr := .call op [v,w] .boolean

variable {op : Operator} {v w b : Expr}

theorem ofCall_comparison (hop : op.isComparison) :
    ofCall op [v,w] = .ok b ↔ v.type.comparableWith w.type ∧ b = compared op v w := by
  have htype : op.resultType? [v.type,w.type]
      = if v.type.comparableWith w.type then some .boolean else none := by
    cases op <;> first | cases hop; done | simp [Operator.resultType?,Operator.isComparison]
  have hconnective : op.isConnective = false := by cases op <;> first | rfl | cases hop
  rw [ofCall_eq_ok_iff]
  simp only [List.map_cons,List.map_nil,htype,hconnective,Option.ite_none_right_eq_some]
  constructor
  · rintro ⟨t,⟨hcomparable,ht⟩,rfl⟩
    cases ht
    exact ⟨hcomparable,rfl⟩
  · rintro ⟨hcomparable,rfl⟩
    exact ⟨.boolean,⟨hcomparable,rfl⟩,rfl⟩

/-- Comparisons are not taken apart under a connective. -/
theorem ofCall_compared {connective : Operator} (hconnective : connective.isConnective)
    (hop : op.isComparison) {ws : List Expr} (hlen : 2 ≤ ws.length) :
    ofCall connective (ws.map (compared op v)) = .ok (.call connective (ws.map (compared op v)) .boolean) := by
  have hne : op ≠ connective := by
    rintro rfl
    cases op <;> first | cases hop; done | cases hconnective
  have hflat : flatOperands connective (ws.map (compared op v)) = ws.map (compared op v) := by
    rw [flatOperands,List.flatMap_map]
    simp only [compared,if_neg hne]
    exact List.flatMap_pure_eq_map _ _
  refine ofCall_eq_ok_iff.2 ⟨.boolean,(resultType?_connective hconnective).2 ⟨rfl,?_,?_⟩,?_⟩
  · simpa using hlen
  · simp [compared,type,SqlType.isBooleanLike]
  · rw [if_pos hconnective,hflat]

end Expr

namespace Binding
variable {n : Names} {clause : Clause}

/-! ## What they become -/

theorem mapM_compared {op : Operator} (hop : op.isComparison) {v : Expr} {items ts : List Expr} :
    items.mapM (fun item => Expr.ofCall op [v,item]) = .ok ts ↔
      (∀ item ∈ items, v.type.comparableWith item.type) ∧ ts = items.map (Expr.compared op v) := by
  rw [mapM_eq_ok_iff]
  induction items generalizing ts with
  | nil => simp
  | cons item items ih =>
    rw [List.forall₂_cons_left_iff,List.forall_mem_cons,List.map_cons]
    constructor
    · rintro ⟨t,rest,ht,hrest,rfl⟩
      obtain ⟨hcomparable,rfl⟩ := (Expr.ofCall_comparison hop).1 ht
      obtain ⟨hall,rfl⟩ := ih.1 hrest
      exact ⟨⟨hcomparable,hall⟩,rfl⟩
    · rintro ⟨⟨hcomparable,hall⟩,rfl⟩
      exact ⟨_,_,(Expr.ofCall_comparison hop).2 ⟨hcomparable,rfl⟩,ih.2 ⟨hall,rfl⟩,rfl⟩

theorem isComparison_membership (absent : Bool) : (membership absent).isComparison := by
  cases absent <;> rfl

/-- The connective of the comparisons with the members of a list. -/
def memberConnective (absent : Bool) : Operator := if absent then .and else .or

theorem isConnective_memberConnective (absent : Bool) : (memberConnective absent).isConnective := by
  cases absent <;> rfl

theorem inList_compared {absent : Bool} {v b : Expr} {items : List Expr} :
    inList absent (items.map (Expr.compared (membership absent) v)) = .ok b ↔
      items ≠ [] ∧
        b = Expr.joined (memberConnective absent) (items.map (Expr.compared (membership absent) v)) := by
  have hjoined (hne : items ≠ []) :
      inList absent (items.map (Expr.compared (membership absent) v)) = .ok (Expr.joined
        (memberConnective absent) (items.map (Expr.compared (membership absent) v))) := by
    rcases items with _|⟨item,_|⟨item',items⟩⟩
    · exact absurd rfl hne
    · rfl
    · exact Expr.ofCall_compared (isConnective_memberConnective absent)
        (isComparison_membership absent) (show 2 ≤ (item :: item' :: items).length by simp)
  constructor
  · intro hb
    have hne : items ≠ [] := by
      rintro rfl
      cases hb
    exact ⟨hne,(Except.ok.inj ((hjoined hne).symm.trans hb)).symm⟩
  · rintro ⟨hne,rfl⟩
    exact hjoined hne

theorem assemble_inList {e : Sql.Expr} {list : List Sql.Expr} {absent : Bool} {v b : Expr}
    {items : List Expr} : assemble n (.inList e list absent) (v :: items) = .ok b ↔
      items ≠ [] ∧ (∀ item ∈ items, v.type.comparableWith item.type) ∧
        b = Expr.joined (memberConnective absent) (items.map (Expr.compared (membership absent) v)) := by
  rw [assemble,bind_eq_ok_iff]
  simp only [mapM_compared (isComparison_membership absent)]
  constructor
  · rintro ⟨ts,⟨hall,rfl⟩,hb⟩
    obtain ⟨hne,heq⟩ := inList_compared.1 hb
    exact ⟨hne,hall,heq⟩
  · rintro ⟨hne,hall,heq⟩
    exact ⟨_,⟨hall,rfl⟩,inList_compared.2 ⟨hne,heq⟩⟩

/-- The comparison with the lower bound. -/
def lowerComparison (outside : Bool) : Operator := if outside then .lt else .gtEq

def upperComparison (outside : Bool) : Operator := if outside then .gt else .ltEq

def boundConnective (outside : Bool) : Operator := if outside then .or else .and

theorem isComparison_lowerComparison (outside : Bool) : (lowerComparison outside).isComparison := by
  cases outside <;> rfl

theorem isComparison_upperComparison (outside : Bool) : (upperComparison outside).isComparison := by
  cases outside <;> rfl

theorem between_eq (outside : Bool) (v l h : Expr) : between outside v l h = (do
    let first ← Expr.ofCall (lowerComparison outside) [v,l]
    let second ← Expr.ofCall (upperComparison outside) [v,h]
    Expr.ofCall (boundConnective outside) [first,second]) := by
  cases outside <;> rfl

theorem assemble_between {e low high : Sql.Expr} {outside : Bool} {v l h b : Expr} :
    assemble n (.between e outside low high) [v,l,h] = .ok b ↔
      v.type.comparableWith l.type ∧ v.type.comparableWith h.type ∧
        b = .call (boundConnective outside)
          [.compared (lowerComparison outside) v l,.compared (upperComparison outside) v h] .boolean := by
  have hjoined : Expr.ofCall (boundConnective outside)
      [.compared (lowerComparison outside) v l,.compared (upperComparison outside) v h]
        = .ok (.call (boundConnective outside)
          [.compared (lowerComparison outside) v l,.compared (upperComparison outside) v h] .boolean) := by
    cases outside <;> rfl
  rw [assemble,between_eq,bind_eq_ok_iff]
  simp only [bind_eq_ok_iff,Expr.ofCall_comparison (isComparison_lowerComparison outside),
    Expr.ofCall_comparison (isComparison_upperComparison outside)]
  constructor
  · rintro ⟨_,⟨hlow,rfl⟩,_,⟨hhigh,rfl⟩,hb⟩
    cases hjoined.symm.trans hb
    exact ⟨hlow,hhigh,rfl⟩
  · rintro ⟨hlow,hhigh,rfl⟩
    exact ⟨_,⟨hlow,rfl⟩,_,⟨hhigh,rfl⟩,hjoined⟩

/-! ## What they mean -/

/-- What a predicate and its negated form become, made from the same parts. -/
inductive Opposite : Expr → Expr → Prop
  | membership (v : Expr) (items : List Expr) : Opposite (.joined .or (items.map (.compared .eq v)))
      (.joined .and (items.map (.compared .notEq v)))
  | bounds (v l h : Expr) : Opposite (.call .and [.compared .gtEq v l,.compared .ltEq v h] .boolean)
      (.call .or [.compared .lt v l,.compared .gt v h] .boolean)

/-- One expression has the negated value of another wherever comparisons follow an order. -/
def Negates (p q : Expr) : Prop :=
  ∀ {α β : Type} [LinearOrder β] (I : Interpretation α) (rank : Value α → β), I.Ordered rank →
    ∀ row, I.semantics.eval row q = I.operator .not .boolean [I.semantics.eval row p]

section
variable {α β : Type} [LinearOrder β] {I : Interpretation α} {rank : Value α → β} {row : Row α}

theorem eval_compared {op : Operator} (hop : op.isComparison) (v w : Expr) :
    I.semantics.eval row (.compared op v w)
      = I.operator op .boolean [I.semantics.eval row v,I.semantics.eval row w] :=
  Interpretation.eval_comparison hop v w

theorem map_eval_compared {op : Operator} (hop : op.isComparison) (v : Expr) (items : List Expr) :
    (items.map (Expr.compared op v)).map (I.semantics.eval row) = items.map fun i =>
      I.operator op .boolean [I.semantics.eval row v,I.semantics.eval row i] := by
  rw [List.map_map]
  exact List.map_congr_left fun i _ => eval_compared hop v i

theorem eval_opposite (h : I.Ordered rank) {op : Operator} (hop : op.isComparison) (v w : Expr) :
    I.semantics.eval row (.compared op.opposite v w)
      = (I.semantics.eval row (.compared op v w)).negation := by
  rw [eval_compared (Operator.isComparison_opposite hop),eval_compared hop,h.opposite hop]

theorem map_eval_opposite (h : I.Ordered rank) {op : Operator} (hop : op.isComparison) (v : Expr)
    (items : List Expr) : (items.map (Expr.compared op.opposite v)).map (I.semantics.eval row)
      = ((items.map (Expr.compared op v)).map (I.semantics.eval row)).map Value.negation := by
  rw [List.map_map,List.map_map,List.map_map]
  exact List.map_congr_left fun i _ => eval_opposite h hop v i

/-- A value is in a list if it equals one of the members. -/
theorem eval_joined_or (h : I.Ordered rank) {op : Operator} (hop : op.isComparison) (v : Expr)
    (items : List Expr) :
    I.semantics.eval row (.joined .or (items.map (Expr.compared op v)))
      = .disjunction (items.map fun i =>
        I.operator op .boolean [I.semantics.eval row v,I.semantics.eval row i]) := by
  match items with
  | [] => rfl
  | [item] => exact (eval_compared hop v item).trans (h.disjunction hop _ _).symm
  | item :: item' :: items =>
    exact (Interpretation.eval_or _).trans
      (congrArg _ (map_eval_compared hop v (item :: item' :: items)))

/-- It is in none if it differs from all of them. -/
theorem eval_joined_and (h : I.Ordered rank) {op : Operator} (hop : op.isComparison) (v : Expr)
    (items : List Expr) :
    I.semantics.eval row (.joined .and (items.map (Expr.compared op.opposite v)))
      = (I.semantics.eval row (.joined .or (items.map (Expr.compared op v)))).negation := by
  match items with
  | [] => rfl
  | [item] => exact eval_opposite h hop v item
  | item :: item' :: items =>
    have hvalues : ((item :: item' :: items).map (Expr.compared op.opposite v)).map (I.semantics.eval row)
        = _ := map_eval_opposite h hop v (item :: item' :: items)
    calc I.semantics.eval row (.joined .and ((item :: item' :: items).map (Expr.compared op.opposite v)))
        = .conjunction (((item :: item' :: items).map (Expr.compared op.opposite v)).map
            (I.semantics.eval row)) := Interpretation.eval_and _
      _ = (Value.disjunction (((item :: item' :: items).map (Expr.compared op v)).map
            (I.semantics.eval row))).negation := by rw [hvalues,Value.conjunction_negation]
      _ = (I.semantics.eval row (.joined .or ((item :: item' :: items).map (Expr.compared op v)))).negation :=
        congrArg _ (Interpretation.eval_or _).symm

end

section
variable {p q : Expr}

theorem Opposite.negates (h : Opposite p q) : Negates p q := by
  intro α β _ I rank hI row
  rw [hI.not]
  cases h with
  | membership v items => exact eval_joined_and hI (show Operator.eq.isComparison from rfl) v items
  | bounds v l h =>
    have hlow : I.semantics.eval row (.compared .lt v l)
        = (I.semantics.eval row (.compared .gtEq v l)).negation :=
      eval_opposite hI (show Operator.gtEq.isComparison from rfl) v l
    have hhigh : I.semantics.eval row (.compared .gt v h)
        = (I.semantics.eval row (.compared .ltEq v h)).negation :=
      eval_opposite hI (show Operator.ltEq.isComparison from rfl) v h
    rw [Interpretation.eval_or,Interpretation.eval_and,← Value.disjunction_negation]
    simp only [List.map_cons,List.map_nil,hlow,hhigh]

theorem occurrences_joined (op : Operator) (ts : List Expr) :
    (Expr.joined op ts).occurrences = ts.flatMap Expr.occurrences := by
  match ts with
  | [] => rfl
  | [t] => exact (List.flatMap_singleton _ _).symm
  | t :: t' :: ts => exact Expr.occurrences_call ..

/-- Both refer to the columns of their parts. -/
theorem Opposite.occurrences (h : Opposite p q) : q.occurrences = p.occurrences := by
  cases h with
  | membership v items =>
    rw [occurrences_joined,occurrences_joined,List.flatMap_map,List.flatMap_map]
    rfl
  | bounds v l h => rfl

end

/-! ## How they are bound -/

/-- A predicate that is expanded, and its negated form. -/
inductive Opposed : Sql.Expr → Sql.Expr → Prop
  | inList (e : Sql.Expr) (list : List Sql.Expr) : Opposed (.inList e list false) (.inList e list true)
  | between (e low high : Sql.Expr) : Opposed (.between e false low high) (.between e true low high)

variable {P N : Sql.Expr}

theorem Opposed.parts (h : Opposed P N) : N.parts = P.parts := by cases h <;> rfl

theorem Opposed.hasAggregate (h : Opposed P N) : N.hasAggregate = P.hasAggregate := by cases h <;> rfl

/-- Neither is a name or the call of an aggregate. -/
theorem Opposed.not_whole (h : Opposed P N) : (P.aggregate? = none ∧ isColumnName P = false) ∧
    N.aggregate? = none ∧ isColumnName N = false := by
  cases h <;> exact ⟨⟨rfl,rfl⟩,rfl,rfl⟩

/-- From the same parts both are put together, or neither. -/
theorem Opposed.assemble_iff (h : Opposed P N) (bs : List Expr) :
    (∀ p, assemble n P bs = .ok p → ∃ q, assemble n N bs = .ok q ∧ Opposite p q) ∧
      ∀ q, assemble n N bs = .ok q → ∃ p, assemble n P bs = .ok p ∧ Opposite p q := by
  cases h with
  | inList e list =>
    cases bs with
    | nil => exact ⟨nofun,nofun⟩
    | cons v items =>
      refine ⟨fun p hp => ?_,fun q hq => ?_⟩
      · obtain ⟨hne,hall,rfl⟩ := assemble_inList.1 hp
        exact ⟨_,assemble_inList.2 ⟨hne,hall,rfl⟩,.membership v items⟩
      · obtain ⟨hne,hall,rfl⟩ := assemble_inList.1 hq
        exact ⟨_,assemble_inList.2 ⟨hne,hall,rfl⟩,.membership v items⟩
  | between e low high =>
    match bs with
    | [v,l,h] =>
      refine ⟨fun p hp => ?_,fun q hq => ?_⟩
      · obtain ⟨hlow,hhigh,rfl⟩ := assemble_between.1 hp
        exact ⟨_,assemble_between.2 ⟨hlow,hhigh,rfl⟩,.bounds v l h⟩
      · obtain ⟨hlow,hhigh,rfl⟩ := assemble_between.1 hq
        exact ⟨_,assemble_between.2 ⟨hlow,hhigh,rfl⟩,.bounds v l h⟩
    | [] | [_] | [_,_] | _ :: _ :: _ :: _ :: _ => exact ⟨nofun,nofun⟩

/-- Whatever one expression is put together to from bound parts, the other one is put together to
something related to it. -/
def Follows (n : Names) (R : Expr → Expr → Prop) (e e' : Sql.Expr) : Prop :=
  ∀ bs b, assemble n e bs = .ok b → ∃ b', assemble n e' bs = .ok b' ∧ R b b'

section
variable {e e' : Sql.Expr} {b : Expr} {R : Expr → Expr → Prop} {keys : List Expr} {g g' : Gathered}

theorem Follows.expr (h : Follows n R e e') (hparts : e'.parts = e.parts)
    (hb : expr n clause e = .ok b) : ∃ b', expr n clause e' = .ok b' ∧ R b b' := by
  obtain ⟨bs,hbs,hassemble⟩ := expr_eq_ok_iff.1 hb
  obtain ⟨b',hassemble',hR⟩ := h bs b hassemble
  exact ⟨b',expr_eq_ok_iff.2 ⟨bs,hparts ▸ hbs,hassemble'⟩,hR⟩

/-- Over groups an expression that is no key is bound as a whole if it is constant, and from its
parts otherwise. -/
theorem to_groupedExpr (hcall : e.aggregate? = none) (hname : isColumnName e = false)
    (hkey : ∀ k ∈ keys, expr n clause e ≠ .ok k) :
    gatheringEnds.To g (groupedExpr n keys clause e) g' b ↔
      (e.hasAggregate = false ∧ expr n clause e = .ok b ∧ b.columns = [] ∧ g' = g) ∨
      (e.hasAggregate ∨ ∃ p, expr n clause e = .ok p ∧ p.columns ≠ []) ∧
        ∃ bs, gatheringEnds.Each (groupedExpr n keys clause) g e.parts g' bs ∧
          assemble n e bs = .ok b := by
  rw [groupedExpr,gatheringEnds.exprWith]
  cases hagg : e.hasAggregate with
  | true =>
    have hwhole {g₁ : Gathered} {r : Option Expr} :
        gatheringEnds.To g (groupedWhole n keys clause e) g₁ r ↔ g₁ = g ∧ r = none := by
      simp only [groupedWhole,hcall,hagg,if_true]
      exact gatheringEnds.pure
    constructor
    · rintro ⟨g₁,r,hr,h⟩
      obtain ⟨rfl,rfl⟩ := hwhole.1 hr
      exact .inr ⟨.inl rfl,h⟩
    · rintro (⟨hfalse,-⟩|⟨-,h⟩)
      · cases hfalse
      · exact ⟨g,none,hwhole.2 ⟨rfl,rfl⟩,h⟩
  | false =>
    have hnone (p : Expr) (hp : expr n clause e = .ok p) : keys.idxOf? p = none :=
      List.idxOf?_eq_none_iff.2 fun hk => hkey p hk hp
    constructor
    · rintro ⟨g₁,r,hr,h⟩
      obtain ⟨p,hp,rfl,hcase⟩ := (to_groupedWhole hagg).1 hr
      simp only [hnone p hp] at hcase
      split at hcase
      · rename_i hempty
        subst hcase
        obtain ⟨rfl,rfl⟩ := h
        exact .inl ⟨rfl,hp,hempty,rfl⟩
      · rename_i hne
        obtain ⟨-,rfl⟩ := hcase
        exact .inr ⟨.inr ⟨p,hp,hne⟩,h⟩
    · rintro (⟨-,hb,hempty,rfl⟩|⟨hfalse|⟨p,hp,hne⟩,h⟩)
      · refine ⟨g',some b,(to_groupedWhole hagg).2 ⟨b,hb,rfl,?_⟩,rfl,rfl⟩
        simp only [hnone b hb,if_pos hempty]
      · cases hfalse
      · refine ⟨g,none,(to_groupedWhole hagg).2 ⟨p,hp,rfl,?_⟩,h⟩
        simp only [hnone p hp,if_neg hne]
        exact ⟨hname,trivial⟩

theorem Follows.groupedExpr (h : Follows n R e e') (hparts : e'.parts = e.parts)
    (hagg : e'.hasAggregate = e.hasAggregate)
    (hwhole : (e.aggregate? = none ∧ isColumnName e = false) ∧
      e'.aggregate? = none ∧ isColumnName e' = false)
    (hkey : ∀ k ∈ keys, Binding.expr n clause e ≠ .ok k ∧ Binding.expr n clause e' ≠ .ok k)
    (hcolumns : ∀ p q, R p q → q.occurrences = p.occurrences)
    (hb : gatheringEnds.To g (Binding.groupedExpr n keys clause e) g' b) :
    ∃ b', gatheringEnds.To g (Binding.groupedExpr n keys clause e') g' b' ∧ R b b' := by
  obtain ⟨⟨hcall,hname⟩,hcall',hname'⟩ := hwhole
  have hto {b' : Expr} : gatheringEnds.To g (Binding.groupedExpr n keys clause e') g' b' ↔ _ :=
    to_groupedExpr hcall' hname' fun k hk => (hkey k hk).2
  have hempty {p q : Expr} (hR : R p q) : q.columns = [] ↔ p.columns = [] := by
    rw [Expr.columns_eq_nil_iff,Expr.columns_eq_nil_iff,hcolumns p q hR]
  rcases (to_groupedExpr hcall hname fun k hk => (hkey k hk).1).1 hb with
    ⟨hfalse,hplain,hnil,hg⟩|⟨hsome,bs,hbs,hassemble⟩
  · obtain ⟨b',hb',hR⟩ := h.expr hparts hplain
    exact ⟨b',hto.2 (.inl ⟨hagg ▸ hfalse,hb',(hempty hR).2 hnil,hg⟩),hR⟩
  · obtain ⟨b',hassemble',hR⟩ := h bs b hassemble
    refine ⟨b',hto.2 (.inr ⟨?_,bs,hparts ▸ hbs,hassemble'⟩),hR⟩
    refine hsome.imp (fun h => hagg ▸ h) fun ⟨p,hp,hne⟩ => ?_
    obtain ⟨q,hq,hR⟩ := h.expr hparts hp
    exact ⟨q,hq,fun hnil => hne ((hempty hR).1 hnil)⟩

end

/-- Two expressions are bound alike, to expressions of which one negates the other. -/
def BoundOpposite (To : Sql.Expr → Expr → Prop) (P N : Sql.Expr) : Prop :=
  ((∃ q, To N q) ↔ ∃ p, To P p) ∧ ∀ p q, To P p → To N q → Negates p q

theorem BoundOpposite.intro {To : Sql.Expr → Expr → Prop}
    (hP : ∀ p, To P p → ∃ q, To N q ∧ Opposite p q) (hN : ∀ q, To N q → ∃ p, To P p ∧ Opposite p q)
    (hunique : ∀ q q', To N q → To N q' → q = q') : BoundOpposite To P N := by
  refine ⟨⟨fun ⟨q,hq⟩ => ?_,fun ⟨p,hp⟩ => ?_⟩,fun p q hp hq => ?_⟩
  · exact (hN q hq).imp fun _ h => h.1
  · exact (hP p hp).imp fun _ h => h.1
  · obtain ⟨q',hq',hopposite⟩ := hP p hp
    exact hunique q' q hq' hq ▸ hopposite.negates

theorem Opposed.follows (h : Opposed P N) : Follows n Opposite P N ∧ Follows n (flip Opposite) N P :=
  ⟨fun bs => (h.assemble_iff bs).1,fun bs => (h.assemble_iff bs).2⟩

theorem Opposed.boundOpposite (h : Opposed P N) :
    BoundOpposite (fun e b => expr n clause e = .ok b) P N :=
  .intro (fun _ => h.follows.1.expr h.parts) (fun _ => h.follows.2.expr h.parts.symm)
    fun _ _ hq hq' => Except.ok.inj (hq.symm.trans hq')

theorem Opposed.boundOpposite_grouped (h : Opposed P N) {keys : List Expr}
    (hkey : ∀ k ∈ keys, expr n clause P ≠ .ok k ∧ expr n clause N ≠ .ok k) (g g' : Gathered) :
    BoundOpposite (fun e b => (groupedExpr n keys clause e).run g = .ok (b,g')) P N :=
  .intro
    (fun _ => h.follows.1.groupedExpr h.parts h.hasAggregate h.not_whole hkey
      fun _ _ h => h.occurrences)
    (fun _ => h.follows.2.groupedExpr h.parts.symm h.hasAggregate.symm h.not_whole.symm
      (fun k hk => (hkey k hk).symm) fun _ _ h => h.occurrences.symm)
    fun _ _ hq hq' => congrArg Prod.fst (Except.ok.inj (hq.symm.trans hq'))

/-- Expanded predicates mean what they say. A value that is bound to be in a list equals a member of
it, and one between two bounds is at least the first and at most the second. A predicate and its
negated form are bound under the same circumstances, and one has the negated value of the other. This
also holds over groups, where the same expression has been gathered behind both, unless one of them is a
group key. -/
theorem expanded_predicates (n : Names) (clause : Clause) :
    (∀ e list p, expr n clause (.inList e list false) = .ok p → ∃ v items,
      expr n clause e = .ok v ∧ list.Forall₂ (fun s item => expr n clause s = .ok item) items ∧
      ∀ {α β : Type} [LinearOrder β] (I : Interpretation α) (rank : Value α → β), I.Ordered rank →
        ∀ row, I.semantics.eval row p = .disjunction (items.map fun item =>
          I.operator .eq .boolean [I.semantics.eval row v,I.semantics.eval row item])) ∧
    (∀ e low high p, expr n clause (.between e false low high) = .ok p → ∃ v l h,
      expr n clause e = .ok v ∧ expr n clause low = .ok l ∧ expr n clause high = .ok h ∧
      ∀ {α : Type} (I : Interpretation α) row, I.semantics.eval row p = .conjunction
        [I.operator .gtEq .boolean [I.semantics.eval row v,I.semantics.eval row l],
          I.operator .ltEq .boolean [I.semantics.eval row v,I.semantics.eval row h]]) ∧
    ∀ P N, Opposed P N →
      BoundOpposite (fun e b => expr n clause e = .ok b) P N ∧
      ∀ keys, (∀ k ∈ keys, expr n clause P ≠ .ok k ∧ expr n clause N ≠ .ok k) → ∀ g g',
        BoundOpposite (fun e b => (groupedExpr n keys clause e).run g = .ok (b,g')) P N := by
  refine ⟨fun e list p hp => ?_,fun e low high p hp => ?_,fun P N h =>
    ⟨h.boundOpposite,fun keys hkey g g' => h.boundOpposite_grouped hkey g g'⟩⟩
  · obtain ⟨bs,hbs,hp⟩ := expr_eq_ok_iff.1 hp
    cases hbs with
    | @cons _ v _ items hv hitems =>
      obtain ⟨-,-,rfl⟩ := assemble_inList.1 hp
      exact ⟨v,items,hv,hitems,fun I rank hI row => eval_joined_or hI rfl v items⟩
  · obtain ⟨bs,hbs,hp⟩ := expr_eq_ok_iff.1 hp
    rcases hbs with _|⟨hv,_|⟨hl,_|⟨hh,_|_⟩⟩⟩
    obtain ⟨-,-,rfl⟩ := assemble_between.1 hp
    refine ⟨_,_,_,hv,hl,hh,fun I row => (Interpretation.eval_and _).trans ?_⟩
    simp only [List.map_cons,List.map_nil,lowerComparison,upperComparison,
      Bool.false_eq_true,if_false,eval_compared (show Operator.gtEq.isComparison from rfl),
      eval_compared (show Operator.ltEq.isComparison from rfl)]

section

/-- `total IN (1, NULL)`, or `total NOT IN (1, NULL)` -/
def totalAmong (absent : Bool) : Sql.Expr :=
  .inList (.identifier ⟨"total",none⟩) [.value (.number "1" false),.value .null] absent

def totalIsOne : Expr :=
  .call .or [.call .eq [.column 1 .integer,.literal (.integer 1)] .boolean,
    .call .eq [.column 1 .integer,.literal .null] .boolean] .boolean

def totalIsNotOne : Expr :=
  .call .and [.call .notEq [.column 1 .integer,.literal (.integer 1)] .boolean,
    .call .notEq [.column 1 .integer,.literal .null] .boolean] .boolean

/-- With NULL among the members no total is known to be in none of them. -/
theorem expanded_predicates_totals :
    expr overOrders .whereClause (totalAmong false) = .ok totalIsOne ∧
    expr overOrders .whereClause (totalAmong true) = .ok totalIsNotOne ∧
    wholeNumbers.Ordered Value.wholeNumber ∧
    (∀ row, wholeNumbers.semantics.eval row totalIsNotOne
      = (wholeNumbers.semantics.eval row totalIsOne).negation) ∧
    wholeNumbers.semantics.eval [.datum 7,.datum 1,.datum 3] totalIsOne = .truth true ∧
    wholeNumbers.semantics.eval [.datum 7,.datum 1,.datum 3] totalIsNotOne = .truth false ∧
    wholeNumbers.semantics.eval [.datum 8,.datum 2,.datum 3] totalIsOne = .null ∧
    wholeNumbers.semantics.eval [.datum 8,.datum 2,.datum 3] totalIsNotOne = .null := by
  have hpositive : expr overOrders .whereClause (totalAmong false) = .ok totalIsOne := by decide +kernel
  have hnegated : expr overOrders .whereClause (totalAmong true) = .ok totalIsNotOne := by decide +kernel
  have hexpanded := (expanded_predicates overOrders .whereClause).2.2 _ _
    (Opposed.inList (.identifier ⟨"total",none⟩) [.value (.number "1" false),.value .null])
  exact ⟨hpositive,hnegated,ordered_wholeNumbers,
    fun row => hexpanded.1.2 _ _ hpositive hnegated wholeNumbers _ ordered_wholeNumbers row,
    rfl,rfl,rfl,rfl⟩

end

end Binding
end QueryPlan
