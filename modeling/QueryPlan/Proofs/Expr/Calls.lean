import QueryPlan.Proofs.Except
import QueryPlan.Proofs.Expr.Conjuncts

/-! # Calls built from their operands -/
namespace QueryPlan.Expr

variable {op : Operator} {args : List Expr} {e : Expr}

theorem ofCall_eq_ok_iff : ofCall op args = .ok e ↔ ∃ t, op.resultType? (args.map type) = some t ∧
    e = call op (if op.isConnective then flatOperands op args else args) t := by
  unfold ofCall
  rw [bind_eq_ok_iff]
  refine exists_congr fun t => and_congr Operator.deriveType_eq_ok_iff ?_
  exact ⟨fun h => (Except.ok.inj h).symm,fun h => congrArg Except.ok h.symm⟩

/-- A condition that may stand in a filter or a join. -/
def Condition (e : Expr) : Prop := e.Typed ∧ e.type.isBooleanLike

theorem condition_true : Condition true := ⟨typed_true,rfl⟩

theorem resultType?_connective {types : List SqlType} {t : SqlType} (hop : op.isConnective) :
    op.resultType? types = some t ↔ t = .boolean ∧ 2 ≤ types.length ∧ ∀ s ∈ types, s.isBooleanLike := by
  have hboth : (op.resultType? types
      = if 2 ≤ types.length && types.all SqlType.isBooleanLike then some .boolean else none) := by
    match op,hop with
    | .and,_ => rfl
    | .or,_ => rfl
  simp only [hboth,Option.ite_none_right_eq_some,Bool.and_eq_true,decide_eq_true_eq,List.all_eq_true,
    Option.some.injEq,eq_comm (a := t),and_comm]

/-- A connective makes a condition of two or more conditions. -/
theorem condition_connective {t : SqlType} (hop : op.isConnective) : Condition (call op args t) ↔
    t = .boolean ∧ 2 ≤ args.length ∧ ∀ e ∈ args, Condition e := by
  have hcast : op ≠ .cast := by rintro rfl; cases hop
  unfold Condition
  rw [typed_call,resultType?_connective hop,List.length_map,List.forall_mem_map]
  constructor
  · rintro ⟨⟨h|⟨rfl,hlen,hb⟩,ht⟩,-⟩
    · exact absurd h hcast
    · exact ⟨rfl,hlen,fun e he => ⟨ht e he,hb e he⟩⟩
  · rintro ⟨rfl,hlen,h⟩
    exact ⟨⟨.inr ⟨rfl,hlen,fun e he => (h e he).2⟩,fun e he => (h e he).1⟩,rfl⟩

theorem Condition.conjuncts {e : Expr} (h : Condition e) : ∀ c ∈ e.conjuncts, Condition c :=
  forall_conjuncts (fun _ _ h => ((condition_connective rfl).1 h).2.2) h

/-- Conditions keep their number or grow in it where nested ones are taken apart. -/
theorem Condition.flatOperands {es : List Expr} (hop : op.isConnective)
    (h : ∀ e ∈ es, Condition e) :
    es.length ≤ (flatOperands op es).length ∧ ∀ e ∈ flatOperands op es, Condition e := by
  induction es with
  | nil => simp [Expr.flatOperands]
  | cons e es ih =>
    obtain ⟨he,hes⟩ := List.forall_mem_cons.1 h
    obtain ⟨hlen,hall⟩ := ih hes
    have hhead : 1 ≤ (Expr.flatOperands op [e]).length ∧
        ∀ c ∈ Expr.flatOperands op [e], Condition c := by
      cases e with
      | call inner args t =>
        by_cases hinner : inner = op
        · subst hinner
          obtain ⟨-,hargs,hc⟩ := (condition_connective hop).1 he
          simp only [Expr.flatOperands,List.flatMap_cons,List.flatMap_nil,if_pos,List.append_nil]
          exact ⟨by omega,hc⟩
        · simpa [Expr.flatOperands,hinner] using he
      | _ => simpa [Expr.flatOperands] using he
    have happ : Expr.flatOperands op (e :: es)
        = Expr.flatOperands op [e] ++ Expr.flatOperands op es := by
      simp [Expr.flatOperands]
    rw [happ,List.length_append,List.length_cons]
    exact ⟨by omega,List.forall_mem_append.2 ⟨hhead.2,hall⟩⟩

/-- Conditions put together make a condition. -/
theorem Condition.all {es : List Expr} (h : ∀ e ∈ es, Condition e) : Condition (all es) := by
  match es with
  | [] => exact condition_true
  | [e] => exact h e (by simp)
  | e :: e' :: es =>
    have hand : Operator.and.isConnective := rfl
    obtain ⟨hlen,hall⟩ := Condition.flatOperands hand h
    simp only [List.length_cons] at hlen
    exact (condition_connective rfl).2 ⟨rfl,by omega,hall⟩

theorem Condition.renumber {e : Expr} {f : Nat → Nat} (h : Condition e) :
    Condition (e.renumber f) := ⟨h.1.renumber,by rw [type_renumber]; exact h.2⟩

/-! ## Flat connectives -/

/-- A connective has two operands at least, and none of them is one of its own kind. -/
def ConnectiveFlat : Expr → Prop
  | call op args _ => op.isConnective → 2 ≤ args.length ∧ ∀ nested t, call op nested t ∉ args
  | _ => True

/-- What can be said of every expression that is bound over a row of the given types. -/
structure Bound (types : List SqlType) (e : Expr) : Prop where
  fits : e.Fits types
  typed : e.Typed
  flat : e.Everywhere ConnectiveFlat

namespace Bound
variable {types types' : List SqlType}

theorem literal (v : Literal) : (literal v).Bound types :=
  ⟨fits_literal,typed_literal,by simp [ConnectiveFlat]⟩

theorem column {i : Nat} {t : SqlType} (h : types[i]? = some t) : (column i t).Bound types :=
  ⟨fits_column.2 h,typed_column,by simp [ConnectiveFlat]⟩

theorem cast (he : e.Bound types) (t : SqlType) : (e.cast t).Bound types :=
  ⟨by simpa [Expr.cast] using he.fits,typed_call.2 ⟨.inl rfl,by simpa using he.typed⟩,
    everywhere_call.2 ⟨(nomatch ·),by simpa using he.flat⟩⟩

theorem congr (he : e.Bound types) (h : ∀ i ∈ e.occurrences, types'[i]? = types[i]?) :
    e.Bound types' := ⟨he.fits.congr h,he.typed,he.flat⟩

theorem mono (he : e.Bound types) (h : types <+: types') : e.Bound types' := by
  refine he.congr fun i hi => ?_
  obtain ⟨rest,rfl⟩ := h
  exact List.getElem?_append_left (he.fits.lt i hi)

theorem not_mem_flatOperands (h : ∀ e ∈ args, e.Bound types) (hop : op.isConnective)
    (nested : List Expr) (t : SqlType) : call op nested t ∉ flatOperands op args := by
  intro hc
  obtain ⟨e,he,hc⟩ := List.mem_flatMap.1 hc
  cases e with
  | call inner args' t' =>
    dsimp only at hc
    split at hc
    · rename_i hinner
      subst hinner
      exact ((h _ he).flat.self hop).2 nested t hc
    · rename_i hinner
      cases List.mem_singleton.1 hc
      exact hinner rfl
  | _ => cases List.mem_singleton.1 hc

/-- A call built from bound operands is bound. -/
theorem ofCall (h : ∀ e ∈ args, e.Bound types) (he : ofCall op args = .ok e) : e.Bound types := by
  obtain ⟨t,ht,rfl⟩ := ofCall_eq_ok_iff.1 he
  split
  · rename_i hop
    have htyped : (call op args t).Typed := typed_call.2 ⟨.inr ht,fun e he => (h e he).typed⟩
    have hboolean : t.isBooleanLike := by
      rw [((resultType?_connective hop).1 ht).1]
      rfl
    obtain ⟨rfl,hlen,hargs⟩ := (condition_connective hop).1 ⟨htyped,hboolean⟩
    obtain ⟨hgrown,hall⟩ := Condition.flatOperands hop hargs
    have hcall := (condition_connective hop).2 ⟨rfl,Nat.le_trans hlen hgrown,hall⟩
    exact ⟨fits_call.2 (Everywhere.flatOperands fun e he => (h e he).fits),hcall.1,
      everywhere_call.2 ⟨fun _ => ⟨Nat.le_trans hlen hgrown,not_mem_flatOperands h hop⟩,
        Everywhere.flatOperands fun e he => (h e he).flat⟩⟩
  · rename_i hop
    exact ⟨fits_call.2 fun e he => (h e he).fits,typed_call.2 ⟨.inr ht,fun e he => (h e he).typed⟩,
      everywhere_call.2 ⟨fun h => absurd h hop,fun e he => (h e he).flat⟩⟩

end Bound
end QueryPlan.Expr
