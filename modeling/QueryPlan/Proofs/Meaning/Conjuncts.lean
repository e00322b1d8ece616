import QueryPlan.Proofs.Expr.Conjuncts
import QueryPlan.Proofs.Meaning.Comparison

/-! # Conditions in normal form

A condition comes apart into conjuncts that do not come apart any further. Put together they make a
condition that is TRUE over the same rows, refers to the same columns in the same order and comes apart
into the very same conjuncts. -/
namespace QueryPlan

namespace Expr

theorem undivided_of_mem_conjuncts {e c : Expr} (h : c ∈ e.conjuncts) :
    (∀ args t, c ≠ call .and args t) ∧ c ≠ true := by
  induction e using induct with
  | column i t =>
    rw [List.mem_singleton.1 h]
    exact ⟨nofun,nofun⟩
  | literal v =>
    by_cases htrue : literal v = true
    · rw [htrue] at h
      cases h
    · rw [conjuncts_literal htrue] at h
      rw [List.mem_singleton.1 h]
      exact ⟨nofun,htrue⟩
  | call op args t ih =>
    by_cases hop : op = .and
    · subst hop
      rw [conjuncts_and] at h
      obtain ⟨e,he,hc⟩ := List.mem_flatMap.1 h
      exact ih e he hc
    · rw [conjuncts_call_of_ne hop] at h
      rw [List.mem_singleton.1 h]
      exact ⟨fun _ _ heq => hop (call.inj heq).1,nofun⟩

/-! ## Columns of the conjuncts -/

theorem occurrences_all (es : List Expr) : (all es).occurrences = es.flatMap occurrences := by
  match es with
  | [] => rfl
  | [e] => exact (List.flatMap_singleton _ _).symm
  | e :: e' :: es =>
    change (call .and (flatOperands .and (e :: e' :: es)) .boolean).occurrences = _
    rw [occurrences_call,flatMap_flatOperands (occurrences_call .and)]

/-- TRUE refers to no column, so none is lost where it is left out. -/
theorem flatMap_occurrences_conjuncts (e : Expr) : e.conjuncts.flatMap occurrences = e.occurrences := by
  induction e using induct with
  | column i t => rfl
  | literal v =>
    by_cases htrue : literal v = true
    · rw [htrue]
      rfl
    · rw [conjuncts_literal htrue]
      rfl
  | call op args t ih =>
    by_cases hop : op = .and
    · subst hop
      rw [conjuncts_and,List.flatMap_assoc,occurrences_call]
      exact List.flatMap_congr ih
    · rw [conjuncts_call_of_ne hop,List.flatMap_singleton]

theorem columns_all_conjuncts (e : Expr) : (all e.conjuncts).columns = e.columns := by
  rw [columns,columns,addColumns_eq_foldl,addColumns_eq_foldl,occurrences_all,
    flatMap_occurrences_conjuncts]

/-- The conjuncts of a condition are its normal form, for operands of any number and any kind. None of
them is a conjunction or TRUE. Put together they come apart into themselves, refer to the columns of the
condition in the order of its first references, and are TRUE over the rows over which it is TRUE. -/
theorem conjuncts_normal (e : Expr) :
    (∀ c ∈ e.conjuncts, (∀ args t, c ≠ call .and args t) ∧ c ≠ true) ∧
    (all e.conjuncts).conjuncts = e.conjuncts ∧
    (all e.conjuncts).columns = e.columns ∧
    ∀ {α : Type} (I : Interpretation α) (row : Row α),
      I.holds (all e.conjuncts) row ↔ I.holds e row :=
  ⟨fun _ => undivided_of_mem_conjuncts,conjuncts_all_of_conjuncts fun _ => conjuncts_of_mem,
    columns_all_conjuncts e,fun _ _ => Interpretation.holds_all.trans Interpretation.holds_conjuncts⟩

/-- A conjunction of a conjunction without operands, one of a single operand and one that takes in
TRUE, a number and a conjunction below. -/
def unevenCondition : Expr :=
  .call .and [.call .and [] .boolean,
    .call .and [.column 2 .boolean] .boolean,
    .call .and [.true,.literal (.integer 7),
      .call .and [.column 0 .boolean,.call .or [.column 2 .boolean,.true] .boolean] .null] .integer]
    .boolean

theorem conjuncts_normal_unevenCondition :
    .column 2 .boolean ∈ unevenCondition.conjuncts ∧
    (∀ args t, column 2 .boolean ≠ call .and args t) ∧ column 2 .boolean ≠ true ∧
    (all unevenCondition.conjuncts).conjuncts = [.column 2 .boolean,.literal (.integer 7),
      .column 0 .boolean,.call .or [.column 2 .boolean,.true] .boolean] ∧
    (all unevenCondition.conjuncts).columns = [2,0] ∧
    (wholeNumbers.holds (all unevenCondition.conjuncts) [.truth Bool.true,.null] ↔
      wholeNumbers.holds unevenCondition [.truth Bool.true,.null]) := by
  have hmem : .column 2 .boolean ∈ unevenCondition.conjuncts := List.mem_cons_self
  obtain ⟨hundivided,hconjuncts,hcolumns,hholds⟩ := conjuncts_normal unevenCondition
  exact ⟨hmem,(hundivided _ hmem).1,(hundivided _ hmem).2,hconjuncts,hcolumns,
    hholds wholeNumbers [.truth Bool.true,.null]⟩

end Expr
end QueryPlan
