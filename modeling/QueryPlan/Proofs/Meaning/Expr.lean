import QueryPlan.Proofs.Expr.Columns
import QueryPlan.Relation.Aggregate
import Mathlib.Data.Multiset.Bind

/-! # What expressions mean

Expressions are evaluated over a row of values. Truth values, NULL and the conjunction of any number
of operands have their meaning fixed; all other literals, operators and the aggregate functions
stand for arbitrary functions. -/
namespace QueryPlan

inductive Value (α : Type) where
  | truth (b : Bool)
  | null
  | datum (a : α)

namespace Value
variable {α : Type}

def isTrue : Value α → Bool
  | truth b => b
  | _ => false

def isFalse : Value α → Bool
  | truth b => !b
  | _ => false

/-- The conjunction of three-valued logic: FALSE if any operand is, TRUE if all are. -/
def conjunction (vs : List (Value α)) : Value α :=
  if vs.any isFalse then truth false else if vs.all isTrue then truth true else null

@[simp] theorem isTrue_conjunction (vs : List (Value α)) :
    (conjunction vs).isTrue ↔ ∀ v ∈ vs, v.isTrue := by
  unfold conjunction
  split
  · rename_i h
    obtain ⟨v,hv,hf⟩ := List.any_eq_true.1 h
    simp only [isTrue,Bool.false_eq_true,false_iff,not_forall]
    exact ⟨v,hv,by cases v <;> simp_all [isFalse]⟩
  · split
    · rename_i h
      simpa [isTrue] using h
    · rename_i h
      simpa [isTrue] using h

end Value

abbrev Row (α : Type) := List (Value α)

/-- What numbers, strings, dates, operators and aggregate functions stand for. An aggregate function
is applied to the bag of its argument rows and told whether these count once each. -/
structure Interpretation (α : Type) where
  literal : Literal → Value α
  operator : Operator → SqlType → List (Value α) → Value α
  aggregate : AggregateFunction → Bool → Multiset (Row α) → Value α

namespace Interpretation
variable {α : Type} (I : Interpretation α)

def literalValue : Literal → Value α
  | .boolean b => .truth b
  | .null => .null
  | v => I.literal v

/-- A call of a given result type over the values of its operands. -/
def call (op : Operator) (t : SqlType) (vs : List (Value α)) : Value α :=
  if op = .and then .conjunction vs else I.operator op t vs

mutual
/-- The value of an expression over a row. -/
def eval (row : Row α) : Expr → Value α
  | .column i _ => row.getD i .null
  | .literal v => I.literalValue v
  | .call op args t => I.call op t (evalAll row args)
def evalAll (row : Row α) : List Expr → List (Value α)
  | [] => []
  | e :: es => eval row e :: evalAll row es
end

/-- A row passes a condition that is TRUE over it. -/
def holds (condition : Expr) (row : Row α) : Prop := (I.eval row condition).isTrue = true

variable {I} {row row' : Row α}

@[simp] theorem evalAll_eq_map (es : List Expr) : I.evalAll row es = es.map (I.eval row) := by
  induction es with
  | nil => rfl
  | cons e es ih => simp [evalAll,ih]

@[simp] theorem eval_column (i : Nat) (t : SqlType) : I.eval row (.column i t) = row.getD i .null := rfl

@[simp] theorem eval_call (op : Operator) (args : List Expr) (t : SqlType) :
    I.eval row (.call op args t) = I.call op t (args.map (I.eval row)) := by simp [eval]

/-- Renumbering an expression leaves its value over a row with the columns moved alike. -/
theorem eval_renumber {f : Nat → Nat} {e : Expr}
    (h : ∀ i ∈ e.occurrences, row'.getD (f i) .null = row.getD i .null) :
    I.eval row' (e.renumber f) = I.eval row e := by
  induction e using Expr.induct with
  | column i t => exact h i (by simp [Expr.occurrences])
  | literal v => rfl
  | call op args t ih =>
    simp only [Expr.renumber_call,eval_call,List.map_map]
    congr 1
    refine List.map_congr_left fun e he => ih e he fun i hi => h i ?_
    rw [Expr.occurrences_call]
    exact List.mem_flatMap.2 ⟨e,he,hi⟩

/-- The value of an expression hangs on the columns it refers to and on no others. -/
theorem eval_congr {e : Expr} (h : ∀ i ∈ e.occurrences, row'.getD i .null = row.getD i .null) :
    I.eval row' e = I.eval row e := by
  have hr := eval_renumber (I := I) (f := id) h
  rwa [Expr.renumber_id] at hr

@[simp] theorem holds_true : I.holds .true row := rfl

theorem holds_and {args : List Expr} {t : SqlType} :
    I.holds (.call .and args t) row ↔ ∀ e ∈ args, I.holds e row := by
  simp [holds,call]

/-- A condition is TRUE exactly where all its conjuncts are. -/
theorem holds_conjuncts {e : Expr} : (∀ c ∈ e.conjuncts, I.holds c row) ↔ I.holds e row := by
  induction e using Expr.induct with
  | column i t => simp [Expr.conjuncts]
  | literal v =>
    cases v with
    | boolean b => cases b <;> simp [Expr.conjuncts,holds,eval,literalValue,Value.isTrue]
    | _ => simp [Expr.conjuncts]
  | call op args t ih =>
    by_cases hop : op = .and
    · subst hop
      rw [holds_and,Expr.conjuncts,Expr.conjunctsOf_eq_flatMap]
      simp only [List.mem_flatMap]
      constructor
      · intro h e he
        exact (ih e he).1 fun c hc => h c ⟨e,he,hc⟩
      · rintro h c ⟨e,he,hc⟩
        exact (ih e he).2 (h e he) c hc
    · have hc : (Expr.call op args t).conjuncts = [.call op args t] := by
        cases op <;> first | rfl | exact absurd rfl hop
      simp [hc]

/-- Operands of nested conjunctions hold exactly where the conjunctions do. -/
theorem holds_flatOperands {es : List Expr} :
    (∀ e ∈ Expr.flatOperands .and es, I.holds e row) ↔ ∀ e ∈ es, I.holds e row := by
  induction es with
  | nil => simp [Expr.flatOperands]
  | cons e es ih =>
    have hhead : (∀ c ∈ Expr.flatOperands .and [e], I.holds c row) ↔ I.holds e row := by
      cases e with
      | call op args t =>
        by_cases hop : op = .and
        · subst hop
          simp [Expr.flatOperands,holds_and]
        · simp [Expr.flatOperands,hop]
      | _ => simp [Expr.flatOperands]
    have happ : Expr.flatOperands .and (e :: es)
        = Expr.flatOperands .and [e] ++ Expr.flatOperands .and es := by
      simp [Expr.flatOperands]
    rw [happ,List.forall_mem_cons]
    simp only [List.mem_append,or_imp,forall_and]
    rw [hhead,ih]

/-- The conjunction of a list is TRUE exactly where all its members are. -/
theorem holds_all {es : List Expr} : I.holds (.all es) row ↔ ∀ e ∈ es, I.holds e row := by
  match es with
  | [] => simp [Expr.all]
  | [e] => simp [Expr.all]
  | e :: e' :: es =>
    change I.holds (.call .and (Expr.flatOperands .and (e :: e' :: es)) .boolean) row ↔ _
    rw [holds_and,holds_flatOperands]

end Interpretation
end QueryPlan
