import QueryPlan.Proofs.Expr.Calls
import QueryPlan.Proofs.Meaning.Expr

/-! # Expressions under any meaning of their operators

Literals and operators stand for arbitrary functions here, truth values and connectives included.
What rewrites conjunctions and disjunctions only asks of these to be associative, as those of
three-valued logic are. -/
namespace QueryPlan

/-- A connective has two operands at least and is a truth value. -/
def Expr.Connected : Expr → Prop
  | call op args t => op.isConnective → t = .boolean ∧ 2 ≤ args.length
  | _ => True

theorem Expr.length_flatOperands {op : Operator} {args : List Expr} (hop : op.isConnective)
    (h : ∀ e ∈ args, e.Connected) : args.length ≤ (flatOperands op args).length := by
  induction args with
  | nil => exact Nat.zero_le _
  | cons e es ih =>
    obtain ⟨he,hes⟩ := List.forall_mem_cons.1 h
    have hhead : 1 ≤ (flatOperands op [e]).length := by
      cases e with
      | call inner nested t =>
        by_cases hinner : inner = op
        · subst hinner
          have := (he hop).2
          simp only [flatOperands,List.flatMap_cons,List.flatMap_nil,if_pos,List.append_nil]
          omega
        · simp [flatOperands,hinner]
      | _ => simp [flatOperands]
    have happ : flatOperands op (e :: es) = flatOperands op [e] ++ flatOperands op es := by
      simp [flatOperands]
    rw [happ,List.length_append,List.length_cons]
    have := ih hes
    omega

theorem Expr.Connected.ofCall {op : Operator} {args : List Expr} {e : Expr}
    (hargs : ∀ e ∈ args, e.Connected) (h : ofCall op args = .ok e) : e.Connected := by
  obtain ⟨t,ht,rfl⟩ := ofCall_eq_ok_iff.1 h
  intro hop
  obtain ⟨rfl,hlen,-⟩ := (resultType?_connective hop).1 ht
  rw [if_pos hop]
  rw [List.length_map] at hlen
  exact ⟨rfl,hlen.trans (length_flatOperands hop hargs)⟩

theorem Expr.Bound.connected {types : List SqlType} {e : Expr} (h : e.Bound types) :
    e.Connected := by
  cases e with
  | call op args t =>
    intro hop
    have hcast : op ≠ .cast := by
      rintro rfl
      cases hop
    obtain ht := (typed_call.1 h.typed).1.resolve_left hcast
    exact ⟨((resultType?_connective hop).1 ht).1,(h.flat.self hop).1⟩
  | _ => trivial

/-- What literals, operators and columns that a row lacks stand for. -/
structure Semantics (V : Type) where
  literal : Literal → V
  call : Operator → SqlType → List V → V
  missing : V

namespace Semantics
variable {V : Type}

mutual
/-- The value of an expression over a row. -/
def eval (S : Semantics V) (row : List V) : Expr → V
  | .column i _ => row.getD i S.missing
  | .literal v => S.literal v
  | .call op args t => S.call op t (S.evalAll row args)
def evalAll (S : Semantics V) (row : List V) : List Expr → List V
  | [] => []
  | e :: es => S.eval row e :: S.evalAll row es
end

/-- A conjunction or disjunction among the operands of another one of its kind may be replaced by
its own operands. -/
def Associative (S : Semantics V) : Prop := ∀ op : Operator, op.isConnective → ∀ before vs after,
  2 ≤ vs.length → S.call op .boolean (before ++ S.call op .boolean vs :: after)
    = S.call op .boolean (before ++ vs ++ after)

variable {S : Semantics V} {row : List V} {op : Operator} {args : List Expr} {e : Expr}

@[simp] theorem evalAll_eq_map (es : List Expr) : S.evalAll row es = es.map (S.eval row) := by
  induction es with
  | nil => rfl
  | cons e es ih => simp [evalAll,ih]

@[simp] theorem eval_call (op : Operator) (args : List Expr) (t : SqlType) :
    S.eval row (.call op args t) = S.call op t (args.map (S.eval row)) := by simp [eval]

/-- A renumbered expression has its value over any row that has its columns in the new places. -/
theorem eval_renumber {row' : List V} {f : Nat → Nat}
    (h : ∀ i ∈ e.occurrences, row'.getD (f i) S.missing = row.getD i S.missing) :
    S.eval row' (e.renumber f) = S.eval row e := by
  induction e using Expr.induct with
  | column i t => exact h i List.mem_cons_self
  | literal v => rfl
  | call op args t ih =>
    rw [Expr.renumber_call,eval_call,eval_call,List.map_map]
    refine congrArg _ (List.map_congr_left fun a ha => ih a ha fun i hi => h i ?_)
    rw [Expr.occurrences_call]
    exact List.mem_flatMap.2 ⟨a,ha,hi⟩

/-- An expression without columns has the same value over all rows. -/
theorem eval_of_columns_eq_nil {row' : List V} (h : e.columns = []) :
    S.eval row' e = S.eval row e := by
  have hocc (i : Nat) : i ∉ e.occurrences := fun hi => by simpa [h] using Expr.mem_columns.2 hi
  have hmoved : S.eval row' (e.renumber id) = S.eval row e :=
    eval_renumber fun i hi => absurd hi (hocc i)
  rwa [Expr.renumber_id] at hmoved

/-- Operands of nested connectives may stand for these behind any others. -/
theorem call_flatOperands (hS : S.Associative) (hop : op.isConnective)
    (hargs : ∀ e ∈ args, e.Connected) (before : List V) :
    S.call op .boolean (before ++ (Expr.flatOperands op args).map (S.eval row))
      = S.call op .boolean (before ++ args.map (S.eval row)) := by
  induction args generalizing before with
  | nil => rfl
  | cons e es ih =>
    obtain ⟨he,hes⟩ := List.forall_mem_cons.1 hargs
    have happ : Expr.flatOperands op (e :: es)
        = Expr.flatOperands op [e] ++ Expr.flatOperands op es := by simp [Expr.flatOperands]
    rw [happ,List.map_append,← List.append_assoc,ih hes,List.map_cons]
    by_cases hnested : ∃ nested t, e = .call op nested t
    · obtain ⟨nested,t,rfl⟩ := hnested
      obtain ⟨rfl,hlen⟩ := he hop
      have hflat : Expr.flatOperands op [.call op nested .boolean] = nested := by
        simp [Expr.flatOperands]
      rw [hflat,eval_call,hS op hop before _ _ (by simpa using hlen)]
    · have hflat : Expr.flatOperands op [e] = [e] := by
        cases e with
        | call inner nested t =>
          have : inner ≠ op := by
            rintro rfl
            exact hnested ⟨nested,t,rfl⟩
          simp [Expr.flatOperands,this]
        | _ => simp [Expr.flatOperands]
      simp [hflat]

/-- Taking nested connectives apart leaves the value of a call. -/
theorem eval_ofCall (hS : S.Associative) (hargs : ∀ e ∈ args, e.Connected)
    (h : Expr.ofCall op args = .ok e) :
    S.eval row e = S.call op e.type (args.map (S.eval row)) := by
  obtain ⟨t,ht,rfl⟩ := Expr.ofCall_eq_ok_iff.1 h
  rw [eval_call]
  split
  · rename_i hop
    obtain rfl := ((Expr.resultType?_connective hop).1 ht).1
    exact call_flatOperands hS hop hargs []
  · rfl

end Semantics

/-! ## Three-valued logic -/

namespace Value
variable {α : Type}

/-- The disjunction of three-valued logic: TRUE if any operand is, FALSE if all are. -/
def disjunction (vs : List (Value α)) : Value α :=
  if vs.any isTrue then truth true else if vs.all isFalse then truth false else null

theorem isFalse_conjunction (vs : List (Value α)) : (conjunction vs).isFalse = vs.any isFalse := by
  unfold conjunction
  split
  · rename_i h
    exact h.symm
  · rename_i h
    split <;> exact (Bool.not_eq_true _ ▸ h : vs.any isFalse = false).symm

theorem isTrue_disjunction (vs : List (Value α)) : (disjunction vs).isTrue = vs.any isTrue := by
  unfold disjunction
  split
  · rename_i h
    exact h.symm
  · rename_i h
    split <;> exact (Bool.not_eq_true _ ▸ h : vs.any isTrue = false).symm

theorem isFalse_disjunction (vs : List (Value α)) :
    (disjunction vs).isFalse ↔ ∀ v ∈ vs, v.isFalse := by
  unfold disjunction
  split
  · rename_i h
    obtain ⟨v,hv,ht⟩ := List.any_eq_true.1 h
    simp only [isFalse,Bool.not_true,Bool.false_eq_true,false_iff,not_forall]
    exact ⟨v,hv,by cases v <;> simp_all [isTrue]⟩
  · split
    · rename_i h
      simpa [isFalse] using h
    · rename_i h
      simpa [isFalse] using h

theorem conjunction_append (before vs after : List (Value α)) :
    conjunction (before ++ conjunction vs :: after) = conjunction (before ++ vs ++ after) := by
  have hfalse : (before ++ conjunction vs :: after).any isFalse
      = (before ++ vs ++ after).any isFalse := by simp [isFalse_conjunction]
  have htrue : (before ++ conjunction vs :: after).all isTrue
      = (before ++ vs ++ after).all isTrue := by
    rw [Bool.eq_iff_iff]
    simp
  rw [conjunction,hfalse,htrue]
  rfl

theorem disjunction_append (before vs after : List (Value α)) :
    disjunction (before ++ disjunction vs :: after) = disjunction (before ++ vs ++ after) := by
  have htrue : (before ++ disjunction vs :: after).any isTrue
      = (before ++ vs ++ after).any isTrue := by simp [isTrue_disjunction]
  have hfalse : (before ++ disjunction vs :: after).all isFalse
      = (before ++ vs ++ after).all isFalse := by
    rw [Bool.eq_iff_iff]
    simp [isFalse_disjunction]
  rw [disjunction,htrue,hfalse]
  rfl

end Value

namespace Interpretation
variable {α : Type}

/-- An interpretation that gives disjunctions their meaning in three-valued logic, too. -/
def semantics (I : Interpretation α) : Semantics (Value α) where
  literal := I.literalValue
  call op t vs := if op = .or then .disjunction vs else I.call op t vs
  missing := .null

theorem semantics_associative (I : Interpretation α) : I.semantics.Associative := by
  intro op hop before vs after _
  match op,hop with
  | .and,_ => exact Value.conjunction_append before vs after
  | .or,_ => exact Value.disjunction_append before vs after

end Interpretation
end QueryPlan
