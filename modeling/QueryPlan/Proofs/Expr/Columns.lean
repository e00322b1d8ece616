import QueryPlan.Expr.Basic
import Mathlib.Data.List.Nodup

/-! # Subterms, columns and renumbering of row expressions

The recursions over an expression and the list of its operands are brought into the operators of
lists, and the columns an expression collects are compared with those that occur in it. -/
namespace QueryPlan.Expr

/-- Induction over an expression and all its operands. -/
@[elab_as_elim]
theorem induct {P : Expr → Prop} (column : ∀ i t, P (.column i t)) (literal : ∀ v, P (.literal v))
    (call : ∀ op args t, (∀ e ∈ args, P e) → P (.call op args t)) : ∀ e, P e
  | .column i t => column i t
  | .literal v => literal v
  | .call op args t => call op args t fun e _ => induct column literal call e

mutual
/-- An expression and all operands below it. -/
def subterms : Expr → List Expr
  | column i t => [column i t]
  | literal v => [literal v]
  | call op args t => call op args t :: subtermsOf args
def subtermsOf : List Expr → List Expr
  | [] => []
  | e :: es => e.subterms ++ subtermsOf es
end

theorem subtermsOf_eq_flatMap (es : List Expr) : subtermsOf es = es.flatMap subterms := by
  induction es with
  | nil => rfl
  | cons e es ih => simp [subtermsOf,ih]

/-- A property of an expression and of all operands below it. -/
def Everywhere (P : Expr → Prop) (e : Expr) : Prop := ∀ s ∈ e.subterms, P s

instance (P : Expr → Prop) [DecidablePred P] : DecidablePred (Everywhere P) :=
  fun e => inferInstanceAs (Decidable (∀ s ∈ e.subterms, P s))

variable {P : Expr → Prop}

@[simp] theorem everywhere_column {i : Nat} {t : SqlType} :
    (column i t).Everywhere P ↔ P (column i t) := by simp [Everywhere,subterms]

@[simp] theorem everywhere_literal {v : Literal} : (literal v).Everywhere P ↔ P (literal v) := by
  simp [Everywhere,subterms]

@[simp] theorem everywhere_call {op : Operator} {args : List Expr} {t : SqlType} :
    (call op args t).Everywhere P ↔ P (call op args t) ∧ ∀ e ∈ args, e.Everywhere P := by
  simp only [Everywhere,subterms,subtermsOf_eq_flatMap,List.forall_mem_cons,List.mem_flatMap]
  constructor
  · rintro ⟨h,hs⟩
    exact ⟨h,fun e he s hse => hs s ⟨e,he,hse⟩⟩
  · rintro ⟨h,hs⟩
    exact ⟨h,fun s ⟨e,he,hse⟩ => hs e he s hse⟩

theorem Everywhere.self {e : Expr} (h : e.Everywhere P) : P e := by
  cases e with
  | column i t => exact everywhere_column.1 h
  | literal v => exact everywhere_literal.1 h
  | call op args t => exact (everywhere_call.1 h).1

/-! ## Renumbering -/

@[simp] theorem renumberAll_eq_map (f : Nat → Nat) (es : List Expr) :
    renumberAll f es = es.map (renumber f) := by
  induction es with
  | nil => rfl
  | cons e es ih => simp [renumberAll,ih]

@[simp] theorem renumber_call (f : Nat → Nat) (op : Operator) (args : List Expr) (t : SqlType) :
    (call op args t).renumber f = call op (args.map (renumber f)) t := by simp [renumber]

@[simp] theorem type_renumber (f : Nat → Nat) (e : Expr) : (e.renumber f).type = e.type := by
  cases e <;> simp [renumber,type]

/-! ## Columns in order of first reference -/

mutual
/-- The columns of an expression as they are met from left to right, with repetitions. -/
def occurrences : Expr → List Nat
  | column i _ => [i]
  | literal _ => []
  | call _ args _ => occurrencesOf args
def occurrencesOf : List Expr → List Nat
  | [] => []
  | e :: es => e.occurrences ++ occurrencesOf es
end

@[simp] theorem occurrencesOf_eq_flatMap (es : List Expr) :
    occurrencesOf es = es.flatMap occurrences := by
  induction es with
  | nil => rfl
  | cons e es ih => simp [occurrencesOf,ih]

@[simp] theorem occurrences_call (op : Operator) (args : List Expr) (t : SqlType) :
    (call op args t).occurrences = args.flatMap occurrences := by simp [occurrences]

theorem occurrences_renumber (f : Nat → Nat) (e : Expr) :
    (e.renumber f).occurrences = e.occurrences.map f := by
  induction e using induct with
  | column i t => rfl
  | literal v => rfl
  | call op args t ih =>
    rw [renumber_call,occurrences_call,occurrences_call,List.map_flatMap,List.flatMap_map]
    exact List.flatMap_congr ih

theorem mem_occurrences_renumber {f : Nat → Nat} {e : Expr} {i : Nat} (h : i ∈ e.occurrences) :
    f i ∈ (e.renumber f).occurrences := by
  rw [occurrences_renumber]
  exact List.mem_map_of_mem h

/-- Adds a column behind those already seen. -/
def addColumn (seen : List Nat) (i : Nat) : List Nat := if i ∈ seen then seen else seen ++ [i]

mutual
theorem addColumns_eq_foldl (seen : List Nat) :
    (e : Expr) → addColumns seen e = e.occurrences.foldl addColumn seen
  | column i t => rfl
  | literal v => rfl
  | call op args t => by
    simp only [addColumns,occurrences]
    exact addColumnsOf_eq_foldl seen args
theorem addColumnsOf_eq_foldl (seen : List Nat) :
    (es : List Expr) → addColumnsOf seen es = (occurrencesOf es).foldl addColumn seen
  | [] => rfl
  | e :: es => by
    simp only [addColumnsOf,occurrencesOf,List.foldl_append]
    rw [addColumns_eq_foldl seen e,addColumnsOf_eq_foldl _ es]
end

theorem mem_foldl_addColumn {seen is : List Nat} {i : Nat} :
    i ∈ is.foldl addColumn seen ↔ i ∈ seen ∨ i ∈ is := by
  induction is generalizing seen with
  | nil => simp
  | cons j is ih =>
    rw [List.foldl_cons,ih,addColumn]
    split
    · rename_i h
      constructor
      · rintro (h'|h')
        · exact .inl h'
        · exact .inr (List.mem_cons_of_mem j h')
      · rintro (h'|h')
        · exact .inl h'
        · rcases List.mem_cons.1 h' with rfl|h'
          · exact .inl h
          · exact .inr h'
    · simp [or_assoc]

theorem nodup_foldl_addColumn {seen is : List Nat} (h : seen.Nodup) :
    (is.foldl addColumn seen).Nodup := by
  induction is generalizing seen with
  | nil => exact h
  | cons j is ih =>
    refine ih ?_
    unfold addColumn
    split
    · exact h
    · rename_i hj
      exact h.append (List.nodup_singleton j) (by simpa using hj)

@[simp] theorem mem_addColumns {seen : List Nat} {e : Expr} {i : Nat} :
    i ∈ addColumns seen e ↔ i ∈ seen ∨ i ∈ e.occurrences := by
  rw [addColumns_eq_foldl,mem_foldl_addColumn]

@[simp] theorem mem_addColumnsOf {seen : List Nat} {es : List Expr} {i : Nat} :
    i ∈ addColumnsOf seen es ↔ i ∈ seen ∨ ∃ e ∈ es, i ∈ e.occurrences := by
  rw [addColumnsOf_eq_foldl,mem_foldl_addColumn,occurrencesOf_eq_flatMap,List.mem_flatMap]

@[simp] theorem mem_columns {e : Expr} {i : Nat} : i ∈ e.columns ↔ i ∈ e.occurrences := by
  simp [columns]

theorem nodup_addColumns {seen : List Nat} (h : seen.Nodup) (e : Expr) :
    (addColumns seen e).Nodup := by
  rw [addColumns_eq_foldl]
  exact nodup_foldl_addColumn h

theorem nodup_addColumnsOf {seen : List Nat} (h : seen.Nodup) (es : List Expr) :
    (addColumnsOf seen es).Nodup := by
  rw [addColumnsOf_eq_foldl]
  exact nodup_foldl_addColumn h

theorem columns_eq_nil_iff {e : Expr} : e.columns = [] ↔ e.occurrences = [] := by
  simp only [List.eq_nil_iff_forall_not_mem,mem_columns]

@[simp] theorem renumber_id (e : Expr) : e.renumber id = e := by
  induction e using induct with
  | column i t => rfl
  | literal v => rfl
  | call op args t ih =>
    rw [renumber_call]
    congr 1
    exact (List.map_congr_left fun e he => ih e he).trans (List.map_id' args)

theorem renumber_renumber (f g : Nat → Nat) (e : Expr) :
    (e.renumber f).renumber g = e.renumber (g ∘ f) := by
  induction e using induct with
  | column i t => rfl
  | literal v => rfl
  | call op args t ih =>
    rw [renumber_call,renumber_call,renumber_call,List.map_map]
    congr 1
    exact List.map_congr_left fun e he => ih e he

theorem renumber_congr {f g : Nat → Nat} {e : Expr} (h : ∀ i ∈ e.occurrences, f i = g i) :
    e.renumber f = e.renumber g := by
  induction e using induct with
  | column i t => rw [renumber,renumber,h i (by simp [occurrences])]
  | literal v => rfl
  | call op args t ih =>
    rw [renumber_call,renumber_call]
    congr 1
    refine List.map_congr_left fun e he => ih e he fun i hi => h i ?_
    rw [occurrences_call]
    exact List.mem_flatMap.2 ⟨e,he,hi⟩

/-- Columns that are shifted down by no more than their numbers can be shifted up again. -/
theorem shiftUp_shiftDown {offset : Nat} {e : Expr} (h : ∀ i ∈ e.occurrences, offset ≤ i) :
    (e.shiftDown offset).shiftUp offset = e := by
  rw [shiftUp,shiftDown,renumber_renumber]
  exact (renumber_congr fun i hi => Nat.sub_add_cancel (h i hi)).trans (renumber_id e)

/-! ## Conjuncts -/

theorem conjunctsOf_eq_flatMap (es : List Expr) : conjunctsOf es = es.flatMap conjuncts := by
  induction es with
  | nil => rfl
  | cons e es ih => simp [conjunctsOf,ih]

end QueryPlan.Expr
