import Mathlib.Data.Set.Function
import QueryPlan.Proofs.Meaning.Algebra
import QueryPlan.Proofs.Meaning.Picking

/-! # References collected and renumbered

Rules that narrow a row collect the columns that expressions refer to and then renumber each reference
to the place of its column among those collected. Collecting puts the columns in the order of the
first references, renumbering goes along with it, and over the narrow row the renumbered expressions
have the values they had before. -/
namespace QueryPlan

/-- All that is met, each once, in the order in which it is met first. -/
structure InFirstOrder (met collected : List Nat) : Prop where
  nodup : collected.Nodup
  mem_iff : ∀ i, i ∈ collected ↔ i ∈ met
  ordered : collected.Pairwise fun i j => met.idxOf i < met.idxOf j

namespace Expr

variable {met seen is : List Nat} {f : Nat → Nat} {i : Nat}

/-! ## Order of first reference -/

theorem inFirstOrder_nil : InFirstOrder [] [] := ⟨List.nodup_nil,fun _ => Iff.rfl,.nil⟩

/-- A column that is met behind all others goes behind them, unless it was met before. -/
theorem inFirstOrder_addColumn (h : InFirstOrder met seen) (i : Nat) :
    InFirstOrder (met ++ [i]) (addColumn seen i) := by
  have hkept : ∀ j ∈ seen, (met ++ [i]).idxOf j = met.idxOf j := fun j hj =>
    List.idxOf_append_of_mem ((h.mem_iff j).1 hj)
  have hordered : seen.Pairwise fun j k => (met ++ [i]).idxOf j < (met ++ [i]).idxOf k :=
    h.ordered.imp_of_mem fun hj hk hlt => by rwa [hkept _ hj,hkept _ hk]
  unfold addColumn
  split
  · rename_i hi
    refine ⟨h.nodup,fun j => ?_,hordered⟩
    rw [h.mem_iff,List.mem_append,List.mem_singleton]
    exact ⟨.inl,fun hj => hj.elim id fun hji => hji ▸ (h.mem_iff i).1 hi⟩
  · rename_i hi
    refine ⟨h.nodup.append (List.nodup_singleton i) (by simpa using hi),fun j => ?_,?_⟩
    · rw [List.mem_append,List.mem_append,h.mem_iff]
    · refine List.pairwise_append.2 ⟨hordered,List.pairwise_singleton _ _,fun j hj k hk => ?_⟩
      have hmet : i ∉ met := fun hmem => hi ((h.mem_iff i).2 hmem)
      rw [List.mem_singleton.1 hk,hkept j hj,List.idxOf_append_of_notMem hmet]
      exact Nat.lt_add_right _ (List.idxOf_lt_length_of_mem ((h.mem_iff j).1 hj))

theorem inFirstOrder_foldl (h : InFirstOrder met seen) (is : List Nat) :
    InFirstOrder (met ++ is) (is.foldl addColumn seen) := by
  induction is generalizing met seen with
  | nil => rwa [List.append_nil]
  | cons i is ih =>
    have hstep := ih (inFirstOrder_addColumn h i)
    rwa [List.append_assoc] at hstep

/-- Collecting reads expressions from left to right. -/
theorem inFirstOrder_addColumnsOf (es : List Expr) :
    InFirstOrder (es.flatMap occurrences) (addColumnsOf [] es) := by
  rw [addColumnsOf_eq_foldl,occurrencesOf_eq_flatMap]
  exact inFirstOrder_foldl inFirstOrder_nil _

/-! ## Renumbered references -/

theorem addColumn_map (h : ∀ j ∈ seen, f j = f i → j = i) :
    addColumn (seen.map f) (f i) = (addColumn seen i).map f := by
  have hmem : f i ∈ seen.map f ↔ i ∈ seen :=
    ⟨fun hi => by
      obtain ⟨j,hj,hfj⟩ := List.mem_map.1 hi
      exact h j hj hfj ▸ hj,List.mem_map_of_mem⟩
  simp only [addColumn,hmem]
  split
  · rfl
  · rw [List.map_append,List.map_singleton]

theorem foldl_addColumn_map (h : Set.InjOn f {i | i ∈ seen ∨ i ∈ is}) :
    (is.map f).foldl addColumn (seen.map f) = (is.foldl addColumn seen).map f := by
  -- What is seen grows with each step, at the cost of what is still to be read: `f` keeps both apart.
  induction is generalizing seen with
  | nil => rfl
  | cons i is ih =>
    have hi : i ∈ {j | j ∈ seen ∨ j ∈ i :: is} := .inr List.mem_cons_self
    rw [List.map_cons,List.foldl_cons,List.foldl_cons,
      addColumn_map fun j hj hfj => h (.inl hj) hi hfj]
    refine ih (h.mono fun j hj => ?_)
    have hj : j ∈ [i].foldl addColumn seen ∨ j ∈ is := hj
    rw [mem_foldl_addColumn,or_assoc] at hj
    exact hj.imp_right fun hj => hj.elim (fun hji => List.mem_singleton.1 hji ▸ List.mem_cons_self)
      (List.mem_cons_of_mem i)

/-- Different columns stay different, so they are collected in the order they had. -/
theorem addColumnsOf_renumber {es : List Expr} (h : Set.InjOn f {i | i ∈ addColumnsOf [] es}) :
    addColumnsOf [] (es.map (renumber f)) = (addColumnsOf [] es).map f := by
  have hoccurrences : (es.map (renumber f)).flatMap occurrences = (es.flatMap occurrences).map f := by
    rw [List.flatMap_map,List.map_flatMap]
    exact List.flatMap_congr fun e _ => occurrences_renumber f e
  rw [addColumnsOf_eq_foldl,addColumnsOf_eq_foldl,occurrencesOf_eq_flatMap,occurrencesOf_eq_flatMap,
    hoccurrences]
  have hinj : Set.InjOn f {i | i ∈ [] ∨ i ∈ es.flatMap occurrences} := h.mono fun i hi =>
    ((inFirstOrder_addColumnsOf es).mem_iff i).2 (hi.resolve_left List.not_mem_nil)
  exact foldl_addColumn_map hinj

theorem columns_renumber {e : Expr} (h : Set.InjOn f {i | i ∈ e.columns}) :
    (e.renumber f).columns = e.columns.map f :=
  show addColumnsOf [] ([e].map (renumber f)) = (addColumnsOf [] [e]).map f from
    addColumnsOf_renumber h

end Expr

/-! ## Narrow rows -/

namespace Semantics
variable {V : Type} {S : Semantics V} {row : List V}

/-- The given columns of a row, in that order. -/
def pick (S : Semantics V) (cols : List Nat) (row : List V) : List V :=
  cols.map fun i => row.getD i S.missing

theorem getD_pick_positionIn {cols : List Nat} {i : Nat} (h : i ∈ cols) :
    (S.pick cols row).getD (Expr.positionIn cols i) S.missing = row.getD i S.missing := by
  simp [pick,List.getD_eq_getElem?_getD,Expr.getElem?_positionIn h]

theorem eval_pick {cols : List Nat} {e : Expr} (h : ∀ i ∈ e.columns, i ∈ cols) :
    S.eval (S.pick cols row) (e.renumber (Expr.positionIn cols)) = S.eval row e :=
  eval_renumber fun i hi => getD_pick_positionIn (h i (Expr.mem_columns.2 hi))

end Semantics

/-- Collecting and renumbering references agree. Expressions read from left to right give each column
that they refer to once, in the order of the first references. Renumbering that keeps the columns apart
renumbers what is collected. Over the row of any columns that take in all those of an expression, the
expression renumbered to their places has the value it has over the whole row, whatever literals and
operators mean. -/
theorem Expr.references_agree (es : List Expr) :
    InFirstOrder (es.flatMap occurrences) (addColumnsOf [] es) ∧
    (∀ f : Nat → Nat, Set.InjOn f {i | i ∈ addColumnsOf [] es} →
      addColumnsOf [] (es.map (renumber f)) = (addColumnsOf [] es).map f) ∧
    ∀ e ∈ es,
      (∀ f : Nat → Nat, Set.InjOn f {i | i ∈ e.columns} →
        (e.renumber f).columns = e.columns.map f) ∧
      ∀ {V : Type} (S : Semantics V) (cols : List Nat), (∀ i ∈ e.columns, i ∈ cols) →
        ∀ row : List V, S.eval (S.pick cols row) (e.renumber (positionIn cols)) = S.eval row e :=
  ⟨inFirstOrder_addColumnsOf es,fun _ hf => addColumnsOf_renumber hf,
    fun _ _ => ⟨fun _ hf => columns_renumber hf,fun _ _ hcols _ => Semantics.eval_pick hcols⟩⟩

section

/-- `$3 + $1 * $3` -/
def scaledSum : Expr :=
  .call .plus [.column 3 .integer,
    .call .multiply [.column 1 .integer,.column 3 .integer] .integer] .integer

def sumsAndProducts : Semantics Int where
  literal _ := 0
  call op _ vs := if op = .plus then vs.foldr (· + ·) 0 else vs.foldr (· * ·) 1
  missing := 0

theorem references_agree_scaledSum :
    InFirstOrder [3,1,3] [3,1] ∧ scaledSum.columns = [3,1] ∧
    Set.InjOn (10 * ·) {i | i ∈ scaledSum.columns} ∧
    (scaledSum.renumber (10 * ·)).columns = [30,10] ∧
    sumsAndProducts.pick [1,3] [2,3,5,7] = [3,7] ∧
    sumsAndProducts.eval [3,7] (scaledSum.renumber (Expr.positionIn [1,3])) = 28 := by
  have hinj : Set.InjOn (10 * ·) {i | i ∈ scaledSum.columns} :=
    fun i _ j _ h => Nat.eq_of_mul_eq_mul_left (by decide) h
  obtain ⟨horder,-,hsum⟩ := Expr.references_agree [scaledSum]
  obtain ⟨hcolumns,hvalue⟩ := hsum scaledSum List.mem_cons_self
  exact ⟨horder,rfl,hinj,hcolumns (10 * ·) hinj,rfl,
    hvalue sumsAndProducts [1,3] (by decide) [2,3,5,7]⟩

end

end QueryPlan
