import QueryPlan.Proofs.Expr.Calls
import QueryPlan.Proofs.SqlType.Legal

/-! # Plans with legal types -/
namespace QueryPlan

namespace Expr

/-- All types of an expression and of the operands below it are legal. -/
def Legal (e : Expr) : Prop := e.Everywhere fun s => s.type.Legal

variable {e : Expr} {op : Operator} {args : List Expr} {t : SqlType}

@[simp] theorem legal_column {i : Nat} : (column i t).Legal ↔ t.Legal := everywhere_column

@[simp] theorem legal_literal {v : Literal} : (literal v).Legal ↔ v.type.Legal := everywhere_literal

@[simp] theorem legal_call : (call op args t).Legal ↔ t.Legal ∧ ∀ e ∈ args, e.Legal := everywhere_call

theorem legal_true : true.Legal := legal_literal.2 trivial

theorem Legal.type (h : e.Legal) : e.type.Legal := h.self

theorem Legal.ofCall (h : ∀ e ∈ args, e.Legal) (he : ofCall op args = .ok e) : e.Legal := by
  obtain ⟨t,ht,rfl⟩ := ofCall_eq_ok_iff.1 he
  refine legal_call.2 ⟨Operator.legal_resultType (List.forall_mem_map.2 fun e he => (h e he).type) ht,?_⟩
  split
  · exact Everywhere.flatOperands h
  · exact h

theorem Legal.cast (h : e.Legal) (ht : t.Legal) : (e.cast t).Legal :=
  legal_call.2 ⟨ht,by simpa using h⟩

theorem Legal.renumber (f : Nat → Nat) (h : e.Legal) : (e.renumber f).Legal := by
  induction e using induct with
  | column i t => exact legal_column.2 (legal_column.1 h)
  | literal v => exact h
  | call op args t ih =>
    obtain ⟨ht,hargs⟩ := legal_call.1 h
    rw [renumber_call,legal_call]
    exact ⟨ht,List.forall_mem_map.2 fun e he => ih e he (hargs e he)⟩

theorem legal_all {es : List Expr} (h : ∀ e ∈ es, e.Legal) : (all es).Legal := by
  match es with
  | [] => exact legal_true
  | [e] => exact h e (by simp)
  | e :: e' :: es => exact legal_call.2 ⟨trivial,Everywhere.flatOperands h⟩

end Expr

/-- Every column of every table has a legal type. -/
def Catalog.Legal (c : Catalog) : Prop := ∀ t ∈ c.tables, ∀ col ∈ t.columns, col.type.Legal

namespace Plan

/-- The aggregate calls that stand at the root. -/
def calls : Plan → List AggregateCall
  | aggregate _ _ cs => cs
  | _ => []

/-- The types that stand at the root: those of its expressions with all operands below them, of its
aggregate calls and of its output columns. -/
def carriedTypes (p : Plan) : List SqlType :=
  (p.exprs.flatMap Expr.subterms).map Expr.type ++ p.calls.map AggregateCall.type
    ++ p.fields.map Field.type

/-- Only legal types come in at the root: from tables, expressions and calls. -/
def LegalAt : Plan → Prop
  | scan t | arrowScan t _ => ∀ c ∈ t.columns, c.type.Legal
  | filter _ condition | join _ _ condition _ => condition.Legal
  | project _ es _ => ∀ e ∈ es, e.Legal
  | aggregate _ _ cs => ∀ c ∈ cs, c.type.Legal

def Legal (p : Plan) : Prop := p.Everywhere LegalAt

variable {p : Plan}

theorem LegalAt.exprs (h : p.LegalAt) : ∀ e ∈ p.exprs, e.Legal := by
  cases p with
  | filter input c => exact List.forall_mem_singleton.2 h
  | join left right c k => exact List.forall_mem_singleton.2 h
  | project input es ns => exact h
  | _ => simp [Plan.exprs]

theorem LegalAt.calls (h : p.LegalAt) : ∀ c ∈ p.calls, c.type.Legal := by
  cases p with
  | aggregate input gs cs => exact h
  | _ => simp [Plan.calls]

/-- Names have no part in the types of columns. -/
theorem legal_zipWith {α : Type} {type : α → SqlType} {xs : List α} {names : List String}
    (h : ∀ x ∈ xs, (type x).Legal) :
    ∀ f ∈ xs.zipWith (fun x n => (⟨n,type x⟩ : Field)) names, f.type.Legal := by
  intro f hf
  have hmem := List.mem_map_of_mem (f := Field.type) hf
  rw [map_type_zipWith] at hmem
  obtain ⟨x,hx,heq⟩ := List.mem_map.1 (List.mem_of_mem_take hmem)
  exact heq ▸ h x hx

theorem legal_picked {fields : List Field} {cols : List Nat} (h : ∀ f ∈ fields, f.type.Legal) :
    ∀ f ∈ cols.filterMap (fields[·]?), f.type.Legal := by
  intro f hf
  obtain ⟨i,-,hi⟩ := List.mem_filterMap.1 hf
  exact h f (List.mem_of_getElem? hi)

theorem legal_tableFields {t : Table} (h : ∀ c ∈ t.columns, c.type.Legal) :
    ∀ f ∈ tableFields t, f.type.Legal := List.forall_mem_map.2 h

/-- What a plan puts out has the types of what comes in below. -/
theorem Legal.fields (h : p.Legal) : ∀ f ∈ p.fields, f.type.Legal := by
  induction p with
  | scan t => exact legal_tableFields (everywhere_scan.1 h)
  | arrowScan t cols => exact legal_picked (legal_tableFields (everywhere_arrowScan.1 h))
  | filter input c ih => exact ih (everywhere_filter.1 h).2
  | project input es ns ih => exact legal_zipWith fun e he => ((everywhere_project.1 h).1 e he).type
  | join left right c k ihl ihr =>
    obtain ⟨-,hl,hr⟩ := everywhere_join.1 h
    exact legal_zipWith (List.forall_mem_append.2 ⟨ihl hl,ihr hr⟩)
  | aggregate input gs cs ih =>
    obtain ⟨hcalls,hi⟩ := everywhere_aggregate.1 h
    exact List.forall_mem_append.2 ⟨legal_picked (ih hi),List.forall_mem_map.2 hcalls⟩

/-- The type of a column that is there or is not. -/
theorem Legal.getD_type (h : p.Legal) (i : Nat) : (((p.fields[i]?).map Field.type).getD .null).Legal := by
  cases hf : p.fields[i]? with
  | none => trivial
  | some f => exact h.fields f (List.mem_of_getElem? hf)

theorem Legal.carriedTypes (h : p.Legal) : p.Everywhere fun n => ∀ t ∈ n.carriedTypes, t.Legal := by
  intro n hn
  have hroot : n.LegalAt := h n hn
  have hbelow : n.Legal := Everywhere.of_mem h hn
  rw [Plan.carriedTypes,List.forall_mem_append,List.forall_mem_append]
  refine ⟨⟨List.forall_mem_map.2 fun s hs => ?_,List.forall_mem_map.2 hroot.calls⟩,
    List.forall_mem_map.2 hbelow.fields⟩
  obtain ⟨e,he,hs⟩ := List.mem_flatMap.1 hs
  exact hroot.exprs e he s hs

end Plan
end QueryPlan
