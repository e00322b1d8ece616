import QueryPlan.EnginePlan
import QueryPlan.Proofs.Relation.WellFormed
import QueryPlan.Proofs.Rewrite.Simulation

/-! # Plans under other names

Two plans may differ in the names of projected columns and of aggregate calls alone. They have
columns of the same types, and the engine gets the same text for them. -/
namespace QueryPlan

/-- One call is the other one under another name. -/
def AggregateCall.Renamed (c d : AggregateCall) : Prop := ∃ name, d = { c with name }

namespace AggregateCall
variable {calls calls' : List AggregateCall}

theorem Renamed.refl (c : AggregateCall) : c.Renamed c := ⟨c.name,rfl⟩

theorem renamed_of_map_eq
    (h : (calls.map fun c => { c with name := "" }) = calls'.map fun c => { c with name := "" }) :
    calls.Forall₂ Renamed calls' := by
  rw [← List.forall₂_eq_eq_eq,List.forall₂_map_left_iff,List.forall₂_map_right_iff] at h
  refine h.imp fun c d hcd => ⟨d.name,?_⟩
  obtain ⟨hfunction,hdistinct,hargs,htype,-⟩ := AggregateCall.mk.inj hcd
  rw [hfunction,hdistinct,hargs,htype]

/-- What does not hang on names is the same of renamed calls. -/
theorem map_eq_of_renamed {α : Type} {g : AggregateCall → α}
    (hg : ∀ (c : AggregateCall) name, g { c with name } = g c) (h : calls.Forall₂ Renamed calls') :
    calls.map g = calls'.map g := by
  induction h with
  | nil => rfl
  | cons hcd _ ih =>
    obtain ⟨name,rfl⟩ := hcd
    exact congrArg₂ List.cons (hg _ name).symm ih

theorem any_eq_of_renamed {g : AggregateCall → Bool}
    (hg : ∀ (c : AggregateCall) name, g { c with name } = g c) (h : calls.Forall₂ Renamed calls') :
    calls.any g = calls'.any g := by
  have hmap := congrArg (List.any · id) (map_eq_of_renamed hg h)
  simpa using hmap

end AggregateCall

namespace Plan

/-- One plan is the other one with other names of columns and calls. -/
inductive Renamed : Plan → Plan → Prop
  | scan (t : Table) : Renamed (scan t) (scan t)
  | arrowScan (t : Table) (cols : List Nat) : Renamed (arrowScan t cols) (arrowScan t cols)
  | filter {p q : Plan} (condition : Expr) :
    Renamed p q → Renamed (filter p condition) (filter q condition)
  | project {p q : Plan} {names names' : List String} (exprs : List Expr) :
    names.length = names'.length → Renamed p q →
    Renamed (project p exprs names) (project q exprs names')
  | join {p q p' q' : Plan} (condition : Expr) (kind : JoinKind) :
    Renamed p q → Renamed p' q' → Renamed (join p p' condition kind) (join q q' condition kind)
  | aggregate {p q : Plan} {calls calls' : List AggregateCall} (groups : List Nat) :
    calls.Forall₂ AggregateCall.Renamed calls' → Renamed p q →
    Renamed (aggregate p groups calls) (aggregate q groups calls')

namespace Renamed
variable {p q : Plan}

theorem refl (p : Plan) : Renamed p p := by
  induction p with
  | scan t => exact .scan t
  | arrowScan t cols => exact .arrowScan t cols
  | filter input c ih => exact .filter c ih
  | project input es ns ih => exact .project es rfl ih
  | join left right c k ihl ihr => exact .join c k ihl ihr
  | aggregate input groups calls ih =>
    exact .aggregate groups (List.forall₂_same.2 fun c _ => .refl c) ih

theorem lockstep : Lockstep Renamed where
  inputs h := by
    cases h with
    | scan t | arrowScan t cols => exact .nil
    | filter _ h | project _ _ h | aggregate _ _ h => exact .cons h .nil
    | join _ _ hl hr => exact .cons hl (.cons hr .nil)
  withInputs h hs := by
    cases h with
    | scan t => exact .scan t
    | arrowScan t cols => exact .arrowScan t cols
    | filter c h =>
      cases hs with
      | nil => exact .filter c h
      | cons h _ => exact .filter c h
    | project es hnames h =>
      cases hs with
      | nil => exact .project es hnames h
      | cons h _ => exact .project es hnames h
    | aggregate groups hcalls h =>
      cases hs with
      | nil => exact .aggregate groups hcalls h
      | cons h _ => exact .aggregate groups hcalls h
    | join c k hl hr =>
      cases hs with
      | nil => exact .join c k hl hr
      | cons hl' hs =>
        cases hs with
        | nil => exact .join c k hl hr
        | cons hr' _ => exact .join c k hl' hr'

theorem width_eq (h : Renamed p q) : p.width = q.width := by
  induction h with
  | scan t | arrowScan t cols | project es hnames h => rfl
  | filter c h ih => exact ih
  | join c k hl hr ihl ihr => rw [width,width,ihl,ihr]
  | aggregate groups hcalls h ih => rw [width,width,hcalls.length_eq]

theorem map_type_fields_eq (h : Renamed p q) :
    p.fields.map Field.type = q.fields.map Field.type := by
  induction h with
  | scan t | arrowScan t cols => rfl
  | filter c h ih => exact ih
  | project es hnames h => simp only [fields,map_type_zipWith,hnames]
  | join c k hl hr ihl ihr => rw [map_type_fields_join,map_type_fields_join,ihl,ihr]
  | aggregate groups hcalls h ih =>
    rw [map_type_fields_aggregate,map_type_fields_aggregate,ih,
      AggregateCall.map_eq_of_renamed (fun _ _ => rfl) hcalls]

theorem projectDerived (h : Renamed p q) (es : List Expr) :
    Renamed (p.projectDerived es) (q.projectDerived es) :=
  .project es (by simp [uniquify_length]) h

/-- The engine does not see names. -/
theorem encodeAfter_eq (h : Renamed p q) (written : List String) :
    EnginePlan.encodeAfter written p = EnginePlan.encodeAfter written q := by
  induction h generalizing written with
  | scan t | arrowScan t cols => rfl
  | filter c h ih => simp only [EnginePlan.encodeAfter,ih]
  | project es hnames h ih => simp only [EnginePlan.encodeAfter,ih]
  | join c k hl hr ihl ihr => simp only [EnginePlan.encodeAfter,ihl,ihr]
  | aggregate groups hcalls h ih =>
    have hdistinct := AggregateCall.any_eq_of_renamed (g := AggregateCall.distinct)
      (fun _ _ => rfl) hcalls
    have htexts := AggregateCall.map_eq_of_renamed (g := AggregateCall.text)
      (fun _ _ => rfl) hcalls
    simp only [EnginePlan.encodeAfter,ih,hdistinct,htexts]

theorem encode_eq (h : Renamed p q) : EnginePlan.encode p = EnginePlan.encode q := by
  rw [EnginePlan.encode,EnginePlan.encode,EnginePlan.encodeLines,EnginePlan.encodeLines,
    h.encodeAfter_eq]

end Renamed
end Plan
end QueryPlan
