import QueryPlan.Catalog.Basic
import QueryPlan.Proofs.Expr.Columns
import QueryPlan.Relation.Basic

/-! # Well-formed plans

What a plan promises to whoever reads its columns by position, one predicate for each promise and
each stated at one operator. The types of the columns do not hang on their names, and agree with
those of `fields` once projections have as many names as expressions. -/
namespace QueryPlan

namespace Expr

/-- A column that a row of the given types has, with the type it has there. -/
def ColumnFits (types : List SqlType) : Expr → Prop
  | column i t => types[i]? = some t
  | _ => True

instance (types : List SqlType) : DecidablePred (ColumnFits types)
  | column _ _ => inferInstanceAs (Decidable (_ = _))
  | literal _ | call _ _ _ => .isTrue trivial

/-- All columns of an expression are those of a row of the given types. -/
def Fits (types : List SqlType) (e : Expr) : Prop := e.Everywhere (ColumnFits types)

instance (types : List SqlType) : DecidablePred (Fits types) :=
  inferInstanceAs (DecidablePred (Everywhere _))

/-- A call has the type that its operands give it; a cast says its type itself. -/
def CallTyped : Expr → Prop
  | call op args t => op = .cast ∨ op.resultType? (args.map type) = some t
  | _ => True

instance : DecidablePred CallTyped
  | call _ _ _ => inferInstanceAs (Decidable (_ ∨ _))
  | column _ _ | literal _ => .isTrue trivial

/-- All calls of an expression have the types that their operands give them. -/
def Typed (e : Expr) : Prop := e.Everywhere CallTyped

instance : DecidablePred Typed := inferInstanceAs (DecidablePred (Everywhere _))

variable {types types' : List SqlType} {op : Operator} {args : List Expr} {t : SqlType}

@[simp] theorem fits_column {i : Nat} : (column i t).Fits types ↔ types[i]? = some t :=
  everywhere_column

@[simp] theorem fits_literal {v : Literal} : (literal v).Fits types := by
  simp [Fits,ColumnFits]

@[simp] theorem fits_call : (call op args t).Fits types ↔ ∀ e ∈ args, e.Fits types := by
  simp [Fits,ColumnFits]

@[simp] theorem fits_true : true.Fits types := fits_literal

@[simp] theorem typed_column {i : Nat} : (column i t).Typed := by simp [Typed,CallTyped]

@[simp] theorem typed_literal {v : Literal} : (literal v).Typed := by simp [Typed,CallTyped]

@[simp] theorem typed_true : true.Typed := typed_literal

@[simp] theorem typed_call : (call op args t).Typed ↔
    (op = .cast ∨ op.resultType? (args.map type) = some t) ∧ ∀ e ∈ args, e.Typed := by
  simp [Typed,CallTyped]

theorem Fits.lt {e : Expr} (h : e.Fits types) : ∀ i ∈ e.occurrences, i < types.length := by
  induction e using induct with
  | column i t =>
    simp only [occurrences,List.mem_singleton,forall_eq]
    exact (List.getElem?_eq_some_iff.1 (fits_column.1 h)).1
  | literal v => simp [occurrences]
  | call op args t ih =>
    simp only [occurrences_call,List.mem_flatMap]
    rintro i ⟨e,he,hi⟩
    exact ih e he (fits_call.1 h e he) i hi

/-- Renumbered columns fit where each stands for a column of the same type. -/
theorem Fits.renumber {f : Nat → Nat} {e : Expr} (h : e.Fits types)
    (hf : ∀ i ∈ e.occurrences, types'[f i]? = types[i]?) : (e.renumber f).Fits types' := by
  induction e using induct with
  | column i t =>
    rw [Expr.renumber,fits_column,hf i (by simp [occurrences])]
    exact fits_column.1 h
  | literal v => exact fits_literal
  | call op args t ih =>
    simp only [renumber_call,fits_call,List.forall_mem_map]
    intro e he
    refine ih e he (fits_call.1 h e he) fun i hi => hf i ?_
    rw [occurrences_call]
    exact List.mem_flatMap.2 ⟨e,he,hi⟩

@[simp] theorem map_type_renumber (f : Nat → Nat) (es : List Expr) :
    (es.map (renumber f)).map type = es.map type := by simp

theorem Typed.renumber {f : Nat → Nat} {e : Expr} (h : e.Typed) : (e.renumber f).Typed := by
  induction e using induct with
  | column i t => exact typed_column
  | literal v => exact typed_literal
  | call op args t ih =>
    obtain ⟨ht,hs⟩ := typed_call.1 h
    rw [renumber_call,typed_call,map_type_renumber]
    exact ⟨ht,List.forall_mem_map.2 fun e he => ih e he (hs e he)⟩

end Expr

/-- The arguments of a call are columns of its input, and the call has the type its function gives
to the first of them. -/
def AggregateCall.Fits (types : List SqlType) (c : AggregateCall) : Prop :=
  (∀ a ∈ c.args, a < types.length) ∧
    c.type = c.function.resultType (c.args.head?.bind fun a => types[a]?)

instance (types : List SqlType) : DecidablePred (AggregateCall.Fits types) :=
  fun _ => inferInstanceAs (Decidable (_ ∧ _))

namespace Plan

/-- The types of the output columns, by position. -/
def types : Plan → List SqlType
  | scan t => t.columns.map Column.type
  | arrowScan t cols => cols.filterMap ((t.columns.map Column.type)[·]?)
  | filter input _ => input.types
  | project _ exprs _ => exprs.map Expr.type
  | join left right _ _ => left.types ++ right.types
  | aggregate input groups calls =>
    groups.filterMap (input.types[·]?) ++ calls.map AggregateCall.type

theorem size_pos (p : Plan) : 0 < p.size := by cases p <;> simp [size]

/-- The operators of a plan, each before its inputs. -/
def operators : Plan → List Plan
  | p@(scan _) | p@(arrowScan _ _) => [p]
  | p@(filter input _) | p@(project input _ _) | p@(aggregate input _ _) => p :: input.operators
  | p@(join left right _ _) => p :: (left.operators ++ right.operators)

/-- The expressions that stand at the root. -/
def exprs : Plan → List Expr
  | filter _ condition | join _ _ condition _ => [condition]
  | project _ es _ => es
  | scan _ | arrowScan _ _ | aggregate _ _ _ => []

/-- The column types of the row that the expressions at the root read. -/
def inputTypes (p : Plan) : List SqlType := p.inputs.flatMap types

/-- Columns at the root are those of the row it reads. -/
def ColumnsFit (p : Plan) : Prop :=
  (∀ e ∈ p.exprs, e.Fits p.inputTypes) ∧
    match p with
    | arrowScan t cols => ∀ i ∈ cols, i < t.width
    | aggregate input groups calls =>
      (∀ g ∈ groups, g < input.width) ∧ ∀ c ∈ calls, c.Fits input.types
    | _ => True

/-- A projection has as many names as expressions. -/
def NamesFit : Plan → Prop
  | project _ es names => es.length = names.length
  | _ => True

/-- The calls at the root have the types that their operands give them. -/
def CallsTyped (p : Plan) : Prop := ∀ e ∈ p.exprs, e.Typed

/-- A condition at the root is BOOLEAN or NULL. -/
def ConditionFits : Plan → Prop
  | filter _ condition | join _ _ condition _ => condition.type.isBooleanLike
  | _ => True

/-- A property of all operators of a plan. -/
def Everywhere (P : Plan → Prop) (p : Plan) : Prop := ∀ n ∈ p.operators, P n

/-- Columns are used by position and type as the inputs have them, and each projected expression
has a name. -/
structure WellPlaced (p : Plan) : Prop where
  columns : p.Everywhere ColumnsFit
  names : p.Everywhere NamesFit

/-- Besides, every call has the type that its operands give it. -/
structure WellFormed (p : Plan) : Prop extends p.WellPlaced where
  calls : p.Everywhere CallsTyped

section
variable {P : Plan → Prop} {t : Table} {cols groups : List Nat} {input left right : Plan}
  {condition : Expr} {es : List Expr} {ns : List String} {kind : JoinKind} {calls : List AggregateCall}

@[simp] theorem everywhere_scan : (scan t).Everywhere P ↔ P (scan t) := by
  simp [Everywhere,operators]

@[simp] theorem everywhere_arrowScan : (arrowScan t cols).Everywhere P ↔ P (arrowScan t cols) := by
  simp [Everywhere,operators]

@[simp] theorem everywhere_filter : (filter input condition).Everywhere P ↔
    P (filter input condition) ∧ input.Everywhere P := by simp [Everywhere,operators]

@[simp] theorem everywhere_project : (project input es ns).Everywhere P ↔
    P (project input es ns) ∧ input.Everywhere P := by simp [Everywhere,operators]

@[simp] theorem everywhere_join : (join left right condition kind).Everywhere P ↔
    P (join left right condition kind) ∧ left.Everywhere P ∧ right.Everywhere P := by
  simp [Everywhere,operators,or_imp,forall_and]

@[simp] theorem everywhere_aggregate : (aggregate input groups calls).Everywhere P ↔
    P (aggregate input groups calls) ∧ input.Everywhere P := by simp [Everywhere,operators]

theorem everywhere_iff {p : Plan} : p.Everywhere P ↔ P p ∧ ∀ q ∈ p.inputs, q.Everywhere P := by
  cases p <;> simp [inputs]

theorem Everywhere.of_mem {p n : Plan} (h : p.Everywhere P) (hn : n ∈ p.operators) :
    n.Everywhere P := by
  induction p with
  | scan t => rwa [List.mem_singleton.1 hn]
  | arrowScan t cols => rwa [List.mem_singleton.1 hn]
  | filter input c ih =>
    rcases List.mem_cons.1 hn with rfl|hn
    · exact h
    · exact ih (everywhere_filter.1 h).2 hn
  | project input es ns ih =>
    rcases List.mem_cons.1 hn with rfl|hn
    · exact h
    · exact ih (everywhere_project.1 h).2 hn
  | join left right c k ihl ihr =>
    obtain ⟨-,hl,hr⟩ := everywhere_join.1 h
    rcases List.mem_cons.1 hn with rfl|hn
    · exact h
    · exact (List.mem_append.1 hn).elim (ihl hl) (ihr hr)
  | aggregate input gs cs ih =>
    rcases List.mem_cons.1 hn with rfl|hn
    · exact h
    · exact ih (everywhere_aggregate.1 h).2 hn

@[simp] theorem columnsFit_arrowScan : (arrowScan t cols).ColumnsFit ↔ ∀ i ∈ cols, i < t.width := by
  simp [ColumnsFit,exprs]

@[simp] theorem columnsFit_scan : (scan t).ColumnsFit := by simp [ColumnsFit,exprs]

@[simp] theorem columnsFit_filter :
    (filter input condition).ColumnsFit ↔ condition.Fits input.types := by
  simp [ColumnsFit,exprs,inputTypes,inputs]

@[simp] theorem columnsFit_project :
    (project input es ns).ColumnsFit ↔ ∀ e ∈ es, e.Fits input.types := by
  simp [ColumnsFit,exprs,inputTypes,inputs]

@[simp] theorem columnsFit_join : (join left right condition kind).ColumnsFit ↔
    condition.Fits (left.types ++ right.types) := by
  simp [ColumnsFit,exprs,inputTypes,inputs]

@[simp] theorem columnsFit_aggregate : (aggregate input groups calls).ColumnsFit ↔
    (∀ g ∈ groups, g < input.width) ∧ ∀ c ∈ calls, c.Fits input.types := by
  simp [ColumnsFit,exprs]

end

/-- A list of positions picks as many elements as it is long if all are in range. -/
theorem length_filterMap_getElem? {α : Type} {is : List Nat} {l : List α}
    (h : ∀ i ∈ is, i < l.length) : (is.filterMap (l[·]?)).length = is.length := by
  induction is with
  | nil => rfl
  | cons i is ih =>
    obtain ⟨hi,his⟩ := List.forall_mem_cons.1 h
    rw [List.filterMap_cons,List.getElem?_eq_getElem hi]
    simp [ih his]

/-- Of positions in range, the one at a place picks the element it stands for. -/
theorem getElem?_filterMap_getElem? {α : Type} {is : List Nat} {l : List α}
    (h : ∀ i ∈ is, i < l.length) (k : Nat) : (is.filterMap (l[·]?))[k]? = is[k]?.bind (l[·]?) := by
  induction is generalizing k with
  | nil => simp
  | cons i is ih =>
    obtain ⟨hi,his⟩ := List.forall_mem_cons.1 h
    rw [List.filterMap_cons,List.getElem?_eq_getElem hi]
    cases k with
    | zero => simp [hi]
    | succ k => simpa using ih his k

/-- The first positions of a list pick its beginning. -/
theorem filterMap_getElem?_range {α : Type} (l rest : List α) :
    (List.range l.length).filterMap ((l ++ rest)[·]?) = l := by
  have hlt : ∀ i ∈ List.range l.length, i < (l ++ rest).length := fun i hi => by
    rw [List.length_append]
    exact Nat.lt_add_right _ (List.mem_range.1 hi)
  refine List.ext_getElem? fun k => ?_
  rw [getElem?_filterMap_getElem? hlt]
  rcases Nat.lt_or_ge k l.length with hk|hk
  · simp [hk,List.getElem?_append_left hk]
  · rw [List.getElem?_eq_none (by simpa using hk),List.getElem?_eq_none hk]
    rfl

/-- The types of a plan whose columns fit are as many as its width says. -/
theorem types_length {p : Plan} (h : p.Everywhere ColumnsFit) : p.types.length = p.width := by
  induction p with
  | scan t => simp [types,width,Table.width]
  | arrowScan t cols =>
    rw [everywhere_arrowScan,columnsFit_arrowScan] at h
    exact length_filterMap_getElem? (by simpa [Table.width] using h)
  | filter input c ih => exact ih (everywhere_filter.1 h).2
  | project input es ns ih => simp [types,width]
  | join left right c k ihl ihr =>
    obtain ⟨-,hl,hr⟩ := everywhere_join.1 h
    simp [types,width,ihl hl,ihr hr]
  | aggregate input groups calls ih =>
    obtain ⟨hn,hi⟩ := everywhere_aggregate.1 h
    have hg := (columnsFit_aggregate.1 hn).1
    rw [← ih hi] at hg
    simp [types,width,length_filterMap_getElem? hg]

theorem uniquify_length (names : List String) : (uniquify names).length = names.length := by
  have h : ∀ placed : List String,
      (names.foldl (fun placed name => placed ++ [freeName placed name]) placed).length
        = placed.length+names.length := by
    induction names with
    | nil => simp
    | cons n ns ih =>
      intro placed
      rw [List.foldl_cons,ih]
      simp
      omega
  simpa [uniquify] using h []

theorem map_type_zipWith {α : Type} (type : α → SqlType) (xs : List α) (ns : List String) :
    (xs.zipWith (fun x n => (⟨n,type x⟩ : Field)) ns).map Field.type =
      (xs.map type).take ns.length := by
  induction xs generalizing ns with
  | nil => simp
  | cons x xs ih =>
    cases ns with
    | nil => rfl
    | cons n ns => simp [ih]

theorem map_type_fields_join (left right : Plan) (condition : Expr) (kind : JoinKind) :
    (join left right condition kind).fields.map Field.type =
      left.fields.map Field.type ++ right.fields.map Field.type := by
  simp only [fields]
  rw [map_type_zipWith Field.type,List.take_of_length_le (by simp [uniquify_length]),List.map_append]

theorem map_type_fields_aggregate (input : Plan) (groups : List Nat) (calls : List AggregateCall) :
    (aggregate input groups calls).fields.map Field.type =
      groups.filterMap ((input.fields.map Field.type)[·]?) ++ calls.map AggregateCall.type := by
  simp [fields,List.map_filterMap,Function.comp_def]

/-- The columns of `fields` have these types once every projected expression has a name. -/
theorem map_type_fields {p : Plan} (h : p.Everywhere NamesFit) :
    p.fields.map Field.type = p.types := by
  induction p with
  | scan t => simp [fields,types,tableFields]
  | arrowScan t cols => simp [fields,types,tableFields,List.map_filterMap,Function.comp_def]
  | filter input c ih => exact ih (everywhere_filter.1 h).2
  | project input es ns ih =>
    have hnames : es.length = ns.length := (everywhere_project.1 h).1
    exact (map_type_zipWith Expr.type es ns).trans (List.take_of_length_le (by simp [hnames]))
  | join left right c k ihl ihr =>
    obtain ⟨-,hl,hr⟩ := everywhere_join.1 h
    rw [map_type_fields_join,ihl hl,ihr hr,types]
  | aggregate input groups calls ih =>
    rw [map_type_fields_aggregate,ih (everywhere_aggregate.1 h).2,types]

namespace WellPlaced
variable {p input left right : Plan} {condition : Expr} {es : List Expr} {ns : List String}
  {kind : JoinKind} {groups : List Nat} {calls : List AggregateCall}

theorem length_types (h : p.WellPlaced) : p.types.length = p.width := types_length h.columns

theorem length_fields (h : p.WellPlaced) : p.fields.length = p.width := by
  rw [← h.length_types,← map_type_fields h.names,List.length_map]

theorem getElem?_fields (h : p.WellPlaced) (i : Nat) :
    (p.fields[i]?).map Field.type = p.types[i]? := by
  rw [← map_type_fields h.names,List.getElem?_map]

theorem inputs (h : p.WellPlaced) : ∀ q ∈ p.inputs, q.WellPlaced := fun q hq =>
  ⟨(everywhere_iff.1 h.columns).2 q hq,(everywhere_iff.1 h.names).2 q hq⟩

end WellPlaced

section
variable {t : Table} {cols groups : List Nat} {input left right : Plan} {condition : Expr}
  {es : List Expr} {ns : List String} {kind : JoinKind} {calls : List AggregateCall}

@[simp] theorem wellPlaced_scan : (scan t).WellPlaced :=
  ⟨by simp,by simp [NamesFit]⟩

@[simp] theorem wellPlaced_arrowScan : (arrowScan t cols).WellPlaced ↔ ∀ i ∈ cols, i < t.width :=
  ⟨fun h => by simpa using h.columns,fun h => ⟨by simpa using h,by simp [NamesFit]⟩⟩

@[simp] theorem wellPlaced_filter : (filter input condition).WellPlaced ↔
    condition.Fits input.types ∧ input.WellPlaced := by
  constructor
  · rintro ⟨hc,hn⟩
    rw [everywhere_filter,columnsFit_filter] at hc
    exact ⟨hc.1,hc.2,(everywhere_filter.1 hn).2⟩
  · rintro ⟨h,hc,hn⟩
    exact ⟨everywhere_filter.2 ⟨columnsFit_filter.2 h,hc⟩,everywhere_filter.2 ⟨trivial,hn⟩⟩

@[simp] theorem wellPlaced_project : (project input es ns).WellPlaced ↔
    (∀ e ∈ es, e.Fits input.types) ∧ es.length = ns.length ∧ input.WellPlaced := by
  constructor
  · rintro ⟨hc,hn⟩
    rw [everywhere_project,columnsFit_project] at hc
    exact ⟨hc.1,(everywhere_project.1 hn).1,hc.2,(everywhere_project.1 hn).2⟩
  · rintro ⟨h,hl,hc,hn⟩
    exact ⟨everywhere_project.2 ⟨columnsFit_project.2 h,hc⟩,everywhere_project.2 ⟨hl,hn⟩⟩

@[simp] theorem wellPlaced_join : (join left right condition kind).WellPlaced ↔
    condition.Fits (left.types ++ right.types) ∧ left.WellPlaced ∧ right.WellPlaced := by
  constructor
  · rintro ⟨hc,hn⟩
    rw [everywhere_join,columnsFit_join] at hc
    obtain ⟨-,hnl,hnr⟩ := everywhere_join.1 hn
    exact ⟨hc.1,⟨hc.2.1,hnl⟩,hc.2.2,hnr⟩
  · rintro ⟨h,⟨hcl,hnl⟩,hcr,hnr⟩
    exact ⟨everywhere_join.2 ⟨columnsFit_join.2 h,hcl,hcr⟩,everywhere_join.2 ⟨trivial,hnl,hnr⟩⟩

@[simp] theorem wellPlaced_aggregate : (aggregate input groups calls).WellPlaced ↔
    ((∀ g ∈ groups, g < input.width) ∧ ∀ c ∈ calls, c.Fits input.types) ∧ input.WellPlaced := by
  constructor
  · rintro ⟨hc,hn⟩
    rw [everywhere_aggregate,columnsFit_aggregate] at hc
    exact ⟨hc.1,hc.2,(everywhere_aggregate.1 hn).2⟩
  · rintro ⟨h,hc,hn⟩
    exact ⟨everywhere_aggregate.2 ⟨columnsFit_aggregate.2 h,hc⟩,everywhere_aggregate.2 ⟨trivial,hn⟩⟩

end

end Plan

/-! ## A shop -/

def orders : Table :=
  ⟨"orders","orders.arrow",[⟨"id",.integer⟩,⟨"total",.integer⟩,⟨"customer",.integer⟩]⟩

def customers : Table := ⟨"customers","customers.arrow",[⟨"id",.integer⟩,⟨"city",.varchar⟩]⟩

def shop : Catalog where
  root := "shop"
  caseSensitive := true
  tables := [customers,orders]

end QueryPlan
