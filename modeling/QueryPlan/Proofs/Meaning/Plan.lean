import QueryPlan.Proofs.Meaning.Expr
import QueryPlan.Relation.Basic
import Mathlib.Data.Multiset.Dedup
import Mathlib.Data.Multiset.Filter

/-! # What plans mean

A plan denotes a bag of rows over a database. Columns count by position, names do not matter; outer
joins fill up with NULL, and rows fall into groups of equal keys. -/
namespace QueryPlan

deriving instance DecidableEq for Value

/-- The rows of every table, each as wide as its table. -/
structure Database (α : Type) where
  rows : Table → Multiset (Row α)
  length_row : ∀ t, ∀ r ∈ rows t, r.length = t.width

variable {α : Type}

namespace Row

/-- The given columns of a row, in that order. -/
def pick (cols : List Nat) (r : Row α) : Row α := cols.map fun i => r.getD i .null

/-- A row of NULLs. -/
def nulls (width : Nat) : Row α := List.replicate width .null

@[simp] theorem length_pick (cols : List Nat) (r : Row α) : (pick cols r).length = cols.length := by
  simp [pick]

@[simp] theorem length_nulls (width : Nat) : (nulls width : Row α).length = width := by
  simp [nulls]

end Row

namespace JoinKind

/-- Left rows without a partner are kept. -/
def keepsLeft : JoinKind → Bool
  | left | full => true
  | inner | right => false

/-- Right rows without a partner are kept. -/
def keepsRight : JoinKind → Bool
  | right | full => true
  | inner | left => false

/-- Pairs of rows that pass the condition. -/
def matched (on : Row α → Prop) [DecidablePred on] (left right : Multiset (Row α)) :
    Multiset (Row α) :=
  left.bind fun l => (right.filter fun r => on (l ++ r)).map (l ++ ·)

/-- The rows of a join of inputs of given widths: the pairs, then the rows without a partner that
are kept, filled up with NULL. -/
def rows (kind : JoinKind) (leftWidth rightWidth : Nat) (on : Row α → Prop) [DecidablePred on]
    (left right : Multiset (Row α)) : Multiset (Row α) :=
  matched on left right
    + (if kind.keepsLeft then
        (left.filter fun l => ∀ r ∈ right, ¬ on (l ++ r)).map (· ++ Row.nulls rightWidth) else 0)
    + (if kind.keepsRight then
        (right.filter fun r => ∀ l ∈ left, ¬ on (l ++ r)).map (Row.nulls leftWidth ++ ·) else 0)

end JoinKind

instance (I : Interpretation α) (e : Expr) : DecidablePred (I.holds e) :=
  fun row => inferInstanceAs (Decidable ((I.eval row e).isTrue = true))

namespace Interpretation
variable (I : Interpretation α)

/-- The value of an aggregate call over a bag of rows. An average is the quotient of the sum and the
count of its arguments, cast where the quotient has another type. -/
def callValue (rows : Multiset (Row α)) (c : AggregateCall) : Value α :=
  let args := rows.map (Row.pick c.args)
  if c.function = .avg then
    let type := (Operator.resultType? .divide [c.type,.bigInt]).getD .null
    let quotient := I.operator .divide type
      [I.aggregate .sum c.distinct args,I.aggregate .count c.distinct args]
    if type = c.type then quotient else I.operator .cast c.type [quotient]
  else I.aggregate c.function c.distinct args

end Interpretation

/-- One row for each key that occurs, with what is computed of the rows of that key; without keys
one row for all. -/
def groupRows [DecidableEq α] (groups : List Nat) (outputs : Multiset (Row α) → Row α)
    (rows : Multiset (Row α)) : Multiset (Row α) :=
  if groups = [] then {outputs rows}
  else (rows.map (Row.pick groups)).dedup.map fun key =>
    key ++ outputs (rows.filter fun r => Row.pick groups r = key)

namespace Plan
variable [DecidableEq α] (I : Interpretation α) (db : Database α)

/-- The bag of rows that a plan denotes. -/
def rows : Plan → Multiset (Row α)
  | scan t => db.rows t
  | arrowScan t cols => (db.rows t).map (Row.pick cols)
  | filter input condition => input.rows.filter (I.holds condition)
  | project input exprs _ => input.rows.map fun r => exprs.map (I.eval r)
  | join left right condition kind =>
    kind.rows left.width right.width (I.holds condition) left.rows right.rows
  | aggregate input groups calls =>
    groupRows groups (fun rs => calls.map (I.callValue rs)) input.rows

variable {I db}

/-- A row of a join is a row of each side, or NULLs for one of them. -/
theorem mem_rows_join {left right : Plan} {on : Expr} {kind : JoinKind} {row : Row α}
    (h : row ∈ (join left right on kind).rows I db) : ∃ l r, row = l ++ r ∧
      (l ∈ left.rows I db ∨ l = Row.nulls left.width) ∧
      (r ∈ right.rows I db ∨ r = Row.nulls right.width) := by
  simp only [rows,JoinKind.rows,Multiset.mem_add] at h
  rcases h with (h|h)|h
  · obtain ⟨l,hl,h⟩ := Multiset.mem_bind.1 h
    obtain ⟨r,hr,rfl⟩ := Multiset.mem_map.1 h
    exact ⟨l,r,rfl,.inl hl,.inl (Multiset.mem_filter.1 hr).1⟩
  · split at h
    · obtain ⟨l,hl,rfl⟩ := Multiset.mem_map.1 h
      exact ⟨l,_,rfl,.inl (Multiset.mem_filter.1 hl).1,.inr rfl⟩
    · cases Multiset.notMem_zero _ h
  · split at h
    · obtain ⟨r,hr,rfl⟩ := Multiset.mem_map.1 h
      exact ⟨_,r,rfl,.inr rfl,.inl (Multiset.mem_filter.1 hr).1⟩
    · cases Multiset.notMem_zero _ h

theorem length_row {p : Plan} : ∀ r ∈ p.rows I db, r.length = p.width := by
  induction p with
  | scan t => exact db.length_row t
  | arrowScan t cols =>
    intro r hr
    obtain ⟨s,-,rfl⟩ := Multiset.mem_map.1 hr
    simp [width]
  | filter input c ih => exact fun r hr => ih r (Multiset.mem_filter.1 hr).1
  | project input es ns ih =>
    intro r hr
    obtain ⟨s,-,rfl⟩ := Multiset.mem_map.1 hr
    simp [width]
  | join left right c k ihl ihr =>
    intro row hrow
    obtain ⟨l,r,rfl,hl,hr⟩ := mem_rows_join hrow
    have hl : l.length = left.width := hl.elim (ihl l) (· ▸ Row.length_nulls _)
    have hr : r.length = right.width := hr.elim (ihr r) (· ▸ Row.length_nulls _)
    rw [List.length_append,hl,hr,width]
  | aggregate input gs cs ih =>
    intro r hr
    simp only [rows,groupRows] at hr
    split at hr
    · rename_i hg
      rw [Multiset.mem_singleton.1 hr,hg]
      simp [width]
    · obtain ⟨key,hk,rfl⟩ := Multiset.mem_map.1 hr
      obtain ⟨s,-,rfl⟩ := Multiset.mem_map.1 (Multiset.mem_dedup.1 hk)
      simp [width]

end Plan
end QueryPlan
