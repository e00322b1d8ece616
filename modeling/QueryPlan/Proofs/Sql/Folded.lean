import QueryPlan.Binding.Grouping
import QueryPlan.Sql.Query
import Mathlib

/-! # Queries up to the spelling of names

Folding a query puts its unquoted names in lower case, takes the labels off its output columns and
empties what is kept as text: the parts that are refused or passed over, where names stand as
written. Queries that fold to one query differ at most in these. -/
namespace QueryPlan

/-! ## Letters -/

@[simp] theorem toLower_toLower (s : String) : s.toLower.toLower = s.toLower := by
  rw [String.toLower,String.toLower,String.map_map]
  exact congrArg (String.map · s) (funext Char.toLower_toLower_eq_toLower)

@[simp] theorem toUpper_toLower (s : String) : s.toLower.toUpper = s.toUpper := by
  rw [String.toLower,String.toUpper,String.toUpper,String.map_map]
  exact congrArg (String.map · s) (funext Char.toUpper_toLower_eq_toUpper)

theorem map_intercalate {α β : Type} (f : α → β) (mark : List α) (parts : List (List α)) :
    (mark.intercalate parts).map f = (mark.map f).intercalate (parts.map (List.map f)) := by
  induction parts with
  | nil => rfl
  | cons part parts ih =>
    cases parts with
    | nil => simp
    | cons next parts =>
      simp only [List.map_cons,List.intercalate_cons_cons,List.map_append] at ih ⊢
      rw [ih]

namespace Sql

/-! ## Names -/

/-- An unquoted name in lower case, a quoted one as it is. -/
def Ident.folded (i : Ident) : Ident :=
  match i.quote with
  | none => ⟨i.value.toLower,none⟩
  | some _ => i

@[simp] theorem Ident.toLower_value_folded (i : Ident) :
    i.folded.value.toLower = i.value.toLower := by
  unfold folded
  split
  · exact toLower_toLower _
  · rfl

/-- Unquoted names of the same letters, in whatever case, fold to one name. -/
theorem Ident.folded_eq_folded {s t : String}
    (h : s.toList.map Char.toLower = t.toList.map Char.toLower) :
    Ident.folded ⟨s,none⟩ = Ident.folded ⟨t,none⟩ := by
  rw [← String.toList_map,← String.toList_map,String.toList_inj] at h
  exact congrArg (Ident.mk · none) h

theorem Ident.toUpper_text_folded (i : Ident) : i.folded.text.toUpper = i.text.toUpper := by
  unfold folded
  split
  · rename_i hquote
    simp only [text,hquote,toUpper_toLower]
  · rfl

theorem ObjectName.toUpper_text_folded (name : ObjectName) :
    (ObjectName.text (name.map Ident.folded)).toUpper = (ObjectName.text name).toUpper := by
  have hpart : ∀ i : Ident, i.folded.text.toList.map Char.toUpper = i.text.toList.map Char.toUpper :=
    fun i => by rw [← String.toList_map,← String.toList_map]; exact congrArg _ i.toUpper_text_folded
  rw [← String.toList_inj]
  simp only [ObjectName.text,String.toUpper,String.toList_map,String.toList_intercalate,
    map_intercalate,List.map_map,Function.comp_def,hpart]

/-- A name spelt otherwise still calls the aggregate function that it called. -/
theorem ofName?_folded (name : ObjectName) :
    AggregateFunction.ofName? (ObjectName.text (name.map Ident.folded)) =
      AggregateFunction.ofName? (ObjectName.text name) := by
  rw [AggregateFunction.ofName?,AggregateFunction.ofName?,ObjectName.toUpper_text_folded]

/-! ## Parts of queries -/

/-- In place of a text. -/
def blank (_ : String) : String := ""

def CallTail.folded (tail : CallTail) : CallTail :=
  { tail with orderBy := tail.orderBy.map blank,window := tail.window.map blank }

mutual
def Expr.folded : Expr → Expr
  | .identifier name => .identifier name.folded
  | .compound parts => .compound (parts.map Ident.folded)
  | .value v => .value v
  | .typedString type value => .typedString type value
  | .nested e => .nested e.folded
  | .binary left op right => .binary left.folded op right.folded
  | .unary op e => .unary op e.folded
  | .isNull e => .isNull e.folded
  | .isNotNull e => .isNotNull e.folded
  | .between e negated low high => .between e.folded negated low.folded high.folded
  | .inList e list negated => .inList e.folded (foldedAll list) negated
  | .like negated e pattern escape => .like negated e.folded pattern.folded escape
  | .cast e type format => .cast e.folded type format
  | .function name args filter tail =>
    .function (name.map Ident.folded) (foldedArgs args) (foldedFilter filter) tail.folded
  | .subquery text => .subquery (blank text)
  | .other text => .other (blank text)
def FunctionArg.folded : FunctionArg → FunctionArg
  | .expr e => .expr e.folded
  | .wildcard => .wildcard
  | .other text => .other (blank text)
def foldedAll : List Expr → List Expr
  | [] => []
  | e :: es => e.folded :: foldedAll es
def foldedArgs : List FunctionArg → List FunctionArg
  | [] => []
  | a :: as => a.folded :: foldedArgs as
def foldedFilter : Option Expr → Option Expr
  | none => none
  | some e => some e.folded
end

/-- An output column loses its label. -/
def SelectItem.folded : SelectItem → SelectItem
  | expr e _ => expr e.folded none
  | wildcard options => wildcard (options.map blank)
  | qualifiedWildcard name options =>
    qualifiedWildcard (name.map Ident.folded) (options.map blank)

def TableAlias.folded (a : TableAlias) : TableAlias := ⟨a.name.folded,a.columns.map Ident.folded⟩

def TableFactor.folded : TableFactor → TableFactor
  | table name label args partitions hints =>
    table (name.map Ident.folded) (label.map TableAlias.folded) (args.map (List.map blank))
      (partitions.map blank) (hints.map blank)
  | derived text label => derived (blank text) (label.map TableAlias.folded)
  | nestedJoin text label => nestedJoin (blank text) (label.map TableAlias.folded)
  | other text label after => other (blank text) (label.map TableAlias.folded) (blank after)

def JoinConstraint.folded : JoinConstraint → JoinConstraint
  | on condition => on condition.folded
  | .using columns => .using (columns.map Ident.folded)
  | natural => natural
  | none => none

def Join.folded (j : Join) : Join := ⟨j.form,j.factor.folded,j.constraint.folded⟩

def TableWithJoins.folded (t : TableWithJoins) : TableWithJoins :=
  ⟨t.first.folded,t.joins.map Join.folded⟩

def Distinct.folded : Distinct → Distinct
  | rows => rows
  | on exprs => on (exprs.map blank)

def GroupBy.folded : GroupBy → GroupBy
  | all => all
  | exprs keys => exprs (keys.map Expr.folded)

def Select.folded (s : Select) : Select where
  distinct := s.distinct.map Distinct.folded
  top := s.top.map blank
  items := s.items.map SelectItem.folded
  into := s.into.map blank
  tables := s.tables.map TableWithJoins.folded
  lateralViews := s.lateralViews.map blank
  selection := s.selection.map Expr.folded
  groupBy := s.groupBy.folded
  clusterBy := s.clusterBy.map blank
  distributeBy := s.distributeBy.map blank
  sortBy := s.sortBy.map blank
  having := s.having.map Expr.folded
  windows := s.windows.map blank
  qualify := s.qualify.map Expr.folded

def QueryClauses.folded (c : QueryClauses) : QueryClauses where
  withClause := c.withClause.map blank
  orderBy := c.orderBy.map blank
  limit := c.limit.map blank
  offset := c.offset.map blank
  limitBy := c.limitBy.map blank
  fetch := c.fetch.map blank
  locks := c.locks.map blank

mutual
def Query.folded : Query → Query
  | .mk clauses body => .mk clauses.folded body.folded
def Body.folded : Body → Body
  | .select s => .select s.folded
  | .query q => .query q.folded
  | .setOperation text => .setOperation (blank text)
  | .other text => .other (blank text)
end

/-! ## What shows of an expression at its root -/

theorem Expr.aggregate?_folded (e : Expr) : e.folded.aggregate? = e.aggregate? := by
  cases e with
  | function name args filter tail => exact ofName?_folded name
  | _ => rfl

mutual
theorem Expr.hasAggregate_folded : (e : Expr) → e.folded.hasAggregate = e.hasAggregate
  | .identifier _ | .compound _ | .value _ | .typedString _ _ | .subquery _ | .other _ => rfl
  | .nested e | .unary _ e | .isNull e | .isNotNull e | .cast e _ _ => e.hasAggregate_folded
  | .binary left _ right | .like _ left right _ => by
    simp only [Expr.folded,Expr.hasAggregate,left.hasAggregate_folded,right.hasAggregate_folded]
  | .between e _ low high => by
    simp only [Expr.folded,Expr.hasAggregate,e.hasAggregate_folded,low.hasAggregate_folded,
      high.hasAggregate_folded]
  | .inList e list _ => by
    simp only [Expr.folded,Expr.hasAggregate,e.hasAggregate_folded,anyAggregate_folded list]
  | .function name args _ _ => by
    simp only [Expr.folded,Expr.hasAggregate,ofName?_folded,argsAggregate_folded args]
theorem FunctionArg.hasAggregate_folded : (a : FunctionArg) → a.folded.hasAggregate = a.hasAggregate
  | .expr e => e.hasAggregate_folded
  | .wildcard | .other _ => rfl
theorem anyAggregate_folded : (es : List Expr) → anyAggregate (foldedAll es) = anyAggregate es
  | [] => rfl
  | e :: es => by simp only [foldedAll,anyAggregate,e.hasAggregate_folded,anyAggregate_folded es]
theorem argsAggregate_folded : (as : List FunctionArg) →
    argsAggregate (foldedArgs as) = argsAggregate as
  | [] => rfl
  | a :: as => by simp only [foldedArgs,argsAggregate,a.hasAggregate_folded,argsAggregate_folded as]
end

theorem isColumnName_folded (e : Expr) : Binding.isColumnName e.folded = Binding.isColumnName e := by
  cases e <;> rfl

end Sql
end QueryPlan
