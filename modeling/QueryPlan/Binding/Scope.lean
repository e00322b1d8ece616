import QueryPlan.Relation.Basic

/-! # Scopes

The columns a FROM clause makes visible, in the order of the joined row, and the names its
relations go by. -/
namespace QueryPlan

structure ScopeColumn where
  relation : String
  name : String
  type : SqlType
deriving DecidableEq,Repr

structure Scope where
  columns : List ScopeColumn
  relations : List String
deriving DecidableEq,Repr

namespace Scope

/-- The columns of one table under the name it goes by in the query. -/
def ofTable (relation : String) (t : Table) : Scope :=
  { columns := t.columns.map fun c => ⟨relation,c.name,c.type⟩,relations := [relation] }

def hasRelation (caseSensitive : Bool) (s : Scope) (relation : String) : Bool :=
  s.relations.any (sameName caseSensitive · relation)

/-- The columns of two scopes side by side. Their relations must go by different names. -/
def beside (caseSensitive : Bool) (left right : Scope) : Except QueryError Scope :=
  match right.relations.find? (left.hasRelation caseSensitive) with
  | some relation => .error (.invalid (.duplicateRelation relation))
  | none => .ok ⟨left.columns ++ right.columns,left.relations ++ right.relations⟩

/-- Columns with their positions. -/
def places (s : Scope) : List (ScopeColumn × Nat) := s.columns.zipIdx

/-- A column goes by the name, and its relation by the qualifier if there is one. -/
def matchesName (caseSensitive : Bool) (qualifier : Option String) (name : String)
    (c : ScopeColumn) : Bool :=
  sameName caseSensitive c.name name && qualifier.all (sameName caseSensitive c.relation ·)

/-- The only column of a name, or of that name in the qualifying relation. -/
def resolve (caseSensitive : Bool) (s : Scope) (qualifier : Option String) (name : String) :
    Except QueryError Expr :=
  match qualifier.filter (!s.hasRelation caseSensitive ·) with
  | some q => .error (.unknownTable q)
  | none =>
    let shown := match qualifier with
      | some q => q ++ "." ++ name
      | none => name
    match s.places.filter (matchesName caseSensitive qualifier name ·.1) with
    | [(c,i)] => .ok (.column i c.type)
    | [] => .error (.unknownColumn shown)
    | _ :: _ :: _ => .error (.ambiguousColumn shown)

end Scope
end QueryPlan
