import QueryPlan.Catalog.Basic
import QueryPlan.Expr.Basic
import QueryPlan.Relation.Aggregate

/-! # Relational plans and the names of their columns -/
namespace QueryPlan

/-! ## Distinct output names

A name already in use, up to ASCII case, is followed by the least counter that makes it new. -/

/-- A name in use among those already placed. -/
def nameTaken (placed : List String) (name : String) : Bool := placed.any (sameIgnoringCase · name)

/-- The name itself when it is free, else the name with the least free counter. As many
counters as names placed always suffice: one of those names is `name` and has no counter. -/
def freeName (placed : List String) (name : String) : String :=
  if nameTaken placed name then
    (((List.range placed.length).map fun k => name ++ toString k).find?
      fun c => !nameTaken placed c).getD name
  else name

/-- Names placed one after the other, each made different from those before it. -/
def uniquify (names : List String) : List String :=
  names.foldl (fun placed name => placed ++ [freeName placed name]) []

/-! ## Plans -/

/-- A named, typed output column. -/
structure Field where
  name : String
  type : SqlType
deriving DecidableEq,Repr

inductive JoinKind where
  | inner | left | right | full
deriving DecidableEq,Repr

def JoinKind.name : JoinKind → String
  | inner => "inner" | left => "left" | right => "right" | full => "full"

/-- A tree of relational operators. An `arrowScan` reads the listed columns of a table, in
that order; a `scan` stands for the whole table and has no engine counterpart. -/
inductive Plan where
  | scan (table : Table)
  | arrowScan (table : Table) (projects : List Nat)
  | filter (input : Plan) (condition : Expr)
  | project (input : Plan) (exprs : List Expr) (names : List String)
  | join (left right : Plan) (condition : Expr) (kind : JoinKind)
  | aggregate (input : Plan) (groups : List Nat) (calls : List AggregateCall)
deriving DecidableEq,Repr

namespace Plan

def tableFields (t : Table) : List Field := t.columns.map fun c => ⟨c.name,c.type⟩

/-- Output columns. The columns of a join are renamed where the two sides clash. -/
def fields : Plan → List Field
  | scan t => tableFields t
  | arrowScan t cols => cols.filterMap ((tableFields t)[·]?)
  | filter input _ => input.fields
  | project _ exprs names => exprs.zipWith (fun e n => ⟨n,e.type⟩) names
  | join left right _ _ =>
    let both := left.fields ++ right.fields
    both.zipWith (fun f n => ⟨n,f.type⟩) (uniquify (both.map Field.name))
  | aggregate input groups calls =>
    groups.filterMap (input.fields[·]?) ++ calls.map fun c => ⟨c.name,c.type⟩

/-- Number of output columns. -/
def width : Plan → Nat
  | scan t => t.width
  | arrowScan _ cols => cols.length
  | filter input _ => input.width
  | project _ exprs _ => exprs.length
  | join left right _ _ => left.width + right.width
  | aggregate _ groups calls => groups.length + calls.length

def inputs : Plan → List Plan
  | scan _ | arrowScan _ _ => []
  | filter input _ | project input _ _ | aggregate input _ _ => [input]
  | join left right _ _ => [left,right]

/-- Scanned tables from left to right, with repetitions. -/
def scans : Plan → List Table
  | scan t | arrowScan t _ => [t]
  | filter input _ | project input _ _ | aggregate input _ _ => input.scans
  | join left right _ _ => left.scans ++ right.scans

private def dropRepeats : List String → List String
  | a :: b :: rest => if a == b then dropRepeats (b :: rest) else a :: dropRepeats (b :: rest)
  | names => names

/-- Names of the scanned tables, in order and each once. -/
def tableNames (p : Plan) : List String :=
  dropRepeats ((p.scans.map Table.name).mergeSort (fun a b => a ≤ b))

/-- Number of operators. -/
def size : Plan → Nat
  | scan _ | arrowScan _ _ => 1
  | filter input _ | project input _ _ | aggregate input _ _ => input.size + 1
  | join left right _ _ => left.size + right.size + 1

/-- A projection whose columns keep the names of the input columns they repeat; the
others are named by position. -/
def projectDerived (input : Plan) (exprs : List Expr) : Plan :=
  let given := input.fields
  let name : Expr × Nat → String
    | (.column i _,k) => ((given[i]?).map Field.name).getD ("$f" ++ toString k)
    | (_,k) => "$f" ++ toString k
  project input exprs (uniquify (exprs.zipIdx.map name))

/-- A projection that hands on its input unchanged, names aside. -/
def isIdentityProject : Plan → Bool
  | project input exprs _ => Expr.isIdentity exprs input.width
  | _ => false

end Plan
end QueryPlan
