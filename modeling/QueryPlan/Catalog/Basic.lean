import QueryPlan.SqlType
import QueryPlan.Text.Caseless

/-! # Tables, and catalogs of the tables of one database directory -/
namespace QueryPlan

structure Column where
  name : String
  type : SqlType
deriving DecidableEq,Repr

/-- A table, stored in one file. -/
structure Table where
  name : String
  file : String
  columns : List Column
deriving DecidableEq,Repr

def Table.width (t : Table) : Nat := t.columns.length

/-- Tables in name order, found exactly or ignoring ASCII case. -/
structure Catalog where
  root : String
  caseSensitive : Bool
  tables : List Table
deriving DecidableEq,Repr

namespace Catalog

/-- Sorts the tables by name; tables of one name keep their order. -/
def ofTables (root : String) (tables : List Table) (caseSensitive : Bool) : Catalog :=
  { root,caseSensitive,tables := tables.mergeSort (fun a b => a.name ≤ b.name) }

def tableNames (c : Catalog) : List String := c.tables.map Table.name

/-- The first table, in name order, that goes by `name`. -/
def lookup (c : Catalog) (name : String) : Option Table :=
  c.tables.find? fun t => sameName c.caseSensitive t.name name

end Catalog
end QueryPlan
