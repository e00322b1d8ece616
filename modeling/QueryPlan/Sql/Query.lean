import QueryPlan.Sql.Expr

/-! # SQL queries

Clauses that plans have no counterpart for are kept as their normalised text. -/
namespace QueryPlan.Sql

structure TableAlias where
  name : Ident
  columns : List Ident
deriving DecidableEq,Repr

def TableAlias.text (a : TableAlias) : String :=
  a.name.text ++ if a.columns.isEmpty then "" else " (" ++ commaList (a.columns.map Ident.text) ++ ")"

private def aliasText : Option TableAlias → String
  | some a => " AS " ++ a.text
  | none => ""

/-- One item of a FROM clause. Other table expressions keep the text before and after the place
of their alias. -/
inductive TableFactor where
  | table (name : ObjectName) (label : Option TableAlias) (args : Option (List String))
      (partitions hints : List String)
  | derived (text : String) (label : Option TableAlias)
  | nestedJoin (text : String) (label : Option TableAlias)
  | other (text : String) (label : Option TableAlias) (after : String)
deriving DecidableEq,Repr

def TableFactor.text : TableFactor → String
  | table name label args partitions hints =>
    name.text ++ (if partitions.isEmpty then "" else "PARTITION (" ++ commaList partitions ++ ")")
      ++ (match args with
        | some args => "(" ++ commaList args ++ ")"
        | none => "") ++ aliasText label
      ++ if hints.isEmpty then "" else " WITH (" ++ commaList hints ++ ")"
  | derived text label | nestedJoin text label => text ++ aliasText label
  | other text label after => text ++ aliasText label ++ after

def TableFactor.alias? : TableFactor → Option TableAlias
  | table _ label _ _ _ | derived _ label | nestedJoin _ label | other _ label _ => label

def TableFactor.withAlias (a : TableAlias) : TableFactor → TableFactor
  | table name _ args partitions hints => table name (some a) args partitions hints
  | derived text _ => derived text (some a)
  | nestedJoin text _ => nestedJoin text (some a)
  | other text _ after => other text (some a) after

inductive JoinConstraint where
  | on (condition : Expr)
  | using (columns : List Ident)
  | natural
  | none

/-- The kinds of joins; those without a counterpart in plans keep their words. -/
inductive JoinForm where
  | inner | left | right | full | cross
  | other (words : String)
deriving DecidableEq,Repr

def JoinForm.words : JoinForm → String
  | inner => "JOIN" | left => "LEFT JOIN" | right => "RIGHT JOIN" | full => "FULL JOIN"
  | cross => "CROSS JOIN"
  | other words => words

structure Join where
  form : JoinForm
  factor : TableFactor
  constraint : JoinConstraint

def Join.text (j : Join) : String :=
  match j.constraint with
  | .natural => " NATURAL " ++ j.form.words ++ " " ++ j.factor.text
  | .on condition => " " ++ j.form.words ++ " " ++ j.factor.text ++ " ON " ++ condition.text
  | .using columns => " " ++ j.form.words ++ " " ++ j.factor.text ++ " USING("
      ++ commaList (columns.map Ident.text) ++ ")"
  | .none => " " ++ j.form.words ++ " " ++ j.factor.text

structure TableWithJoins where
  first : TableFactor
  joins : List Join

def TableWithJoins.text (t : TableWithJoins) : String :=
  t.first.text ++ String.join (t.joins.map Join.text)

/-- Wildcards keep the options that leave out, replace or rename columns. -/
inductive SelectItem where
  | expr (e : Expr) (label : Option Ident)
  | wildcard (options : List String)
  | qualifiedWildcard (name : ObjectName) (options : List String)

private def optionsText (options : List String) : String := String.join (options.map (" " ++ ·))

def SelectItem.text : SelectItem → String
  | expr e (some label) => e.text ++ " AS " ++ label.text
  | expr e none => e.text
  | wildcard options => "*" ++ optionsText options
  | qualifiedWildcard name options => name.text ++ ".*" ++ optionsText options

inductive Distinct where
  | rows
  | on (exprs : List String)
deriving DecidableEq,Repr

inductive GroupBy where
  | all
  | exprs (keys : List Expr)

structure Select where
  distinct : Option Distinct
  top : Option String
  items : List SelectItem
  into : Option String
  tables : List TableWithJoins
  lateralViews : List String
  selection : Option Expr
  groupBy : GroupBy
  clusterBy : List String
  distributeBy : List String
  sortBy : List String
  having : Option Expr
  windows : List String
  qualify : Option Expr

private def itemsClause (words : String) (items : List String) : String :=
  if items.isEmpty then "" else " " ++ words ++ " " ++ commaList items

private def exprClause (words : String) : Option Expr → String
  | some e => " " ++ words ++ " " ++ e.text
  | none => ""

private def optional (text : Option String) : String :=
  match text with
  | some t => " " ++ t
  | none => ""

def Select.text (s : Select) : String :=
  "SELECT"
    ++ (match s.distinct with
      | some .rows => " DISTINCT"
      | some (.on exprs) => " DISTINCT ON (" ++ commaList exprs ++ ")"
      | none => "")
    ++ optional s.top ++ " " ++ commaList (s.items.map SelectItem.text) ++ optional s.into
    ++ itemsClause "FROM" (s.tables.map TableWithJoins.text) ++ optionsText s.lateralViews
    ++ exprClause "WHERE" s.selection
    ++ (match s.groupBy with
      | .all => " GROUP BY ALL"
      | .exprs keys => itemsClause "GROUP BY" (keys.map Expr.text))
    ++ itemsClause "CLUSTER BY" s.clusterBy ++ itemsClause "DISTRIBUTE BY" s.distributeBy
    ++ itemsClause "SORT BY" s.sortBy ++ exprClause "HAVING" s.having ++ itemsClause "WINDOW" s.windows
    ++ exprClause "QUALIFY" s.qualify

/-- What stands around the body of a query. -/
structure QueryClauses where
  withClause : Option String := none
  orderBy : List String := []
  limit : Option String := none
  offset : Option String := none
  limitBy : List String := []
  fetch : Option String := none
  locks : List String := []
deriving DecidableEq,Repr

mutual
inductive Query where
  | mk (clauses : QueryClauses) (body : Body)
inductive Body where
  | select (s : Select)
  | query (q : Query)
  | setOperation (text : String)
  | other (text : String)
end

mutual
def Query.text : Query → String
  | .mk c body =>
    (match c.withClause with
      | some w => w ++ " "
      | none => "")
      ++ body.text ++ itemsClause "ORDER BY" c.orderBy
      ++ optional (c.limit.map ("LIMIT " ++ ·)) ++ optional c.offset ++ itemsClause "BY" c.limitBy
      ++ optional c.fetch ++ optionsText c.locks
def Body.text : Body → String
  | .select s => s.text
  | .query q => "(" ++ q.text ++ ")"
  | .setOperation text | .other text => text
end

/-- A statement that is no query says no more than whether it explains something. -/
inductive Statement where
  | query (q : Query)
  | explanation
  | other

end QueryPlan.Sql
