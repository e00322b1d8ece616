import QueryPlan.SqlType

/-! # Why a query cannot be planned -/
namespace QueryPlan

/-- The part of a query in which an expression stands. -/
inductive Clause where
  | whereClause | on | groupBy | select | having | aggregateArgument
deriving DecidableEq,Repr

def Clause.name : Clause → String
  | whereClause => "WHERE"
  | on => "ON"
  | groupBy => "GROUP BY"
  | select => "SELECT"
  | having => "HAVING"
  | aggregateArgument => "aggregate argument"

/-- Ways in which a query that parses still makes no sense. -/
inductive InvalidQuery where
  | noStatement
  | severalStatements
  | notASelect
  | joinWithoutCondition (kind : String)
  | duplicateRelation (name : String)
  | nestedAggregate
  | aggregateIn (clause : Clause)
  | argumentCount (function : String)
  | dateText (text : String)
  | emptyIdentifier
  | emptyInList
  | numberTooWide (text : String)
  | decimalShape (precision scale : Nat)
deriving DecidableEq,Repr

def InvalidQuery.message : InvalidQuery → String
  | noStatement => "Query text holds no statement"
  | severalStatements => "Query text must hold exactly one statement"
  | notASelect => "Only SELECT statements can be planned"
  | joinWithoutCondition kind => kind ++ " join requires a condition"
  | duplicateRelation name => "Duplicate relation name '" ++ name ++ "' in FROM clause"
  | nestedAggregate => "Aggregate expressions cannot be nested"
  | aggregateIn clause => "Aggregate expression is illegal in " ++ clause.name ++ " clause"
  | argumentCount function => "Invalid number of arguments to function '" ++ function ++ "'"
  | dateText text => "Illegal DATE literal '" ++ text ++ "'"
  | emptyIdentifier => "Empty identifier"
  | emptyInList => "IN list must not be empty"
  | numberTooWide text => "Numeric literal " ++ text ++ " exceeds the maximum precision of "
      ++ toString SqlType.maxPrecision.toNat
  | decimalShape precision scale => "Invalid DECIMAL precision and scale (" ++ toString precision
      ++ ", " ++ toString scale ++ ")"

/-- Ways in which the types of a query do not fit. -/
inductive TypeMismatch where
  | operands (function : String) (types : List SqlType)
  | notACondition (clause : Clause) (type : SqlType)
  | noConversion (source target : SqlType)
deriving DecidableEq,Repr

def TypeMismatch.message : TypeMismatch → String
  | operands function types => "Cannot apply '" ++ function ++ "' to arguments of type <"
      ++ ", ".intercalate (types.map SqlType.text) ++ ">"
  | notACondition clause type => clause.name ++ " clause must be a condition, found type "
      ++ type.text
  | noConversion source target => "Cast function cannot convert value of type " ++ source.text
      ++ " to type " ++ target.text

/-- Parts of SQL that parse and have no counterpart in an engine plan. -/
inductive Feature where
  | withClause | orderBy | limit | offset | fetch
  | setOperation | otherBody
  | top | selectInto | groupByAll | distinctOn | withoutFrom
  | semiJoin | joinUsing | naturalJoin
  | columnAliases | subquery | parenthesizedJoin
  | windowFunction | bareFilterCondition
  | tableExpression (text : String)
  | typedLiteral (type : String)
  | operator (text : String)
  | function (name : String)
  | expression (text : String)
  | literal (text : String)
  | dataType (text : String)
deriving DecidableEq,Repr

def Feature.text : Feature → String
  | withClause => "WITH"
  | orderBy => "ORDER BY"
  | limit => "LIMIT"
  | offset => "OFFSET"
  | fetch => "FETCH"
  | setOperation => "Set operations (UNION, INTERSECT, EXCEPT)"
  | otherBody => "Query body other than SELECT"
  | top => "TOP"
  | selectInto => "SELECT INTO"
  | groupByAll => "GROUP BY ALL"
  | distinctOn => "DISTINCT ON"
  | withoutFrom => "SELECT without FROM"
  | semiJoin => "Semi, anti and apply joins"
  | joinUsing => "JOIN ... USING"
  | naturalJoin => "NATURAL JOIN"
  | columnAliases => "Column aliases in FROM"
  | subquery => "Subqueries"
  | parenthesizedJoin => "Parenthesized joins"
  | windowFunction => "Window functions"
  | bareFilterCondition => "Filter condition that is not an operator call"
  | tableExpression text => "Table expression '" ++ text ++ "'"
  | typedLiteral type => type ++ " literals"
  | operator text => "Operator '" ++ text ++ "'"
  | function name => "Function '" ++ name ++ "'"
  | expression text => "Expression '" ++ text ++ "'"
  | literal text => "Literal " ++ text
  | dataType text => "Type " ++ text

/-- Reasons to refuse a query. -/
inductive QueryError where
  | unparsable (detail : String)
  | invalid (reason : InvalidQuery)
  | unknownTable (name : String)
  | unknownColumn (name : String)
  | ambiguousColumn (name : String)
  | mismatch (reason : TypeMismatch)
  | notGrouped (expression : String)
  | unsupported (feature : Feature)
  | unreadable (path detail : String)
deriving DecidableEq,Repr

namespace QueryError

def code : QueryError → String
  | unparsable _ => "AETHRA_QUERY_PARSE"
  | invalid _ => "AETHRA_QUERY_INVALID"
  | unknownTable _ => "AETHRA_QUERY_UNKNOWN_TABLE"
  | unknownColumn _ => "AETHRA_QUERY_UNKNOWN_COLUMN"
  | ambiguousColumn _ => "AETHRA_QUERY_AMBIGUOUS_COLUMN"
  | mismatch _ => "AETHRA_QUERY_TYPE_MISMATCH"
  | notGrouped _ => "AETHRA_QUERY_NOT_GROUPED"
  | unsupported _ => "AETHRA_QUERY_UNSUPPORTED"
  | unreadable _ _ => "AETHRA_QUERY_IO"

def message : QueryError → String
  | unparsable detail => "Failed to parse query: " ++ detail
  | invalid reason => reason.message
  | unknownTable name => "Object '" ++ name ++ "' not found"
  | unknownColumn name => "Column '" ++ name ++ "' not found in any table"
  | ambiguousColumn name => "Column '" ++ name ++ "' is ambiguous"
  | mismatch reason => reason.message
  | notGrouped expression => "Expression '" ++ expression ++ "' is not being grouped"
  | unsupported feature => feature.text ++ " is not supported"
  | unreadable path detail => "Failed to read query '" ++ path ++ "': " ++ detail

/-- The table, column or expression at fault, where there is one. -/
def object? : QueryError → Option String
  | unknownTable name | unknownColumn name | ambiguousColumn name | notGrouped name => some name
  | _ => none

/-- A query that cannot be read is an error; every other one is refused. -/
def severity : QueryError → String
  | unreadable _ _ => "ERROR"
  | _ => "REJECT"

/-- One line with severity, code and message. -/
def display (e : QueryError) : String :=
  "[" ++ e.severity ++ "] " ++ e.code ++ ": " ++ e.message

end QueryError
end QueryPlan
