import QueryPlan.Catalog.Basic
import QueryPlan.EnginePlan
import QueryPlan.Proofs.Relation.WellFormed
import QueryPlan.Sql.Lexer

/-! # Reading engine plans

The way back from the text of a plan. Columns take their types from the rows they stand over, calls
from their operands; names of output columns are lost. -/
namespace QueryPlan

/-- A join equality with the lower column first. -/
def Expr.lowerFirst : Expr → Expr
  | .call .eq [.column a s,.column b t] u =>
    if a ≤ b then .call .eq [.column a s,.column b t] u
    else .call .eq [.column b t,.column a s] u
  | e => e

/-- The call without the name of its column. -/
def AggregateCall.unnamed (c : AggregateCall) : AggregateCall := { c with name := "" }

/-- The plan without the names of projected and aggregated columns, and with the operands of join
equalities in order. -/
def Plan.canonical : Plan → Plan
  | scan t => scan t
  | arrowScan t cols => arrowScan t cols
  | filter input condition => filter input.canonical condition
  | project input exprs _ => project input.canonical exprs []
  | join left right condition kind => join left.canonical right.canonical condition.lowerFirst kind
  | aggregate input groups calls =>
    aggregate input.canonical groups (calls.map AggregateCall.unnamed)

namespace EnginePlan

/-- Reads a value at the front of a text; the rest comes back with it. -/
abbrev Reader (α : Type) := List Char → Option (α × List Char)

namespace Reading

/-- What follows a mark. -/
def after (mark cs : List Char) : Option (List Char) :=
  if mark.isPrefixOf cs then some (cs.drop mark.length) else none

/-- At least one and at most so many items, with marks in between. -/
def separated {α : Type} (mark : List Char) (item : Reader α) : Nat → Reader (List α)
  | 0,_ => none
  | n+1,cs => do
    let (a,rest) ← item cs
    match after mark rest with
    | some rest =>
      let (as,rest) ← separated mark item n rest
      return (a :: as,rest)
    | none => return ([a],rest)

/-- Any number of items up to a closing character. -/
def listed {α : Type} (mark : List Char) (item : Reader α) (closing : Char) : Reader (List α)
  | [] => none
  | c :: cs =>
    if c = closing then some ([],cs)
    else do
      let (as,rest) ← separated mark item (cs.length+1) (c :: cs)
      return (as,← after [closing] rest)

def number : Reader Nat := fun cs => do
  return (← Literal.digitsValue? (cs.takeWhile Char.isDigit),cs.dropWhile Char.isDigit)

/-- A number and the semicolon behind it. -/
def field : Reader Nat := fun cs => do
  let (n,rest) ← number cs
  return (n,← after [';'] rest)

/-- The characters that cannot stand in the name of an operator or in a literal without quotes. -/
def endsWord (c : Char) : Bool := ['(',')',',',':',']','\'','\n'].contains c

def word (cs : List Char) : List Char := cs.takeWhile fun c => !endsWord c

def behindWord (cs : List Char) : List Char := cs.dropWhile fun c => !endsWord c

/-- Types of a single word. -/
def plainTypes : List SqlType := [.integer,.bigInt,.varchar,.date,.double,.boolean,.null]

def type : Reader SqlType := fun cs =>
  match plainTypes.find? (·.text.toList = word cs) with
  | some t => some (t,behindWord cs)
  | none =>
    if word cs = "CHAR".toList then do
      let (width,rest) ← number (← after ['('] (behindWord cs))
      return (.char (UInt32.ofNat width),← after [')'] rest)
    else do
      let (precision,rest) ← number (← after ['('] (behindWord cs))
      let rest ← after ", ".toList rest
      let scale ← Literal.wholeNumber? (word rest)
      return (.decimal (UInt8.ofNat precision) (Int8.ofInt scale.toInt),
        ← after [')'] (behindWord rest))

/-- A number with its type behind it. -/
def typedNumber (text : List Char) : Reader Literal := fun cs =>
  match after "DOUBLE".toList cs with
  | some rest => some (.double (String.ofList text),rest)
  | none => do
    return (.decimal (String.ofList text),
      ← after (Literal.decimalType (String.ofList text)).text.toList cs)

/-- The literal of a single word. Only in dates a dash stands behind another character. -/
def plainLiteral? (cs : List Char) : Option Literal :=
  if cs = "true".toList then some (.boolean true)
  else if cs = "false".toList then some (.boolean false)
  else if cs = "null".toList then some .null
  else if '-' ∈ cs.tail then some (.date (String.ofList cs))
  else (Literal.wholeNumber? cs).map .integer

/-- A column of the row or a literal. -/
def atom? (types : List SqlType) : List Char → Option Expr
  | '$' :: ds => do
    let i ← Literal.digitsValue? ds
    return .column i (← types[i]?)
  | cs => (plainLiteral? cs).map .literal

def operators : List Operator :=
  [.eq,.notEq,.lt,.ltEq,.gt,.gtEq,.and,.or,.not,.plus,.minus,.multiply,.divide,.modulo,
    .negate,.isNull,.isNotNull,.like]

/-- The call of an operator that goes by the name and takes the operands. -/
def call? (name : List Char) (args : List Expr) : Option Expr :=
  operators.findSome? fun op =>
    if op.name.toList = name then (op.resultType? (args.map Expr.type)).map (.call op args) else none

/-- An expression over a row with columns of the given types, in which calls nest less deep than the
given number. -/
def expr (types : List SqlType) : Nat → Reader Expr
  | 0,_ => none
  | n+1,cs =>
    match behindWord cs with
    | '(' :: rest => do
      let (args,rest) ← listed ", ".toList (expr types n) ')' rest
      if word cs = "CAST".toList then
        let (t,rest) ← type (← after [':'] rest)
        return (.call .cast args t,rest)
      else return (← call? (word cs) args,rest)
    | ':' :: rest => do
      let (v,rest) ← typedNumber (word cs) rest
      return (.literal v,rest)
    | '\'' :: rest => do
      let (s,rest) ← Sql.Lexer.untilMark '\'' rest
      return (.literal (.string (String.ofList s)),rest)
    | rest => do return (← atom? types (word cs),rest)

def functions : List AggregateFunction := [.count,.sum,.avg,.min,.max]

/-- A column number behind a dollar sign. -/
def argument : Reader Nat := fun cs => do number (← after ['$'] cs)

/-- An aggregate over columns of the given types. -/
def aggregateCall (types : List SqlType) : Reader AggregateCall := fun cs => do
  let f ← functions.find? (·.name.toList = word cs)
  let (args,rest) ← listed ", ".toList argument ')' (← after ['('] (behindWord cs))
  let t := f.resultType (args.head?.bind fun a => types[a]?)
  return ({ function := f,distinct := false,args,type := t,name := "" },rest)

/-- The parts of a text before and behind its last semicolon. -/
def cutLast (cs : List Char) : List Char × List Char :=
  (((cs.reverse.dropWhile (· != ';')).drop 1).reverse,(cs.reverse.takeWhile (· != ';')).reverse)

/-- A scan. The name of its table may hold semicolons, so it is read from behind. -/
def scan (c : Catalog) : Reader Plan := fun cs => do
  let (front,columns) := cutLast (cs.takeWhile (· != '\n'))
  let t ← c.tables.find? (·.name.toList = (cutLast front).1)
  let (cols,_) ← listed [','] number '\n' (columns ++ ['\n'])
  return (.arrowScan t cols,← after ['\n'] (cs.dropWhile (· != '\n')))

/-- The plan of a line, given those of the lines before. -/
def line (c : Catalog) (plans : List Plan) : Reader Plan
  | 'S' :: ';' :: cs => scan c cs
  | 'F' :: ';' :: cs => do
    let (i,cs) ← field cs
    let input ← plans[i]?
    let (condition,cs) ← expr input.types cs.length cs
    return (.filter input condition,← after ['\n'] cs)
  | 'P' :: ';' :: cs => do
    let (i,cs) ← field cs
    let input ← plans[i]?
    let cs ← after ['['] cs
    let (exprs,cs) ← listed ", ".toList (expr input.types cs.length) ']' cs
    return (.project input exprs [],← after ['\n'] cs)
  | 'A' :: ';' :: cs => do
    let (i,cs) ← field cs
    let input ← plans[i]?
    let (groups,cs) ← listed [','] number ';' cs
    let (calls,cs) ← listed [','] (aggregateCall input.types) '\n' cs
    return (.aggregate input groups calls,cs)
  | 'J' :: ';' :: cs => do
    let (i,cs) ← field cs
    let (j,cs) ← field cs
    let left ← plans[i]?
    let right ← plans[j]?
    let (lower,cs) ← field cs
    let (higher,cs) ← number cs
    let types := left.types ++ right.types
    let operands := [.column lower (← types[lower]?),.column higher (← types[higher]?)]
    return (.join left right (.call .eq operands .boolean) .inner,← after ['\n'] cs)
  | _ => none

/-- The plans of at most so many lines, behind those of the lines before. -/
def lines (c : Catalog) : Nat → List Plan → List Char → Option (List Plan)
  | _,plans,[] => some plans
  | 0,_,_ => none
  | n+1,plans,cs => do
    let (p,rest) ← line c plans cs
    lines c n (plans ++ [p]) rest

end Reading

/-- The plan that a text over a catalog stands for: that of the last line. -/
def decode (c : Catalog) (text : String) : Option Plan := do
  let plans ← Reading.lines c text.length [] text.toList
  plans.getLast?

end EnginePlan
end QueryPlan
