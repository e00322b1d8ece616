import QueryPlan.Files.Basic
import QueryPlan.Json.Raw
import QueryPlan.QueryError
import QueryPlan.Text.CharClass
import QueryPlan.Text.Escaped

/-! # Plan requests

A request names a database directory and a query, which is given as a text or as the path of
a file. -/
namespace QueryPlan

inductive QuerySource where
  | path (path : String)
  | text (text : String)
deriving DecidableEq,Repr

structure PlanRequest where
  database : String
  query : QuerySource
deriving DecidableEq,Repr

/-- Requests that are refused before anything is read. -/
inductive InvalidRequest where
  | emptyDatabase | emptyQueryPath | blankQuery
deriving DecidableEq,Repr

def InvalidRequest.message : InvalidRequest → String
  | emptyDatabase => "database path is empty"
  | emptyQueryPath => "query path is empty"
  | blankQuery => "query text is blank"

/-- Ways in which a JSON value can fail to be a request. -/
inductive ShapeError where
  | wrongType (found expected : String)
  | missing (member : String)
  | tooShort (length : Nat)
  | tooLong (length : Nat)
  | severalMembers
  | unknownVariant (name : String)
  | bareVariant
deriving DecidableEq,Repr

def ShapeError.message : ShapeError → String
  | wrongType found expected => "invalid type: " ++ found ++ ", expected " ++ expected
  | missing member => "missing field \x60" ++ member ++ "\x60"
  | tooShort length =>
    "invalid length " ++ toString length ++ ", expected struct PlanRequest with 2 elements"
  | tooLong length => "invalid length " ++ toString length ++ ", expected fewer elements in array"
  | severalMembers => "invalid value: map, expected map with a single key"
  | unknownVariant name => "unknown variant \x60" ++ name ++ "\x60, expected \x60path\x60 or \x60text\x60"
  | bareVariant => "invalid type: unit variant, expected newtype variant"

/-- A few words on a value of the wrong type. -/
def Json.summary : Json → String
  | .null => "null"
  | .boolean b => "boolean \x60" ++ (if b then "true" else "false") ++ "\x60"
  | .integer n => "integer \x60" ++ toString n ++ "\x60"
  | .float x => "floating point \x60" ++ floatText x ++ "\x60"
  | .text s => "string " ++ Text.quoted s
  | .array _ => "sequence"
  | .object _ => "map"

namespace QuerySource

def textOf (expected : String) : Json → Except ShapeError String
  | .text s => .ok s
  | j => .error (.wrongType j.summary expected)

def ofVariant (name : String) (value : Json) : Except ShapeError QuerySource :=
  if name = "path" then (textOf "path string" value).map path
  else if name = "text" then (textOf "a string" value).map text
  else .error (.unknownVariant name)

/-- An object with one member, which is a path or a text. -/
def ofJson : Json → Except ShapeError QuerySource
  | .object [(name,value)] => ofVariant name value
  | .object _ => .error .severalMembers
  | .text name =>
    if name = "path" || name = "text" then .error .bareVariant else .error (.unknownVariant name)
  | j => .error (.wrongType j.summary "string or map")

end QuerySource

namespace PlanRequest

private def member {α : Type} (members : List (String × Json)) (name : String)
    (read : Json → Except ShapeError α) : Except ShapeError (Option α) :=
  match members.lookup name with
  | none => .ok none
  | some value => (read value).map some

private def required {α : Type} (name : String) : Option α → Except ShapeError α
  | some a => .ok a
  | none => .error (.missing name)

/-- An object with both members, or an array of the two values. A member of the wrong type is
reported before one that is missing. -/
def ofJson : Json → Except ShapeError PlanRequest
  | .object members => do
    let database ← member members "database" (QuerySource.textOf "path string")
    let query ← member members "query" QuerySource.ofJson
    return { database := ← required "database" database,query := ← required "query" query }
  | .array [] => .error (.tooShort 0)
  | .array [database] => do
    let _ ← QuerySource.textOf "path string" database
    .error (.tooShort 1)
  | .array (database :: query :: more) => do
    let database ← QuerySource.textOf "path string" database
    let query ← QuerySource.ofJson query
    if more.isEmpty then return { database,query } else .error (.tooLong (more.length+2))
  | j => .error (.wrongType j.summary "struct PlanRequest")

def validate (r : PlanRequest) : Except InvalidRequest Unit :=
  if r.database.isEmpty then .error .emptyDatabase
  else match r.query with
    | .path p => if p.isEmpty then .error .emptyQueryPath else .ok ()
    | .text t => if t.toList.all Text.isBlank then .error .blankQuery else .ok ()

/-- The text of the query. -/
def readQuery (fs : FileSystem) (r : PlanRequest) : Except QueryError String :=
  match r.query with
  | .text t => .ok t
  | .path p =>
    match fs.readText p with
    | .ok t => .ok t
    | .error reason => .error (.unreadable p reason.message)

end PlanRequest
end QueryPlan
