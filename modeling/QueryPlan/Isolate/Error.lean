import QueryPlan.Catalog.Directory
import QueryPlan.EnginePlan
import QueryPlan.Isolate.Request

/-! # Why an isolate refuses -/
namespace QueryPlan

/-- Failures of isolates themselves, and failures of the parts that serve a request. -/
inductive IsolateError where
  | exhausted (limit : Nat)
  | stale (isolate : Nat)
  | invalidRequest (reason : InvalidRequest)
  | catalog (e : CatalogError)
  | query (e : QueryError)
  | encode (e : EncodeError)
deriving DecidableEq,Repr

namespace IsolateError

/-- The code of the part that failed. -/
def code : IsolateError → String
  | exhausted _ => "AETHRA_ISOLATE_EXHAUSTED"
  | stale _ => "AETHRA_ISOLATE_STALE"
  | invalidRequest _ => "AETHRA_REQUEST_INVALID"
  | catalog e => e.code
  | query e => e.code
  | encode _ => EncodeError.code

def message : IsolateError → String
  | exhausted limit => "Isolate limit of " ++ toString limit ++ " reached"
  | stale isolate => "Isolate " ++ toString isolate ++ " is unknown or has been released"
  | invalidRequest reason => "Invalid plan request: " ++ reason.message
  | catalog e => e.message
  | query e => e.message
  | encode e => e.operator ++ ": " ++ e.message

/-- One line for a reader; a part that failed is shown in its own way. -/
def display : IsolateError → String
  | catalog e => e.display
  | query e => e.display
  | encode e => e.display
  | e => e.message

end IsolateError
end QueryPlan
