import QueryPlan.CommandLine.Session
import QueryPlan.Proofs.Bytes
import QueryPlan.Proofs.Json.Reading

/-! # Lines of input

Lines that are printed one after the other are read back, as no byte of a line is a line break. So are
the requests that they hold. -/
namespace QueryPlan.Session

/-- A line that asks for the plan of a query over a database. -/
def lineOf (database query : String) : String :=
  (Json.array [.text database,.object [("text",.text query)]]).written

def inputOf (asks : List (String × String)) : List UInt8 :=
  (asks.map fun ask => lineOf ask.1 ask.2).flatMap fun line => bytesOf line ++ [10]

end QueryPlan.Session
