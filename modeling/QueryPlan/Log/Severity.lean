/-! # Severities of log entries -/
namespace QueryPlan

inductive Severity where
  | trace | info | warn | error | fatal
deriving DecidableEq,Repr

namespace Severity

def rank : Severity → Nat
  | trace => 0 | info => 1 | warn => 2 | error => 3 | fatal => 4

def name : Severity → String
  | trace => "TRACE" | info => "INFO" | warn => "WARN" | error => "ERROR" | fatal => "FATAL"

/-- Reads a level name in any ASCII case. -/
def ofName? (level : String) : Option Severity :=
  match level.toLower with
  | "trace" => some trace
  | "info" => some info
  | "warn" => some warn
  | "error" => some error
  | "fatal" => some fatal
  | _ => none

/-- An entry is written when its severity is at least the minimum. -/
def reaches (s minimum : Severity) : Bool := minimum.rank ≤ s.rank

end Severity
end QueryPlan
