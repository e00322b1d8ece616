import QueryPlan.Json.Quoted
import QueryPlan.Log.Severity

/-! # Log entries, their lines and what they report

Work returns the entries it gives rise to; which of them are written depends on the
minimum severity alone. -/
namespace QueryPlan

/-- One thing worth logging. A timed entry ends with the time its work took. -/
structure LogEntry where
  severity : Severity
  event : String
  fields : List (String × String)
  timed : Bool := false
deriving DecidableEq,Repr

namespace LogEntry

/-- A JSON object on one line: event, severity, then the fields in the order of their keys. -/
def line (severity : Severity) (event : String) (fields : List (String × String)) : String :=
  "\x7b\"event\":" ++ Json.quoted event ++ ",\"severity\":\"" ++ severity.name ++ "\""
    ++ String.join ((fields.mergeSort (fun a b => a.1 ≤ b.1)).map fun f =>
      "," ++ Json.quoted f.1 ++ ":" ++ Json.quoted f.2) ++ "\x7d\n"

/-- The line of an entry whose work took some microseconds. -/
def text (micros : Nat) (e : LogEntry) : String :=
  line e.severity e.event (if e.timed then e.fields ++ [("elapsed_us",toString micros)] else e.fields)

/-- The lines written at a minimum severity. -/
def written (minimum : Severity) (micros : Nat) (entries : List LogEntry) : List String :=
  (entries.filter fun e => e.severity.reaches minimum).map (text micros)

end LogEntry

/-! ## Events of planning -/

inductive Event where
  | configLoaded
  | isolateCreated | isolateReleased | isolateExhausted | isolateStale
  | planReceived | catalogLoaded | catalogCacheHit | planOptimised | planEncoded | planRejected
  | sessionStart | sessionEnd
deriving DecidableEq,Repr

namespace Event

def name : Event → String
  | configLoaded => "CONFIG_LOADED"
  | isolateCreated => "ISOLATE_CREATED"
  | isolateReleased => "ISOLATE_RELEASED"
  | isolateExhausted => "ISOLATE_EXHAUSTED"
  | isolateStale => "ISOLATE_STALE"
  | planReceived => "PLAN_RECEIVED"
  | catalogLoaded => "CATALOG_LOADED"
  | catalogCacheHit => "CATALOG_CACHE_HIT"
  | planOptimised => "PLAN_OPTIMISED"
  | planEncoded => "PLAN_ENCODED"
  | planRejected => "PLAN_REJECTED"
  | sessionStart => "SESSION_START"
  | sessionEnd => "SESSION_END"

def all : List Event :=
  [configLoaded,isolateCreated,isolateReleased,isolateExhausted,isolateStale,planReceived,
    catalogLoaded,catalogCacheHit,planOptimised,planEncoded,planRejected,sessionStart,sessionEnd]

def isFailure : Event → Bool
  | isolateExhausted | isolateStale | planRejected => true
  | _ => false

/-- Failures are warnings, all else is information. -/
def severity (e : Event) : Severity := if e.isFailure then .warn else .info

def entry (e : Event) (fields : List (String × String)) : LogEntry :=
  { severity := e.severity,event := e.name,fields }

end Event

/-! ## Observed work

Work that is observed logs its beginning and one of three endings. -/

/-- Work in progress, with the fields that its entries share. -/
structure Observation where
  name : String
  fields : List (String × String)
deriving DecidableEq,Repr

namespace Observation

def begun (o : Observation) : LogEntry :=
  { severity := .info,event := o.name ++ "_BEGIN",fields := o.fields }

def completed (o : Observation) (extra : List (String × String)) : LogEntry :=
  { severity := .info,event := o.name ++ "_COMPLETE",fields := o.fields ++ extra,timed := true }

def failed (o : Observation) (code reason : String) : LogEntry :=
  { severity := .error,event := o.name ++ "_FAILED",
    fields := o.fields ++ [("code",code),("reason",reason)] }

/-- Work that was given up without an ending. -/
def abandoned (o : Observation) : LogEntry :=
  { severity := .warn,event := o.name ++ "_INCOMPLETE",
    fields := [("reason","scope dropped without completion")] }

end Observation

end QueryPlan
