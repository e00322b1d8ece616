import QueryPlan.Isolate.Registry

/-! # The interface for other languages

Calls take and give numbers and texts that end in a zero byte. Every call has a status; a plan
that succeeds is written to one place and the reason of a failure to another, and the caller
may leave out either place. -/
namespace QueryPlan.Abi

def version : Nat := 1

inductive Status where
  | ok | invalidArgument | staleIsolate | planFailed | exhausted | internal
deriving DecidableEq,Repr

def Status.number : Status → Int
  | ok => 0
  | invalidArgument => -1
  | staleIsolate => -2
  | planFailed => -3
  | exhausted => -4
  | internal => -5

def Status.ofError : IsolateError → Status
  | .stale _ => staleIsolate
  | .exhausted _ => exhausted
  | .invalidRequest _ => invalidArgument
  | .catalog _ | .query _ | .encode _ => planFailed

def Status.ofResult {α : Type} : Except IsolateError α → Status
  | .ok _ => ok
  | .error e => ofError e

/-- The status of a plan. A panic is caught. -/
def Status.ofPlan (result : Except (Stop IsolateError) PlanResponse) : Status :=
  match Stop.returned? result with
  | some result => ofResult result
  | none => internal

/-- The answer to a planning call, with the state of the registries afterwards. -/
structure Answer (State : Type) where
  status : Status
  out : Option String
  err : Option String
  registry : State
  entries : List LogEntry

/-- The raw handle of a new isolate, or zero. -/
def create (r : Registry) : Nat × Registry × List LogEntry :=
  let created := r.create
  let raw := match created.result with
    | .ok h => h.raw
    | .error _ => 0
  (raw,created.registry,created.entries)

def release (r : Registry) (raw : Nat) : Status × Registry × List LogEntry :=
  match IsolateHandle.ofRaw? raw with
  | none => (.staleIsolate,r,[])
  | some h =>
    let released := r.release h
    (Status.ofResult released.result,released.registry,released.entries)

/-- The text of an argument, which may be missing and ends before the first zero byte. -/
def argument (name : String) : Option (List UInt8) → Except String String
  | none => .error (name ++ " is null")
  | some bytes =>
    match String.fromUTF8? (ByteArray.mk (bytes.takeWhile (· ≠ 0)).toArray) with
    | some text => .ok text
    | none => .error (name ++ " is not valid UTF-8")

/-- A text without zero bytes. -/
def written (text : String) : String :=
  String.ofList (text.toList.map fun c => if c = '\x00' then ' ' else c)

/-- What a planning call makes out by itself: why it fails, or which isolate is to serve which
request. -/
def checked (raw : Nat) (database query : Option (List UInt8)) :
    Except (Status × String) (IsolateHandle × PlanRequest) :=
  match argument "database" database,argument "query_path" query with
  | .error reason,_ => .error (.invalidArgument,reason)
  | .ok _,.error reason => .error (.invalidArgument,reason)
  | .ok database,.ok query =>
    match IsolateHandle.ofRaw? raw with
    | none => .error (.staleIsolate,(IsolateError.stale raw).message)
    | some h => .ok (h,{ database,query := .path query })

/-- The plan, or what is told of an error or of a panic. -/
def resultText (result : Except (Stop IsolateError) PlanResponse) : String :=
  match Stop.returned? result with
  | some (.ok response) => response.plan
  | some (.error e) => e.code ++ ": " ++ e.message
  | none => "planner panicked"

/-- Status and text of a planning call, before it is known where the text goes. -/
def planText (r : Registry) (fs : FileSystem) (raw : Nat) (database query : Option (List UInt8)) :
    Status × String × Registry × List LogEntry :=
  match checked raw database query with
  | .error (status,reason) => (status,reason,r,[])
  | .ok (h,request) =>
    let planned := r.plan fs h request
    (Status.ofPlan planned.result,resultText planned.result,planned.registry,planned.entries)

/-- Puts the text of a call where it belongs. `out` and `err` say whether the caller gave the two
places. -/
def settle {State : Type} (status : Status) (text : String) (registry : State)
    (entries : List LogEntry) (out err : Bool) : Answer State :=
  if status = .ok then
    if out then { status,out := some (written text),err := none,registry,entries }
    else { status := .invalidArgument,out := none,err := none,registry,entries }
  else { status,out := none,err := if err then some (written text) else none,registry,entries }

/-- Plans the query of a file. -/
def plan (r : Registry) (fs : FileSystem) (raw : Nat) (database query : Option (List UInt8))
    (out err : Bool) : Answer Registry :=
  let (status,text,registry,entries) := planText r fs raw database query
  settle status text registry entries out err

/-! ## The registry of a process

The calls of a process share one registry. The first of them configures it; where that fails,
every call meets the same error. -/

abbrev Shared := Except ConfigError Registry

namespace Shared

def configure (refusal : String → String) (fs : FileSystem) (path : Option String) :
    Shared × List LogEntry :=
  match Config.loadOrDefault refusal fs path with
  | .ok config => (.ok (Registry.new config),
      [Event.configLoaded.entry [("max_isolates",toString config.maxIsolates)]])
  | .error e => (.error e,[])

def refusal (e : ConfigError) : LogEntry :=
  { severity := .error,event := "FFI_CONFIG_INVALID",fields := [("reason",e.message)] }

def create : Shared → Nat × Shared × List LogEntry
  | .ok r =>
    let (raw,r,entries) := Abi.create r
    (raw,.ok r,entries)
  | .error e => (0,.error e,[refusal e])

def release : Shared → Nat → Status × Shared × List LogEntry
  | .ok r,raw =>
    let (status,r,entries) := Abi.release r raw
    (status,.ok r,entries)
  | .error e,_ => (.internal,.error e,[refusal e])

def planText (shared : Shared) (fs : FileSystem) (raw : Nat) (database query : Option (List UInt8)) :
    Status × String × Shared × List LogEntry :=
  match shared with
  | .ok r =>
    let (status,text,r,entries) := Abi.planText r fs raw database query
    (status,text,.ok r,entries)
  | .error e =>
    match checked raw database query with
    | .error (status,reason) => (status,reason,.error e,[])
    | .ok _ => (.internal,e.message,.error e,[refusal e])

def plan (shared : Shared) (fs : FileSystem) (raw : Nat) (database query : Option (List UInt8))
    (out err : Bool) : Answer Shared :=
  let (status,text,shared,entries) := shared.planText fs raw database query
  settle status text shared entries out err

end Shared
end QueryPlan.Abi
