import QueryPlan.Isolate.Metrics
import QueryPlan.Isolate.Session

/-! # Registries of isolates

A registry creates isolates up to a limit, hands requests to them and releases them. Handles
are never used twice, so a handle whose isolate was released stays stale. -/
namespace QueryPlan

/-- Names an isolate. -/
structure IsolateHandle where
  raw : Nat
deriving DecidableEq,Repr

/-- Zero names no isolate. -/
def IsolateHandle.ofRaw? (raw : Nat) : Option IsolateHandle :=
  if raw = 0 then none else some ⟨raw⟩

structure Registry where
  config : Config
  isolates : List (Nat × Isolate)
  nextId : Nat
  metrics : Metrics

/-- The result of an operation, the registry afterwards and what was logged. -/
structure Outcome (ε α : Type) where
  result : Except ε α
  registry : Registry
  entries : List LogEntry

namespace Registry

def new (config : Config) : Registry := { config,isolates := [],nextId := 1,metrics := {} }

def liveCount (r : Registry) : Nat := r.isolates.length

def count (r : Registry) (c : Metrics.Counter) : Registry :=
  { r with metrics := r.metrics.increment c }

def isolate? (r : Registry) (h : IsolateHandle) : Option Isolate := r.isolates.lookup h.raw

/-- Replaces the isolate of a handle. -/
def set (r : Registry) (h : IsolateHandle) (s : Isolate) : Registry :=
  { r with isolates := r.isolates.map fun e => if e.1 == h.raw then (e.1,s) else e }

def erase (r : Registry) (h : IsolateHandle) : Registry :=
  { r with isolates := r.isolates.filter (·.1 != h.raw) }

/-- Refuses a handle that names no live isolate. -/
def refuse {α : Type} (r : Registry) (h : IsolateHandle) : Outcome IsolateError α :=
  { result := .error (.stale h.raw),registry := r.count .staleHandleUses,
    entries := [Event.isolateStale.entry [("isolate",toString h.raw)]] }

/-- Creates an isolate unless the limit is reached. -/
def create (r : Registry) : Outcome IsolateError IsolateHandle :=
  let limit := r.config.maxIsolates
  if limit ≤ r.liveCount then
    { result := .error (.exhausted limit),registry := r.count .isolatesExhausted,
      entries := [Event.isolateExhausted.entry [("limit",toString limit)]] }
  else
    let id := r.nextId
    let grown := { r with isolates := r.isolates ++ [(id,Isolate.new id r.config)],nextId := id+1 }
    { result := .ok ⟨id⟩,registry := grown.count .isolatesCreated,
      entries := [Event.isolateCreated.entry [("isolate",toString id)]] }

/-- Releases an isolate, with all that it kept. -/
def release (r : Registry) (h : IsolateHandle) : Outcome IsolateError Unit :=
  match r.isolate? h with
  | none => r.refuse h
  | some s =>
    { result := .ok (),registry := (r.erase h).count .isolatesReleased,
      entries := [Event.isolateReleased.entry
        [("isolate",toString h.raw),("plans",toString s.plansServed)]] }

/-- Counts a served request. One that panics is neither a success nor a failure. -/
def countServed (r : Registry) (served : Served) : Registry :=
  let r := if served.cacheHit then r.count .catalogCacheHits else r
  match served.result with
  | .ok _ => r.count .plansSucceeded
  | .error (.failed _) => r.count .plansFailed
  | .error .panicked => r

/-- Hands a request to the isolate of a handle. -/
def plan (r : Registry) (fs : FileSystem) (h : IsolateHandle) (request : PlanRequest) :
    Outcome (Stop IsolateError) PlanResponse :=
  match r.isolate? h with
  | none =>
    let refused := r.refuse h
    { refused with result := refused.result.mapError .failed }
  | some s =>
    let served := s.serve fs request
    { result := served.result,registry := (r.set h served.isolate).countServed served,
      entries := served.entries }

end Registry

/-- Owns an isolate for as long as some work takes. -/
structure IsolateGuard where
  handle : IsolateHandle
deriving DecidableEq,Repr

namespace IsolateGuard

/-- Creates an isolate and owns it. -/
def acquire (r : Registry) : Outcome IsolateError IsolateGuard :=
  let created := r.create
  { created with result := created.result.map IsolateGuard.mk }

def plan (g : IsolateGuard) (r : Registry) (fs : FileSystem) (request : PlanRequest) :
    Outcome (Stop IsolateError) PlanResponse := r.plan fs g.handle request

/-- Gives the isolate back and reports how that went. -/
def release (g : IsolateGuard) (r : Registry) : Outcome IsolateError Unit := r.release g.handle

/-- Gives the isolate back, whether or not it is still live. -/
def drop (g : IsolateGuard) (r : Registry) : Registry × List LogEntry :=
  let released := r.release g.handle
  (released.registry,released.entries)

end IsolateGuard
end QueryPlan
