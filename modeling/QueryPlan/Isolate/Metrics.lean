/-! # Counters of a registry -/
namespace QueryPlan

structure Metrics where
  isolatesCreated : Nat := 0
  isolatesReleased : Nat := 0
  isolatesExhausted : Nat := 0
  staleHandleUses : Nat := 0
  plansSucceeded : Nat := 0
  plansFailed : Nat := 0
  catalogCacheHits : Nat := 0
deriving DecidableEq,Repr

namespace Metrics

inductive Counter where
  | isolatesCreated | isolatesReleased | isolatesExhausted | staleHandleUses
  | plansSucceeded | plansFailed | catalogCacheHits
deriving DecidableEq,Repr

def Counter.all : List Counter :=
  [.isolatesCreated,.isolatesReleased,.isolatesExhausted,.staleHandleUses,
    .plansSucceeded,.plansFailed,.catalogCacheHits]

def Counter.name : Counter → String
  | isolatesCreated => "isolates_created"
  | isolatesReleased => "isolates_released"
  | isolatesExhausted => "isolates_exhausted"
  | staleHandleUses => "stale_handle_uses"
  | plansSucceeded => "plans_succeeded"
  | plansFailed => "plans_failed"
  | catalogCacheHits => "catalog_cache_hits"

def get (m : Metrics) : Counter → Nat
  | .isolatesCreated => m.isolatesCreated
  | .isolatesReleased => m.isolatesReleased
  | .isolatesExhausted => m.isolatesExhausted
  | .staleHandleUses => m.staleHandleUses
  | .plansSucceeded => m.plansSucceeded
  | .plansFailed => m.plansFailed
  | .catalogCacheHits => m.catalogCacheHits

def increment (m : Metrics) : Counter → Metrics
  | .isolatesCreated => { m with isolatesCreated := m.isolatesCreated + 1 }
  | .isolatesReleased => { m with isolatesReleased := m.isolatesReleased + 1 }
  | .isolatesExhausted => { m with isolatesExhausted := m.isolatesExhausted + 1 }
  | .staleHandleUses => { m with staleHandleUses := m.staleHandleUses + 1 }
  | .plansSucceeded => { m with plansSucceeded := m.plansSucceeded + 1 }
  | .plansFailed => { m with plansFailed := m.plansFailed + 1 }
  | .catalogCacheHits => { m with catalogCacheHits := m.catalogCacheHits + 1 }

/-- Isolates created and not yet released, never less than none. -/
def liveIsolates (m : Metrics) : Nat := m.isolatesCreated - m.isolatesReleased

/-- The counters as a JSON object, in their order. -/
def text (m : Metrics) : String :=
  "\x7b" ++ ",".intercalate (Counter.all.map fun c => "\"" ++ c.name ++ "\":" ++ toString (m.get c))
    ++ "\x7d"

end Metrics
end QueryPlan
