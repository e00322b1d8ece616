import QueryPlan.Config
import QueryPlan.Isolate.Error
import QueryPlan.Log.Entry
import QueryPlan.Planning

/-! # Isolates and the requests they serve

An isolate plans one request after the other. It may keep the catalogs it has read, by the
components of their paths; a request that fails leaves nothing else behind. -/
namespace QueryPlan

/-- What a request is answered with. -/
structure PlanResponse where
  plan : String
  explain : String
  tables : List String
deriving DecidableEq,Repr

/-- The lines of a text; the last need not end in a line break. -/
def lineCount (text : String) : Nat :=
  let cs := text.toList
  cs.count '\n' + if cs.getLast?.all (· == '\n') then 0 else 1

def PlanResponse.operatorCount (r : PlanResponse) : Nat := lineCount r.plan

structure Isolate where
  id : Nat
  caseSensitive : Bool
  cacheCatalogs : Bool
  maxRuleIterations : Nat
  rules : List RewriteRule
  catalogs : List (List String × Catalog)
  plansServed : Nat

/-- What serving a request comes to. -/
structure Served where
  isolate : Isolate
  cacheHit : Bool
  result : Except (Stop IsolateError) PlanResponse
  entries : List LogEntry

namespace Isolate

def new (id : Nat) (config : Config) : Isolate :=
  { id,caseSensitive := config.caseSensitive,cacheCatalogs := config.cacheCatalogs,
    maxRuleIterations := config.maxRuleIterations,rules := defaultRules,catalogs := [],
    plansServed := 0 }

def idField (s : Isolate) : String × String := ("isolate",toString s.id)

/-- The catalog kept for a path, under any spelling of its components. -/
def cached? (s : Isolate) (path : String) : Option Catalog :=
  s.catalogs.lookup (Path.components path)

def remember (s : Isolate) (c : Catalog) : Isolate :=
  if s.cacheCatalogs then { s with catalogs := (Path.components c.root,c) :: s.catalogs } else s

/-- A catalog that is kept or read now, and which of the two. -/
def catalog (s : Isolate) (fs : FileSystem) (path : String) :
    Except (Stop CatalogError) (Catalog × Bool) :=
  match s.cached? path with
  | some c => .ok (c,true)
  | none => (Catalog.ofDirectory fs path s.caseSensitive).map (·,false)

def catalogEntry (path : String) (c : Catalog) (hit : Bool) : LogEntry :=
  if hit then Event.catalogCacheHit.entry [("database",path)]
  else Event.catalogLoaded.entry [("database",path),("tables",toString c.tables.length)]

/-- The response to a request whose catalog is at hand. -/
def respond (s : Isolate) (fs : FileSystem) (c : Catalog) (r : PlanRequest) :
    Except IsolateError PlanResponse × List LogEntry :=
  match r.readQuery fs with
  | .error e => (.error (.query e),[])
  | .ok text =>
    match c.plan s.maxRuleIterations s.rules text with
    | (.error e,entries) => (.error (.query e),entries)
    | (.ok p,entries) =>
      let optimised : LogEntry :=
        { severity := .trace,event := Event.planOptimised.name,
          fields := [s.idField,("plan",p.explain)] }
      match EnginePlan.encode p with
      | .error e => (.error (.encode e),entries ++ [optimised])
      | .ok plan =>
        (.ok { plan,explain := p.explain,tables := p.tableNames },
          entries ++ [optimised,Event.planEncoded.entry [("lines",toString (lineCount plan))]])

/-- The work on a request: the isolate afterwards, whether a kept catalog was used, the result
and what was logged. -/
def work (s : Isolate) (fs : FileSystem) (r : PlanRequest) : Served :=
  match r.validate with
  | .error reason => ⟨s,false,.error (.failed (.invalidRequest reason)),[]⟩
  | .ok _ =>
    match s.catalog fs r.database with
    | .error stop => ⟨s,false,.error (stop.map .catalog),[]⟩
    | .ok (c,hit) =>
      let (result,entries) := s.respond fs c r
      ⟨if hit then s else s.remember c,hit,result.mapError .failed,
        catalogEntry r.database c hit :: entries⟩

/-- Serves a request and logs how it begins and ends. One that panics is given up. -/
def serve (s : Isolate) (fs : FileSystem) (r : PlanRequest) : Served :=
  let received := Event.planReceived.entry [s.idField,("database",r.database)]
  let observed : Observation := { name := "PLAN",fields := [s.idField] }
  let done := s.work fs r
  let log (ending : List LogEntry) := received :: observed.begun :: done.entries ++ ending
  match done.result with
  | .ok response =>
    { done with
      isolate := { done.isolate with plansServed := done.isolate.plansServed + 1 }
      entries := log [observed.completed [("operators",toString response.operatorCount)]] }
  | .error (.failed e) =>
    { done with
      entries := log [observed.failed e.code e.message,
        Event.planRejected.entry [s.idField,("code",e.code)]] }
  | .error .panicked => { done with entries := log [observed.abandoned] }

end Isolate
end QueryPlan
