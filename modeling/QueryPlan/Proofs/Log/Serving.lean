import QueryPlan.Proofs.Isolate.Operations
import QueryPlan.Proofs.Log.Planning

/-! # Isolates and registries with a logger at hand

Serving a request and every operation on a registry hand their entries to the logger, on success and
on failure, between the changes that they make. -/
namespace QueryPlan

/-! ## Isolates -/

/-- The value of serving a request, apart from its entries. -/
def Served.logged (served : Served) :
    (Isolate × Bool × Except (Stop IsolateError) PlanResponse) × List LogEntry :=
  ((served.isolate,served.cacheHit,served.result),served.entries)

namespace Isolate
variable (s : Isolate) (fs : FileSystem) (r : PlanRequest)

def workLogging : Logging (Isolate × Bool × Except (Stop IsolateError) PlanResponse) :=
  match r.validate with
  | .error reason => return (s,false,.error (.failed (.invalidRequest reason)))
  | .ok _ =>
    match s.catalog fs r.database with
    | .error stop => return (s,false,.error (stop.map .catalog))
    | .ok (c,hit) => do
      Logger.log (catalogEntry r.database c hit)
      let result ← s.respondLogging fs c r
      return (if hit then s else s.remember c,hit,result.mapError .failed)

def serveLogging : Logging (Isolate × Bool × Except (Stop IsolateError) PlanResponse) := do
  let observed : Observation := { name := "PLAN",fields := [s.idField] }
  Logger.log (Event.planReceived.entry [s.idField,("database",r.database)])
  Logger.log observed.begun
  match ← s.workLogging fs r with
  | (isolate,hit,.ok response) =>
    Logger.log (observed.completed [("operators",toString response.operatorCount)])
    return ({ isolate with plansServed := isolate.plansServed+1 },hit,.ok response)
  | (isolate,hit,.error (.failed e)) =>
    Logger.log (observed.failed e.code e.message)
    Logger.log (Event.planRejected.entry [s.idField,("code",e.code)])
    return (isolate,hit,.error (.failed e))
  | (isolate,hit,.error .panicked) =>
    Logger.log observed.abandoned
    return (isolate,hit,.error .panicked)

theorem workLogging_logs : Logs (s.workLogging fs r) (s.work fs r).logged := by
  unfold workLogging work
  cases r.validate with
  | error reason => exact .pure _
  | ok _ =>
    cases s.catalog fs r.database with
    | error stop => exact .pure _
    | ok kept =>
      obtain ⟨c,hit⟩ := kept
      exact .log_bind ((s.respondLogging_logs fs c r).bind_pure rfl)

theorem serveLogging_logs : Logs (s.serveLogging fs r) (s.serve fs r).logged := by
  have hwork := s.workLogging_logs fs r
  unfold serveLogging serve
  generalize s.work fs r = done at hwork ⊢
  obtain ⟨isolate,hit,result,entries⟩ := done
  cases result with
  | error stop =>
    cases stop with
    | failed e =>
      refine .log_bind (.log_bind ?_)
      exact hwork.bind (.log_bind (.log_bind (.pure _)))
    | panicked =>
      refine .log_bind (.log_bind ?_)
      exact hwork.bind (.log_bind (.pure _))
  | ok response =>
    refine .log_bind (.log_bind ?_)
    exact hwork.bind (.log_bind (.pure _))

end Isolate

/-! ## Registries -/

/-- The value of an operation, apart from its entries. -/
def Outcome.logged {ε α : Type} (done : Outcome ε α) : (Except ε α × Registry) × List LogEntry :=
  ((done.result,done.registry),done.entries)

def Performed.logged (done : Performed) : (Reply × Registry) × List LogEntry :=
  ((done.reply,done.registry),done.entries)

namespace Registry
variable (r : Registry) (h : IsolateHandle)

def refuseLogging {α : Type} : Logging (Except IsolateError α × Registry) := do
  Logger.log (Event.isolateStale.entry [("isolate",toString h.raw)])
  return (.error (.stale h.raw),r.count .staleHandleUses)

def createLogging : Logging (Except IsolateError IsolateHandle × Registry) :=
  let limit := r.config.maxIsolates
  if limit ≤ r.liveCount then do
    Logger.log (Event.isolateExhausted.entry [("limit",toString limit)])
    return (.error (.exhausted limit),r.count .isolatesExhausted)
  else do
    let id := r.nextId
    let grown := { r with isolates := r.isolates ++ [(id,Isolate.new id r.config)],nextId := id+1 }
    Logger.log (Event.isolateCreated.entry [("isolate",toString id)])
    return (.ok ⟨id⟩,grown.count .isolatesCreated)

def releaseLogging : Logging (Except IsolateError Unit × Registry) :=
  match r.isolate? h with
  | none => r.refuseLogging h
  | some s => do
    Logger.log (Event.isolateReleased.entry
      [("isolate",toString h.raw),("plans",toString s.plansServed)])
    return (.ok (),(r.erase h).count .isolatesReleased)

def planLogging (fs : FileSystem) (request : PlanRequest) :
    Logging (Except (Stop IsolateError) PlanResponse × Registry) :=
  match r.isolate? h with
  | none => do
    let (result,r) ← r.refuseLogging h
    return (result.mapError .failed,r)
  | some s => do
    let (isolate,cacheHit,result) ← s.serveLogging fs request
    return (result,(r.set h isolate).countServed { isolate,cacheHit,result,entries := [] })

theorem refuseLogging_logs {α : Type} :
    Logs (r.refuseLogging h) (r.refuse h : Outcome IsolateError α).logged := .log_bind (.pure _)

theorem createLogging_logs : Logs r.createLogging r.create.logged := by
  unfold createLogging create
  dsimp only
  split <;> exact .log_bind (.pure _)

theorem releaseLogging_logs : Logs (r.releaseLogging h) (r.release h).logged := by
  unfold releaseLogging release
  cases r.isolate? h with
  | none => exact r.refuseLogging_logs h
  | some s => exact .log_bind (.pure _)

theorem planLogging_logs (fs : FileSystem) (request : PlanRequest) :
    Logs (r.planLogging h fs request) (r.plan fs h request).logged := by
  unfold planLogging plan
  cases r.isolate? h with
  | none => exact (r.refuseLogging_logs h).bind_pure rfl
  | some s =>
    exact (s.serveLogging_logs fs request).bind_pure rfl

end Registry

def IsolateGuard.acquireLogging (r : Registry) :
    Logging (Except IsolateError IsolateGuard × Registry) := do
  let (result,r) ← r.createLogging
  return (result.map IsolateGuard.mk,r)

theorem IsolateGuard.acquireLogging_logs (r : Registry) :
    Logs (acquireLogging r) (acquire r).logged := r.createLogging_logs.bind_pure rfl

/-- What the registry says to an operation. A guard does what its registry does. -/
def Registry.performLogging (r : Registry) : Operation → Logging (Reply × Registry)
  | .create => do
    let (result,r) ← r.createLogging
    return (.created result,r)
  | .acquire => do
    let (result,r) ← IsolateGuard.acquireLogging r
    return (.created (result.map IsolateGuard.handle),r)
  | .plan h fs request | .guardPlan ⟨h⟩ fs request => do
    let (result,r) ← r.planLogging h fs request
    return (.planned h result,r)
  | .release h | .guardRelease ⟨h⟩ | .guardDrop ⟨h⟩ => do
    let (result,r) ← r.releaseLogging h
    return (.released h result,r)

theorem Registry.performLogging_logs (r : Registry) (op : Operation) :
    Logs (r.performLogging op) (r.perform op).logged := by
  cases op with
  | create => exact r.createLogging_logs.bind_pure rfl
  | acquire => exact (IsolateGuard.acquireLogging_logs r).bind_pure rfl
  | plan h fs request => exact (r.planLogging_logs h fs request).bind_pure rfl
  | guardPlan g fs request => exact (r.planLogging_logs g.handle fs request).bind_pure rfl
  | release h => exact (r.releaseLogging_logs h).bind_pure rfl
  | guardRelease g => exact (r.releaseLogging_logs g.handle).bind_pure rfl
  | guardDrop g => exact (r.releaseLogging_logs g.handle).bind_pure rfl

end QueryPlan
