import QueryPlan.CommandLine.Session
import QueryPlan.Proofs.Log.Serving

/-! # The minimum severity changes nothing but what is written

Operations on a registry and the steps of sessions follow one another in any order. At every minimum
severity they come to the same answers and registries, with the same counters, and a higher minimum
only leaves entries out. -/
namespace QueryPlan

/-! ## Sessions -/

/-- The value of a session, apart from its entries. -/
def Session.Run.logged (run : Session.Run) :
    (List String × Except (Stop CommandError) Unit × Registry) × List LogEntry :=
  ((run.lines,run.result,run.registry),run.entries)

namespace Session
variable (s : Session) (r : Registry)

def startLogging : Logging (Except CommandError Session × Registry) := do
  match ← IsolateGuard.acquireLogging r with
  | (.error e,r) => return (.error (.unavailable e),r)
  | (.ok g,r) =>
    let s : Session := { guarded := g,served := 0 }
    Logger.log (Event.sessionStart.entry [s.isolateField])
    return (.ok s,r)

def answerLogging (refusal : String → String) (fs : FileSystem) (line : String) :
    Logging (Option Response × Registry) :=
  match requestOf refusal line with
  | .error e => return (some (.failure e.code e.message),r)
  | .ok request => do
    let (result,r) ← r.planLogging s.guarded.handle fs request
    return ((Stop.returned? result).map .ofPlan,r)

def finishLogging : Logging (Except CommandError Unit × Registry) := do
  Logger.log (Event.sessionEnd.entry [s.isolateField,("requests",toString s.served)])
  Logger.log ⟨.info,"SESSION_METRICS",[("metrics",r.metrics.text)],false⟩
  let (result,r) ← r.releaseLogging s.guarded.handle
  return (result.mapError .unavailable,r)

def abandonLogging (stop : Stop CommandError) :
    Logging (List String × Except (Stop CommandError) Unit × Registry) := do
  let (_,r) ← r.releaseLogging s.guarded.handle
  return ([],.error stop,r)

def answerAllLogging (w : World) (s : Session) (r : Registry) :
    List (Option String) → Logging (List String × Except (Stop CommandError) Unit × Registry)
  | [] => do
    let (result,r) ← s.finishLogging r
    return ([],result.mapError .failed,r)
  | none :: _ => s.abandonLogging r (.failed notText)
  | some line :: lines =>
    if isBlankLine line then answerAllLogging w s r lines
    else do
      let (response?,r) ← s.answerLogging r w.refusal (w.files s.served) line
      match response?,w.outputEnd.filter (·.room = s.served) with
      | none,_ => s.abandonLogging r .panicked
      | some _,some e => s.abandonLogging r (.failed e.error)
      | some response,none => do
        let (answers,result,r) ← answerAllLogging w { s with served := s.served+1 } r lines
        return (response.line :: answers,result,r)

def runLogging (w : World) (input : List UInt8) :
    Logging (List String × Except (Stop CommandError) Unit × Registry) := do
  match ← startLogging r with
  | (.error e,r) => return ([],.error (.failed e),r)
  | (.ok s,r) => s.answerAllLogging w r (inputLines input)

/-- The value of a step, apart from its entries. -/
def parted {α β γ : Type} (step : α × β × γ) : (α × β) × γ := ((step.1,step.2.1),step.2.2)

theorem startLogging_logs : Logs (startLogging r) (parted (start r)) := by
  have hacquire := IsolateGuard.acquireLogging_logs r
  unfold startLogging start
  generalize IsolateGuard.acquire r = acquired at hacquire ⊢
  obtain ⟨e|g,registry,entries⟩ := acquired
  · exact hacquire.bind_pure rfl
  · exact hacquire.bind (.log_bind (.pure _))

theorem answerLogging_logs (refusal : String → String) (fs : FileSystem) (line : String) :
    Logs (s.answerLogging r refusal fs line) (parted (s.answer refusal r fs line)) := by
  unfold answerLogging answer
  cases requestOf refusal line with
  | error e => exact .pure _
  | ok request => exact (r.planLogging_logs s.guarded.handle fs request).bind_pure rfl

theorem finishLogging_logs : Logs (s.finishLogging r) (parted (s.finish r)) :=
  .log_bind (.log_bind ((r.releaseLogging_logs s.guarded.handle).bind_pure rfl))

theorem abandonLogging_logs (stop : Stop CommandError) :
    Logs (s.abandonLogging r stop) (s.abandon r stop).logged :=
  (r.releaseLogging_logs s.guarded.handle).bind_pure rfl

theorem answerAllLogging_logs (w : World) (lines : List (Option String)) :
    Logs (answerAllLogging w s r lines) (answerAll w s r lines).logged := by
  induction lines generalizing s r with
  | nil => exact (s.finishLogging_logs r).bind_pure rfl
  | cons line lines ih =>
    cases line with
    | none => exact s.abandonLogging_logs r (.failed notText)
    | some line =>
      rw [answerAllLogging,answerAll]
      by_cases hblank : isBlankLine line
      · rw [if_pos hblank,if_pos hblank]
        exact ih s r
      · rw [if_neg hblank,if_neg hblank]
        have hanswer := s.answerLogging_logs r w.refusal (w.files s.served) line
        generalize s.answer w.refusal r (w.files s.served) line = answered at hanswer ⊢
        obtain ⟨response?,r',entries⟩ := answered
        refine hanswer.bind ?_
        -- The answer is there before it turns out whether its line can be written.
        dsimp only
        generalize w.outputEnd.filter (·.room = s.served) = outputEnd?
        cases response? with
        | none => exact s.abandonLogging_logs r' .panicked
        | some response =>
          cases outputEnd? with
          | some e => exact s.abandonLogging_logs r' (.failed e.error)
          | none => exact (ih _ r').bind_pure rfl

theorem runLogging_logs (w : World) (input : List UInt8) :
    Logs (runLogging r w input) (run r w input).logged := by
  have hstart := startLogging_logs r
  unfold runLogging run
  generalize start r = started at hstart ⊢
  obtain ⟨e|s,r',entries⟩ := started
  · exact hstart.bind_pure rfl
  · exact hstart.bind (s.answerAllLogging_logs r' w _)

end Session

/-! ## Registries and sessions -/

/-- What a program does with a registry and the sessions on it. -/
inductive Action where
  | operation (op : Operation)
  | start
  | answer (refusal : String → String) (s : Session) (fs : FileSystem) (line : String)
  | finish (s : Session)
  | abandon (s : Session) (stop : Stop CommandError)
  | session (w : Session.World) (input : List UInt8)

/-- What comes back from it. -/
inductive Answer where
  | reply (reply : Reply)
  | started (result : Except CommandError Session)
  | answered (response? : Option Response)
  | ended (lines : List String) (result : Except (Stop CommandError) Unit)

namespace Registry
variable (r : Registry)

/-- The answer and the registry afterwards, and the entries. -/
def act : Action → (Answer × Registry) × List LogEntry
  | .operation op =>
    let done := r.perform op
    ((.reply done.reply,done.registry),done.entries)
  | .start =>
    let (result,r,entries) := Session.start r
    ((.started result,r),entries)
  | .answer refusal s fs line =>
    let (response?,r,entries) := s.answer refusal r fs line
    ((.answered response?,r),entries)
  | .finish s =>
    let (result,r,entries) := s.finish r
    ((.ended [] (result.mapError .failed),r),entries)
  | .abandon s stop =>
    let run := s.abandon r stop
    ((.ended run.lines run.result,run.registry),run.entries)
  | .session w input =>
    let run := Session.run r w input
    ((.ended run.lines run.result,run.registry),run.entries)

def actLogging : Action → Logging (Answer × Registry)
  | .operation op => do
    let (reply,r) ← r.performLogging op
    return (.reply reply,r)
  | .start => do
    let (result,r) ← Session.startLogging r
    return (.started result,r)
  | .answer refusal s fs line => do
    let (response?,r) ← s.answerLogging r refusal fs line
    return (.answered response?,r)
  | .finish s => do
    let (result,r) ← s.finishLogging r
    return (.ended [] (result.mapError .failed),r)
  | .abandon s stop => do
    let (lines,result,r) ← s.abandonLogging r stop
    return (.ended lines result,r)
  | .session w input => do
    let (lines,result,r) ← Session.runLogging r w input
    return (.ended lines result,r)

theorem actLogging_logs (a : Action) : Logs (r.actLogging a) (r.act a) := by
  cases a with
  | operation op => exact (r.performLogging_logs op).bind_pure rfl
  | start => exact (Session.startLogging_logs r).bind_pure rfl
  | answer refusal s fs line => exact (s.answerLogging_logs r refusal fs line).bind_pure rfl
  | finish s => exact (s.finishLogging_logs r).bind_pure rfl
  | abandon s stop => exact (s.abandonLogging_logs r stop).bind_pure rfl
  | session w input => exact (Session.runLogging_logs r w input).bind_pure rfl

/-- Every answer with the registry after it, and the entries of them all. -/
def actAll (r : Registry) : List Action → List (Answer × Registry) × List LogEntry
  | [] => ([],[])
  | a :: actions =>
    let done := r.act a
    let rest := actAll done.1.2 actions
    (done.1 :: rest.1,done.2 ++ rest.2)

def actAllLogging (r : Registry) : List Action → Logging (List (Answer × Registry))
  | [] => return []
  | a :: actions => do
    let done ← r.actLogging a
    let rest ← actAllLogging done.2 actions
    return done :: rest

theorem actAllLogging_logs (actions : List Action) :
    Logs (r.actAllLogging actions) (r.actAll actions) := by
  induction actions generalizing r with
  | nil => exact .pure _
  | cons a actions ih => exact (r.actLogging_logs a).bind ((ih _).bind_pure rfl)

/-- The answers and registries at a minimum severity, and the entries that are written. -/
def actAllAt (minimum : Severity) (actions : List Action) :
    List (Answer × Registry) × List LogEntry :=
  let done := (r.actAllLogging actions).run ⟨minimum,[]⟩
  (done.1,done.2.written)

theorem actAllAt_eq (minimum : Severity) (actions : List Action) : r.actAllAt minimum actions =
    ((r.actAll actions).1,(r.actAll actions).2.filter fun e => e.severity.reaches minimum) := by
  rw [actAllAt,r.actAllLogging_logs actions,Logger.receive,List.nil_append]

/-- At a higher minimum all answers and registries are the same, and what is written is what was
written before and reaches it. At every minimum they are those of the plain actions, and so are the
lines, whatever time the work took. -/
theorem minimum_only_filters (actions : List Action) {lo hi : Severity} (h : lo.rank ≤ hi.rank) :
    (r.actAllAt hi actions).1 = (r.actAllAt lo actions).1 ∧
    (r.actAllAt hi actions).2 =
      (r.actAllAt lo actions).2.filter (fun e => e.severity.reaches hi) ∧
    ∀ minimum micros, (r.actAllAt minimum actions).1 = (r.actAll actions).1 ∧
      (r.actAllAt minimum actions).2.map (LogEntry.text micros) =
        LogEntry.written minimum micros (r.actAll actions).2 := by
  obtain ⟨hanswers,hwritten⟩ := (r.actAllLogging_logs actions).filter_written h
  refine ⟨hanswers,hwritten,fun minimum micros => ?_⟩
  rw [actAllAt_eq]
  exact ⟨rfl,rfl⟩

/-- A blank query and a stale handle, on a registry with one isolate. -/
def refusals : List Action :=
  let empty : FileSystem := { root := .directory [],current := [],reader _ := .unreadable "" }
  [.operation .create,.operation (.plan ⟨1⟩ empty { database := "sales",query := .text " " }),
    .operation (.release ⟨7⟩)]

theorem minimum_only_filters_refusals : Severity.info.rank ≤ Severity.warn.rank ∧
    ((new {}).actAllAt .warn refusals).1 = ((new {}).actAllAt .info refusals).1 ∧
    ((new {}).actAllAt .info refusals).2.map LogEntry.event =
      ["ISOLATE_CREATED","PLAN_RECEIVED","PLAN_BEGIN","PLAN_FAILED","PLAN_REJECTED","ISOLATE_STALE"] ∧
    ((new {}).actAllAt .warn refusals).2.map LogEntry.event =
      ["PLAN_FAILED","PLAN_REJECTED","ISOLATE_STALE"] := by
  have hrank : Severity.info.rank ≤ Severity.warn.rank := by decide
  obtain ⟨hanswers,hwritten,-⟩ := minimum_only_filters (new {}) refusals hrank
  refine ⟨hrank,hanswers,by decide +kernel,?_⟩
  rw [hwritten]
  decide +kernel

end Registry
end QueryPlan
