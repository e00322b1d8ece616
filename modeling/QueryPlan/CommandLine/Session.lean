import QueryPlan.CommandLine.Error
import QueryPlan.CommandLine.Response

/-! # Sessions

A session owns one isolate and answers each line of its input that is not blank with one line.
However it ends, the isolate is given back. -/
namespace QueryPlan

structure Session where
  guarded : IsolateGuard
  served : Nat

namespace Session

def isolateField (s : Session) : String × String := ("isolate",toString s.guarded.handle.raw)

/-- Acquires the isolate of a new session. -/
def start (r : Registry) : Except CommandError Session × Registry × List LogEntry :=
  let acquired := IsolateGuard.acquire r
  match acquired.result with
  | .error e => (.error (.unavailable e),acquired.registry,acquired.entries)
  | .ok g =>
    let s : Session := { guarded := g,served := 0 }
    (.ok s,acquired.registry,acquired.entries ++ [Event.sessionStart.entry [s.isolateField]])

/-- The request that a line holds. `refusal` is what is said of a line that is no JSON. -/
def requestOf (refusal : String → String) (line : String) : Except CommandError PlanRequest :=
  match Json.ofText? line with
  | none => .error (.unreadableRequest (refusal line))
  | some j =>
    match PlanRequest.ofJson j with
    | .ok r => .ok r
    | .error e => .error (.shape e)

def isBlankLine (line : String) : Bool := line.toList.all Text.isBlank

/-- The response to a line that is not blank, unless its plan panics. -/
def answer (refusal : String → String) (s : Session) (r : Registry) (fs : FileSystem)
    (line : String) : Option Response × Registry × List LogEntry :=
  match requestOf refusal line with
  | .error e => (some (.failure e.code e.message),r,[])
  | .ok request =>
    let outcome := s.guarded.plan r fs request
    ((Stop.returned? outcome.result).map .ofPlan,outcome.registry,outcome.entries)

/-- The end of a session whose input is used up. -/
def finish (s : Session) (r : Registry) : Except CommandError Unit × Registry × List LogEntry :=
  let ended := Event.sessionEnd.entry [s.isolateField,("requests",toString s.served)]
  let metrics : LogEntry :=
    { severity := .info,event := "SESSION_METRICS",fields := [("metrics",r.metrics.text)] }
  let released := s.guarded.release r
  (released.result.mapError .unavailable,released.registry,ended :: metrics :: released.entries)

/-! ## Whole inputs -/

/-- Cuts bytes behind every line break. -/
def cutLines : List UInt8 → List (List UInt8)
  | [] => []
  | b :: bs =>
    if b = 10 then [10] :: cutLines bs
    else match cutLines bs with
      | [] => [[b]]
      | line :: lines => (b :: line) :: lines

/-- The text of a line without its line break, unless the bytes are no text. -/
def textOf? (line : List UInt8) : Option String :=
  (String.fromUTF8? (ByteArray.mk line.toArray)).map fun text =>
    match text.toList.reverse with
    | '\n' :: '\r' :: cs | '\n' :: cs => String.ofList cs.reverse
    | cs => String.ofList cs.reverse

def inputLines (bytes : List UInt8) : List (Option String) := (cutLines bytes).map textOf?

/-- The end of an output that takes so many lines, which comes in the text of the next line or behind
it. -/
structure OutputEnd where
  room : Nat
  inText : Bool
  reason : String

/-- The text of a failure to write a line. -/
def OutputEnd.error (e : OutputEnd) : CommandError :=
  .io (if e.inText then "JSON error: " ++ e.reason else e.reason)

/-- What a session finds around it: what is said of lines that are no JSON, the files at the time of
each answer, and the end of its output, if there is one. -/
structure World where
  refusal : String → String
  files : Nat → FileSystem
  outputEnd : Option OutputEnd

/-- What a session comes to. It does not return if a plan panics. -/
structure Run where
  lines : List String
  result : Except (Stop CommandError) Unit
  registry : Registry
  entries : List LogEntry

/-- The text of a failure to read a line. -/
def notText : CommandError := .io FileError.notText.message

/-- Gives the isolate back after a failure or a panic. -/
def abandon (s : Session) (r : Registry) (stop : Stop CommandError) : Run :=
  let (r,entries) := s.guarded.drop r
  { lines := [],result := .error stop,registry := r,entries }

/-- Answers lines as long as the output takes the answers. -/
def answerAll (w : World) (s : Session) (r : Registry) : List (Option String) → Run
  | [] =>
    let (result,r,entries) := s.finish r
    { lines := [],result := result.mapError .failed,registry := r,entries }
  | none :: _ => s.abandon r (.failed notText)
  | some line :: lines =>
    if isBlankLine line then answerAll w s r lines
    else
      let (response?,r,entries) := s.answer w.refusal r (w.files s.served) line
      let run := match response?,w.outputEnd.filter (·.room = s.served) with
        | none,_ => s.abandon r .panicked
        | some _,some e => s.abandon r (.failed e.error)
        | some response,none =>
          let run := answerAll w { s with served := s.served + 1 } r lines
          { run with lines := response.line :: run.lines }
      { run with entries := entries ++ run.entries }

/-- A session over some input. -/
def run (r : Registry) (w : World) (input : List UInt8) : Run :=
  match start r with
  | (.error e,r,entries) => { lines := [],result := .error (.failed e),registry := r,entries }
  | (.ok s,r,entries) =>
    let run := answerAll w s r (inputLines input)
    { run with entries := entries ++ run.entries }

end Session
end QueryPlan
