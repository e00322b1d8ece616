import QueryPlan.CommandLine.Arguments
import QueryPlan.CommandLine.Session

/-! # Running commands

A command reads its configuration first, which sets the least severity that is logged. -/
namespace QueryPlan

/-- What a command comes to. No severity is set when the configuration cannot be read. -/
structure CommandRun where
  lines : List String
  result : Except (Stop CommandError) Unit
  severity : Option Severity
  entries : List LogEntry

namespace Command

def loadConfig (refusal : String → String) (fs : FileSystem) :
    Option String → Except CommandError Config
  | none => .ok {}
  | some path => (Config.load refusal fs path).mapError .config

def configLoaded (c : Config) : LogEntry :=
  Event.configLoaded.entry
    [("max_isolates",toString c.maxIsolates),("log_level",c.logLevel)]

/-- Plans the query of a file on an isolate of its own, which is given back also by a panic. -/
def runPlan (fs : FileSystem) (c : Config) (database query : String) :
    List String × Except (Stop CommandError) Unit × List LogEntry :=
  let acquired := IsolateGuard.acquire (Registry.new c)
  match acquired.result with
  | .error e => ([],.error (.failed (.unavailable e)),acquired.entries)
  | .ok g =>
    let planned := g.plan acquired.registry fs { database,query := .path query }
    let released := g.release planned.registry
    let entries := acquired.entries ++ planned.entries ++ released.entries
    match Stop.returned? planned.result with
    | none => ([],.error .panicked,entries)
    | some result =>
      ([(Response.ofPlan result).line],released.result.mapError fun e => .failed (.unavailable e),
        entries)

/-- Prints the catalog of a directory. -/
def runSchema (fs : FileSystem) (c : Config) (database : String) :
    List String × Except (Stop CommandError) Unit × List LogEntry :=
  match Stop.returned? (Catalog.ofDirectory fs database c.caseSensitive) with
  | none => ([],.error .panicked,[])
  | some result => ([(Response.ofCatalog result).line],.ok (),[])

def config? : Command → Option String
  | plan _ _ config | schema _ config | session config => config

/-- Runs a command with its configuration. -/
def runWith (fs : FileSystem) (w : Session.World) (input : List UInt8) (c : Config) :
    Command → List String × Except (Stop CommandError) Unit × List LogEntry
  | plan database query _ => runPlan fs c database query
  | schema database _ => runSchema fs c database
  | session _ =>
    let run := Session.run (Registry.new c) w input
    (run.lines,run.result,run.entries)

/-- Runs a command over the files that are there when it starts, and those that a session finds. -/
def run (fs : FileSystem) (w : Session.World) (input : List UInt8) (command : Command) :
    CommandRun :=
  match loadConfig w.refusal fs command.config? with
  | .error e => { lines := [],result := .error (.failed e),severity := none,entries := [] }
  | .ok c =>
    let (lines,result,entries) := command.runWith fs w input c
    { lines,result,severity := some c.severity,entries := configLoaded c :: entries }

end Command
end QueryPlan
