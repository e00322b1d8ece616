import QueryPlan.Arrow.Footer
import QueryPlan.CommandLine.Run

/-! # The command line program

The commands work on a snapshot of the files that they name, which is taken here. -/
namespace QueryPlan

def readContents (path : String) : IO FileNode := do
  try
    return .file (← IO.FS.readBinFile path)
  catch reason => return .unreadable (toString reason)

/-- An entry of a directory. Only table files are read. -/
def readEntry (e : IO.FS.DirEntry) : IO (String × FileNode) := do
  if ← e.path.isDir then return (e.fileName,.directory [])
  else if Path.extension? e.fileName == some "arrow" then
    return (e.fileName,← readContents e.path.toString)
  else return (e.fileName,.unreadable "not a table file")

/-- What stands at a path. -/
def readNode (path : String) : IO (Option FileNode) := do
  try
    let real ← IO.FS.realPath path
    if ← real.isDir then
      try
        return some (.directory (← (← real.readDir).toList.mapM readEntry))
      catch reason => return some (.unlisted (toString reason) [])
    else return some (← readContents real.toString)
  catch _ => return none

/-- The reader of table files, with few words for what it refuses. -/
def tableReader : Arrow.Reader := Arrow.reader fun _ => "not a table file"

/-- What is said of a text that is not the JSON that is looked for. -/
def jsonRefusal (_ : String) : String := "not of the form that is looked for"

/-- Puts directories wherever a path leads through. -/
def withWay (fs : FileSystem) (path : String) : FileSystem :=
  let places := (Path.parts path).foldl
    (fun (place,places) part => (FileSystem.step place part,place :: places))
    (fs.start path,([] : List (List String)))
  places.2.foldr (fun place fs =>
    if (fs.root.at? place).isSome then fs
    else { fs with root := FileNode.put (.directory []) place fs.root }) fs

/-- A snapshot that shows what stands at some paths. -/
def snapshot (paths : List String) : IO FileSystem := do
  let current := (Path.parts (← IO.currentDir).toString).filter fun part => !Path.isIdle part
  let empty : FileSystem :=
    { root := FileNode.put (.directory []) current (.directory []),current,reader := tableReader }
  paths.foldlM (fun fs path => do
    match ← readNode path with
    | some node => return (withWay fs path).put path node
    | none => return fs) empty

def PlanRequest.paths (r : PlanRequest) : List String :=
  match r.query with
  | .path p => [r.database,p]
  | .text _ => [r.database]

def Command.paths : Command → List String
  | plan database query config => database :: query :: config.toList
  | schema database config => database :: config.toList
  | session config => config.toList

def writeEntries (minimum : Severity) (micros : Nat) (entries : List LogEntry) : IO Unit := do
  for line in LogEntry.written minimum micros entries do IO.eprint line

/-- The bytes up to the next line break. -/
partial def readLine (input : IO.FS.Stream) (line : ByteArray) : IO ByteArray := do
  let next ← input.read 1
  if next.isEmpty then return line
  else if next.toList = [10] then return line ++ next
  else readLine input (line ++ next)

/-- Writes a line behind others, and tells if the output takes no more. -/
def writeLine (output : IO.FS.Stream) (written : Nat) (line : String) :
    IO (Option Session.OutputEnd) := do
  let attempt (inText : Bool) (act : IO Unit) : IO (Option Session.OutputEnd) := do
    try
      act
      return none
    catch reason => return some { room := written,inText,reason := toString reason }
  match ← attempt true (output.putStr line) with
  | some stopped => return some stopped
  | none => attempt false do
    output.putStr "\n"
    output.flush

/-- Answers lines as they come in. -/
partial def serve (minimum : Severity) (input output : IO.FS.Stream) (s : Session) (r : Registry) :
    IO (Except (Stop CommandError) Unit) := do
  let abandon (r : Registry) (stop : Stop CommandError) : IO (Except (Stop CommandError) Unit) := do
    writeEntries minimum 0 (s.guarded.drop r).2
    return .error stop
  let line ← readLine input ByteArray.empty
  if line.isEmpty then
    let (result,_,entries) := s.finish r
    writeEntries minimum 0 entries
    return result.mapError .failed
  else match Session.textOf? line.toList with
    | none => abandon r (.failed Session.notText)
    | some text =>
      if Session.isBlankLine text then serve minimum input output s r
      else
        let paths := match Session.requestOf jsonRefusal text with
          | .ok request => request.paths
          | .error _ => []
        let fs ← snapshot paths
        let start ← IO.monoNanosNow
        let (response?,r,entries) ← IO.lazyPure fun _ => s.answer jsonRefusal r fs text
        let stop ← IO.monoNanosNow
        writeEntries minimum ((stop-start)/1000) entries
        match response? with
        | none => abandon r .panicked
        | some response =>
          match ← writeLine output s.served response.line with
          | some e => abandon r (.failed e.error)
          | none => serve minimum input output { s with served := s.served+1 } r

def runSession (fs : FileSystem) (config : Option String) :
    IO (Except (Stop CommandError) Unit) := do
  match Command.loadConfig jsonRefusal fs config with
  | .error e => return .error (.failed e)
  | .ok c =>
    let (started,r,entries) := Session.start (Registry.new c)
    writeEntries c.severity 0 (Command.configLoaded c :: entries)
    match started with
    | .error e => return .error (.failed e)
    | .ok s => serve c.severity (← IO.getStdin) (← IO.getStdout) s r

def runCommand (command : Command) : IO (Except (Stop CommandError) Unit) := do
  let fs ← snapshot command.paths
  match command with
  | .session config => runSession fs config
  | _ =>
    let start ← IO.monoNanosNow
    let around : Session.World := { refusal := jsonRefusal,files := fun _ => fs,outputEnd := none }
    let run ← IO.lazyPure fun _ => command.run fs around []
    let stop ← IO.monoNanosNow
    writeEntries (run.severity.getD .info) ((stop-start)/1000) run.entries
    for line in run.lines do IO.println line
    return run.result

def usage : String :=
  "Usage: queryplan <COMMAND>\n\nCommands:\n"
    ++ "  plan --database <DATABASE> --query <QUERY> [--config <CONFIG>]\n"
    ++ "  schema --database <DATABASE> [--config <CONFIG>]\n"
    ++ "  session [--config <CONFIG>]"

end QueryPlan

open QueryPlan in
def main (args : List String) : IO UInt32 := do
  match Command.ofArguments args with
  | .error .help =>
    IO.println usage
    return 0
  | .error .version =>
    IO.println "queryplan 0.1.0"
    return 0
  | .error e =>
    IO.eprintln ("error: " ++ e.name ++ "\n\n" ++ usage)
    return 2
  | .ok command =>
    match ← runCommand command with
    | .ok _ => return 0
    | .error (.failed e) =>
      IO.eprintln e.display
      return 1
    | .error .panicked => return 101
