import QueryPlan.Files.Basic
import QueryPlan.Json.Raw
import QueryPlan.Log.Severity

/-! # Configuration

A configuration is a JSON object. Every member may be left out, members of other names are
skipped over, and an array holds the values in the order of the members. -/
namespace QueryPlan

structure Config where
  maxIsolates : Nat := 16
  caseSensitive : Bool := false
  cacheCatalogs : Bool := false
  maxRuleIterations : Nat := 1000
  logLevel : String := "info"
deriving DecidableEq,Repr

/-- Values that no configuration may have. -/
inductive InvalidSetting where
  | maxIsolates
  | maxRuleIterations
  | logLevel (level : String)
deriving DecidableEq,Repr

def InvalidSetting.message : InvalidSetting → String
  | maxIsolates => "max_isolates must be > 0"
  | maxRuleIterations => "max_rule_iterations must be > 0"
  | logLevel level => "Invalid log_level: '" ++ level
      ++ "'. Expected trace, info, warn, error or fatal."

inductive ConfigError where
  | unreadable (path : String) (reason : FileError)
  | unparsable (detail : String)
  | invalid (setting : InvalidSetting)
deriving DecidableEq,Repr

def ConfigError.message : ConfigError → String
  | unreadable path reason => "Failed to read config '" ++ path ++ "': " ++ reason.message
  | unparsable detail => "Invalid config JSON: " ++ detail
  | invalid setting => "Invalid config value: " ++ setting.message

namespace Config
open Json (Raw)

/-- Members a configuration knows, in their order. -/
inductive Setting where
  | maxIsolates | caseSensitive | cacheCatalogs | maxRuleIterations | logLevel
deriving DecidableEq,Repr

def Setting.all : List Setting :=
  [.maxIsolates,.caseSensitive,.cacheCatalogs,.maxRuleIterations,.logLevel]

def Setting.name : Setting → String
  | maxIsolates => "max_isolates"
  | caseSensitive => "case_sensitive"
  | cacheCatalogs => "cache_catalogs"
  | maxRuleIterations => "max_rule_iterations"
  | logLevel => "log_level"

/-- A count of 64 bits. -/
def count? : Raw → Option Nat
  | .number n =>
    match n.value? with
    | some (.integer n) => if 0 ≤ n then some n.toNat else none
    | _ => none
  | _ => none

def flag? : Raw → Option Bool
  | .boolean b => some b
  | _ => none

def word? : Raw → Option String
  | .text units => Json.stringOf? units
  | _ => none

/-- Sets one value, which has to be of the right type. -/
def set? (c : Config) (setting : Setting) (value : Raw) : Option Config :=
  match setting with
  | .maxIsolates => (count? value).map fun n => { c with maxIsolates := n }
  | .caseSensitive => (flag? value).map fun b => { c with caseSensitive := b }
  | .cacheCatalogs => (flag? value).map fun b => { c with cacheCatalogs := b }
  | .maxRuleIterations => (count? value).map fun n => { c with maxRuleIterations := n }
  | .logLevel => (word? value).map fun s => { c with logLevel := s }

/-- Values in the order of the settings; there may be fewer values than settings. -/
def ofItems? (c : Config) : List Setting → List Raw → Option Config
  | _,[] => some c
  | [],_ :: _ => none
  | setting :: settings,value :: values => (c.set? setting value).bind (ofItems? · settings values)

/-- Members by name; none that is known may stand twice. -/
def ofMembers? (c : Config) (seen : List Setting) : List (List Nat × Raw) → Option Config
  | [] => some c
  | (key,value) :: members => do
    let key ← Json.stringOf? key
    match Setting.all.find? (·.name == key) with
    | none => ofMembers? c seen members
    | some setting =>
      if setting ∈ seen then none
      else ofMembers? (← c.set? setting value) (setting :: seen) members

def ofRaw? : Raw → Option Config
  | .array items => ofItems? {} Setting.all items
  | .object members => ofMembers? {} [] members
  | _ => none

def validate (c : Config) : Except InvalidSetting Unit :=
  if c.maxIsolates = 0 then .error .maxIsolates
  else if c.maxRuleIterations = 0 then .error .maxRuleIterations
  else if (Severity.ofName? c.logLevel).isNone then .error (.logLevel c.logLevel)
  else .ok ()

/-- Reads and checks a configuration. `refusal` is what is said of a text that holds none. -/
def ofText (refusal : String → String) (text : String) : Except ConfigError Config :=
  match (Raw.ofText? text).bind ofRaw? with
  | none => .error (.unparsable (refusal text))
  | some c =>
    match c.validate with
    | .ok _ => .ok c
    | .error setting => .error (.invalid setting)

def load (refusal : String → String) (fs : FileSystem) (path : String) : Except ConfigError Config :=
  match fs.readText path with
  | .ok text => ofText refusal text
  | .error reason => .error (.unreadable path reason)

/-- The configuration at a path that may be missing or empty, which stands for the defaults. -/
def loadOrDefault (refusal : String → String) (fs : FileSystem) (path : Option String) :
    Except ConfigError Config :=
  match path with
  | none => .ok {}
  | some path => if path.isEmpty then .ok {} else load refusal fs path

/-- The least severity that is logged. -/
def severity (c : Config) : Severity := (Severity.ofName? c.logLevel).getD .info

end Config
end QueryPlan
