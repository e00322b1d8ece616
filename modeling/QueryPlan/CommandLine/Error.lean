import QueryPlan.Config
import QueryPlan.Isolate.Error

/-! # Errors that end a command, and requests that cannot be read -/
namespace QueryPlan

inductive CommandError where
  | config (e : ConfigError)
  | io (reason : String)
  | unreadableRequest (detail : String)
  | shape (e : ShapeError)
  | unavailable (e : IsolateError)
deriving DecidableEq,Repr

namespace CommandError

def code : CommandError → String
  | config _ => "AETHRA_CLI_CONFIG_ERROR"
  | io _ => "AETHRA_CLI_IO_ERROR"
  | unreadableRequest _ | shape _ => "AETHRA_CLI_INVALID_REQUEST"
  | unavailable _ => "AETHRA_CLI_ISOLATE_UNAVAILABLE"

def message : CommandError → String
  | config e => e.message
  | io reason => reason
  | unreadableRequest detail => "Invalid JSON: " ++ detail
  | shape e => e.message
  | unavailable e => e.display

def display (e : CommandError) : String := e.code ++ ": " ++ e.message

end CommandError
end QueryPlan
