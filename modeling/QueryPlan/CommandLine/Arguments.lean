/-! # Command line arguments

There are three commands, each with options that take one value. A value follows its option
or stands behind an equals sign. -/
namespace QueryPlan

inductive Command where
  | plan (database query : String) (config : Option String)
  | schema (database : String) (config : Option String)
  | session (config : Option String)
deriving DecidableEq,Repr

/-- Why arguments name no command to run. -/
inductive UsageError where
  | helpOnMissing
  | help
  | version
  | invalidSubcommand
  | missingRequired
  | unknownArgument
  | conflict
  | invalidValue
  | tooManyValues
deriving DecidableEq,Repr

def UsageError.name : UsageError → String
  | helpOnMissing => "DisplayHelpOnMissingArgumentOrSubcommand"
  | help => "DisplayHelp"
  | version => "DisplayVersion"
  | invalidSubcommand => "InvalidSubcommand"
  | missingRequired => "MissingRequiredArgument"
  | unknownArgument => "UnknownArgument"
  | conflict => "ArgumentConflict"
  | invalidValue => "InvalidValue"
  | tooManyValues => "TooManyValues"

namespace Command

/-- An argument by its dashes. -/
inductive Shape where
  | escape
  | long (name : String) (value : Option String)
  | short (letters : List Char)
  | plain

def shapeOf (arg : String) : Shape :=
  match arg.toList with
  | ['-','-'] => .escape
  | '-' :: '-' :: cs =>
    let name := cs.takeWhile (· ≠ '=')
    let rest := cs.drop name.length
    .long (String.ofList name) (if rest.isEmpty then none else some (String.ofList rest.tail))
  | '-' :: c :: cs => .short (c :: cs)
  | _ => .plain

/-- The options given so far, and one whose value is missing or not yet looked at. -/
structure Given where
  values : List (String × String) := []
  pending : Option (String × Option String) := none

namespace Given

/-- Looks at the pending option: it needs a value, may not be given twice, and its value may not
be empty. -/
def settle (g : Given) : Except UsageError Given :=
  match g.pending with
  | none => .ok g
  | some (_,none) => .error .invalidValue
  | some (name,some value) =>
    if (g.values.lookup name).isSome then .error .conflict
    else if value.isEmpty then .error .invalidValue
    else .ok { values := (name,value) :: g.values }

/-- Takes an option, with the value attached to it if there is one. -/
def take (g : Given) (name : String) (value : Option String) : Except UsageError Given := do
  let g ← g.settle
  let g := { g with pending := some (name,value) }
  if value.isSome then g.settle else return g

end Given

/-- Reads options of the given names up to the end. A faulty pending option counts less than an
unknown argument and more than all else. -/
def readOptions (names : List String) (g : Given) : List String → Except UsageError Given
  | [] => g.settle
  | arg :: args =>
    match shapeOf arg with
    | .escape => if args.isEmpty then g.settle else .error .unknownArgument
    | .long "help" none => g.settle.bind fun _ => .error .help
    | .long "help" (some _) => .error .tooManyValues
    | .long name value =>
      if name ∈ names then (g.take name value).bind fun g => readOptions names g args
      else .error .unknownArgument
    | .short ('h' :: _) => g.settle.bind fun _ => .error .help
    | .short _ => .error .unknownArgument
    | .plain =>
      match g.pending with
      | some (name,none) => readOptions names { g with pending := some (name,some arg) } args
      | _ => .error .unknownArgument

private def required (g : Given) (name : String) : Except UsageError String :=
  match g.values.lookup name with
  | some value => .ok value
  | none => .error .missingRequired

def names : List String := ["plan","schema","session","help"]

def ofArguments : List String → Except UsageError Command
  | [] => .error .helpOnMissing
  | "plan" :: args => do
    let g ← readOptions ["database","query","config"] {} args
    return .plan (← required g "database") (← required g "query") (g.values.lookup "config")
  | "schema" :: args => do
    let g ← readOptions ["database","config"] {} args
    return .schema (← required g "database") (g.values.lookup "config")
  | "session" :: args => do
    let g ← readOptions ["config"] {} args
    return .session (g.values.lookup "config")
  | ["help"] => .error .help
  | ["help",name] => .error (if name ∈ names then .help else .invalidSubcommand)
  | "help" :: _ => .error .invalidSubcommand
  | arg :: args =>
    .error (match shapeOf arg,args with
      | .escape,[] => .helpOnMissing
      | .escape,name :: _ => if name ∈ names then .unknownArgument else .invalidSubcommand
      | .long "help" none,_ => .help
      | .long "version" none,_ => .version
      | .long "help" (some _),_ | .long "version" (some _),_ => .tooManyValues
      | .long _ _,_ => .unknownArgument
      | .short ('h' :: _),_ => .help
      | .short ('V' :: _),_ => .version
      | .short _,_ => .unknownArgument
      | .plain,_ => .invalidSubcommand)

end Command
end QueryPlan
