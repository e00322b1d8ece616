import QueryPlan.Sql.DataType
import QueryPlan.Sql.Reading

/-! # Reading data types -/
namespace QueryPlan.Sql.TypeReading
open Reads

/-- A precision between brackets, written back. -/
def precision : Reads String := do
  if ← symbol "(" then
    let n ← wholeNumber
    expectSymbol ")"
    return "(" ++ toString n ++ ")"
  else return ""

def charLength : Reads (Option CharLength) := do
  if ← symbol "(" then
    let length ← if ← keyword "MAX" then pure CharLength.max
      else do
        let n ← wholeNumber
        pure (CharLength.units n (← oneOf ["CHARACTERS","OCTETS"]))
    expectSymbol ")"
    return some length
  else return none

def charText (name : String) : Reads String := do
  match ← charLength with
  | some length => return name ++ "(" ++ length.text ++ ")"
  | none => return name

def exactDigits : Reads ExactDigits := do
  if ← symbol "(" then
    let p ← wholeNumber
    let digits ← if ← symbol "," then pure (.scaled p (← wholeNumber)) else pure (.precision p)
    expectSymbol ")"
    return digits
  else return .none

/-- An integer type: signed with a display width, or unsigned and without counterpart. -/
def integerType (name : String) (make : String → DataType) : Reads DataType := do
  let text := name ++ (← precision)
  if ← keyword "UNSIGNED" then return .other (text ++ " UNSIGNED") else return make text

def zone (name : String) : Reads DataType := do
  let text := name ++ (← precision)
  if ← keyword "WITH" then
    expectKeywords ["TIME","ZONE"]
    return .other (text ++ " WITH TIME ZONE")
  else if ← keyword "WITHOUT" then
    expectKeywords ["TIME","ZONE"]
    return .other (text ++ " WITHOUT TIME ZONE")
  else return .other text

def characterType (name : String) : Reads DataType := do
  if ← keyword "VARYING" then
    let text ← charText (name ++ " VARYING")
    return if name == "CHARACTER" then .varchar text else .other text
  else if ← keywords ["LARGE","OBJECT"] then return .other (name ++ " LARGE OBJECT" ++ (← precision))
  else return .char name (← charLength)

/-- The values of an enumeration, between brackets. -/
def stringValues (name : String) : Reads DataType := do
  let values ← bracketed (sepBy do return between '\'' (← quotedString))
  return .other (name ++ "(" ++ commaList values ++ ")")

/-- Modifiers behind the name of a custom type, up to the closing bracket. -/
def modifiers : Nat → Reads (List String)
  | 0 => expected "type modifiers"
  | n+1 => do
    match ← next with
    | some t@(.word _ _) => return t.text :: (← modifiers n)
    | some (.number text _) => return text :: (← modifiers n)
    | some (.string s) => return s :: (← modifiers n)
    | some (.symbol ",") => modifiers n
    | some (.symbol ")") => return []
    | _ => expected "type modifiers"

def customType : Reads DataType := do
  let name ← objectName
  if ← symbol "(" then
    let mods ← modifiers (← get).length
    return .custom (name.text ++ (if mods.isEmpty then "" else "(" ++ commaList mods ++ ")"))
  else return .custom name.text

/-- Square brackets behind an element type. -/
def arraySuffix : Nat → DataType → Reads DataType
  | 0,t => return t
  | n+1,t => do
    if ← symbol "[" then
      expectSymbol "]"
      arraySuffix n (.other (t.text ++ "[]"))
    else return t

/-- Closes an angle bracket. `closed` tells that the type inside has closed it already, with the
second half of a double bracket; the answer tells the same of the type around. -/
def closingAngle (closed : Bool) : Reads Bool := do
  if closed then return false
  else if ← symbol ">>" then return true
  else
    expectSymbol ">"
    return false

/-- A type without brackets around or behind it. -/
def plainType : Reads DataType := do
  let before ← get
  let simple (t : DataType) : Reads DataType := return t
  let sized (name : String) : Reads DataType := return .other (name ++ (← precision))
  let digits (name : String) : Reads DataType := return .other (name ++ (← exactDigits).text)
  match ← next with
    | some (.word value quote) =>
      let custom : Reads DataType := do
        set before
        customType
      if quote.isSome then custom
      else match capitals value with
        | "BOOLEAN" => simple .boolean
        | "BOOL" => simple (.other "BOOL")
        | "FLOAT" => return .double ("FLOAT" ++ (← precision))
        | "REAL" => simple (.other "REAL")
        | "FLOAT4" => simple (.other "FLOAT4")
        | "FLOAT64" => simple (.other "FLOAT64")
        | "FLOAT8" => simple (.other "FLOAT8")
        | "DOUBLE" =>
          if ← keyword "PRECISION" then return .double "DOUBLE PRECISION" else return .double "DOUBLE"
        | "TINYINT" => integerType "TINYINT" .integer
        | "INT2" => integerType "INT2" .other
        | "SMALLINT" => integerType "SMALLINT" .integer
        | "MEDIUMINT" => integerType "MEDIUMINT" .other
        | "INT" => integerType "INT" .integer
        | "INT4" => integerType "INT4" .other
        | "INT8" => integerType "INT8" .other
        | "INT64" => simple (.other "INT64")
        | "INTEGER" => integerType "INTEGER" .integer
        | "BIGINT" => integerType "BIGINT" .bigInt
        | "VARCHAR" => return .varchar (← charText "VARCHAR")
        | "NVARCHAR" => sized "NVARCHAR"
        | "CHARACTER" => characterType "CHARACTER"
        | "CHAR" => characterType "CHAR"
        | "CLOB" => sized "CLOB"
        | "BINARY" => sized "BINARY"
        | "VARBINARY" => sized "VARBINARY"
        | "BLOB" => sized "BLOB"
        | "BYTES" => sized "BYTES"
        | "UUID" => simple (.other "UUID")
        | "DATE" => simple .date
        | "DATETIME" => sized "DATETIME"
        | "TIMESTAMP" => zone "TIMESTAMP"
        | "TIMESTAMPTZ" => sized "TIMESTAMPTZ"
        | "TIME" => zone "TIME"
        | "TIMETZ" => sized "TIMETZ"
        | "INTERVAL" => simple .interval
        | "JSON" => simple (.other "JSON")
        | "JSONB" => simple (.other "JSONB")
        | "REGCLASS" => simple (.other "REGCLASS")
        | "STRING" => sized "STRING"
        | "TEXT" => simple (.varchar "TEXT")
        | "BYTEA" => simple (.other "BYTEA")
        | "NUMERIC" => return .decimal "NUMERIC" (← exactDigits)
        | "DECIMAL" => return .decimal "DECIMAL" (← exactDigits)
        | "DEC" => digits "DEC"
        | "BIGNUMERIC" => digits "BIGNUMERIC"
        | "BIGDECIMAL" => digits "BIGDECIMAL"
        | "ENUM" => stringValues "ENUM"
        | "SET" => stringValues "SET"
        | _ => custom
    | _ => expected "a data type name"

/-- A type, and whether its last bracket closes a bracket around it as well. Angle brackets nest no
deeper than there are tokens. -/
def typeNested : Nat → Reads (DataType × Bool)
  | 0 => throw .tooDeep
  | n+1 => do
    let (t,closed) ← if ← keyword "ARRAY" then do
        expectSymbol "<"
        let (t,closed) ← typeNested n
        pure (DataType.other ("ARRAY<" ++ t.text ++ ">"),← closingAngle closed)
      else pure (← plainType,false)
    return (← arraySuffix (← get).length t,closed)

/-- A type inside angle brackets. -/
def innerType : Reads (DataType × Bool) := do typeNested ((← get).length+1)

def dataType : Reads DataType := do
  let (t,closed) ← innerType
  if closed then expected "a type closed once" else return t

/-- The fields of a structure up to the closing bracket. A word of the language opens the type of a
field without name, even between marks. -/
def structFields : Nat → Reads (List String)
  | 0 => expected "a field"
  | n+1 => do
    let named := match ← peek with
      | some (.word value _) => !allKeywords.contains (capitals value)
      | _ => true
    let name ← if named then pure ((← ident).text ++ " ") else pure ""
    let (t,closed) ← innerType
    let field := name ++ t.text
    if ← symbol "," then
      if closed then expected "a type closed once" else return field :: (← structFields n)
    else if ← closingAngle closed then expected "a type closed once"
    else return [field]

end QueryPlan.Sql.TypeReading
