import QueryPlan.Arrow.Dictionary

/-! # Footers of table files

A table file ends with a footer, the length of the footer and six letters. The footer names
the columns; of what stands before it only the dictionaries matter. -/
namespace QueryPlan.Arrow

open Flatbuffer (Record)

private def timeUnit? : Int → Option TimeUnit
  | 0 => some .second
  | 1 => some .millisecond
  | 2 => some .microsecond
  | 3 => some .nanosecond
  | _ => none

private def intWidth? : Int → Option IntWidth
  | 8 => some .bits8
  | 16 => some .bits16
  | 32 => some .bits32
  | 64 => some .bits64
  | _ => none

private def intType? (t : Record) : Option DataType := do
  let width ← intWidth? (← t.intD 0 4 0)
  return .int (← t.boolD 1 false) width

private def floatType? (t : Record) : Option DataType := do
  match ← t.intD 0 2 0 with
  | 0 => return .float .half
  | 1 => return .float .single
  | 2 => return .float .double
  | _ => none

private def decimalType? (t : Record) : Option DataType := do
  let precision ← t.intD 0 4 0
  let scale ← t.intD 1 4 0
  if 0 ≤ precision && precision < 256 && -128 ≤ scale && scale < 128 then
    let p := UInt8.ofNat precision.toNat
    let s := Int8.ofInt scale
    match ← t.intD 2 4 128 with
    | 128 => return .decimal128 p s
    | 256 => return .decimal256 p s
    | _ => none
  else none

private def dateType? (t : Record) : Option DataType := do
  match ← t.intD 0 2 1 with
  | 0 => return .date32
  | 1 => return .date64
  | _ => none

private def timeType? (t : Record) : Option DataType := do
  match ← timeUnit? (← t.intD 0 2 1),← t.intD 1 4 32 with
  | .second,32 => return .time32 .second
  | .millisecond,32 => return .time32 .millisecond
  | .microsecond,64 => return .time64 .microsecond
  | .nanosecond,64 => return .time64 .nanosecond
  | _,_ => none

private def timestampType? (t : Record) : Option DataType := do
  return .timestamp (← timeUnit? (← t.intD 0 2 0)) (← t.text? 1)

private def intervalType? (t : Record) : Option DataType := do
  match ← t.intD 0 2 0 with
  | 0 => return .interval .yearMonth
  | 1 => return .interval .dayTime
  | 2 => return .interval .monthDayNano
  | _ => none

private def unionType? (t : Record) (children : List Field) : Option DataType := do
  let dense ← match ← t.intD 0 2 0 with
    | 0 => some false
    | 1 => some true
    | _ => none
  let ids ← match ← t.vector? 1 4 with
    | none => some ((List.range (Int8.ofNat children.length).toNatClampNeg).map Int8.ofNat)
    | some places => (places.mapM (Flatbuffer.signed? 4 t.bytes)).map (·.map Int8.ofInt)
  guard ((ids.take (children.length+1)).map fun id => id.toInt % 128).Nodup
  return .union (ids.zip children) dense

/-- The type that the record of a column declares, given its tag and the columns inside. -/
private def typeOf? (tag : Int) (t : Record) (children : List Field) : Option DataType :=
  match tag,children with
  | 1,_ => some .null
  | 2,_ => intType? t
  | 3,_ => floatType? t
  | 4,_ => some .binary
  | 5,_ => some .utf8
  | 6,_ => some .boolean
  | 7,_ => decimalType? t
  | 8,_ => dateType? t
  | 9,_ => timeType? t
  | 10,_ => timestampType? t
  | 11,_ => intervalType? t
  | 12,[item] => some (.list item)
  | 13,fields => some (.struct fields)
  | 14,fields => unionType? t fields
  | 15,_ => (t.intD 0 4 0).map fun w => .fixedSizeBinary (Int32.ofInt w)
  | 16,[item] => (t.intD 0 4 0).map fun n => .fixedSizeList item (Int32.ofInt n)
  | 17,[entries] => (t.boolD 0 false).map (.map entries)
  | 18,_ => do return .duration (← timeUnit? (← t.intD 0 2 1))
  | 19,_ => some .largeBinary
  | 20,_ => some .largeUtf8
  | 21,[item] => some (.largeList item)
  | 22,[ends,values] => some (.runEndEncoded ends values)
  | 23,_ => some .binaryView
  | 24,_ => some .utf8View
  | _,_ => none

/-- Replaces the value of a key, or adds the key behind the others. -/
private def withEntry (entries : List (String × String)) (key value : String) :
    List (String × String) :=
  if entries.any (·.1 == key) then entries.map fun e => if e.1 == key then (key,value) else e
  else entries ++ [(key,value)]

/-- The entries with a key and a value; the last value of a key counts. -/
private def metadata? (t : Record) (slot : Nat) : Option (List (String × String)) := do
  let entries ← t.records? slot
  (entries.getD []).foldlM (fun found e => do
    match ← e.text? 0,← e.text? 1 with
    | some key,some value => return withEntry found key value
    | _,_ => return found) []

/-- The tags of the types with columns inside. -/
private def nestedTags : List Int := [12,13,14,16,17,21,22]

/-- A column whose columns inside are nested at most so deep. Other types do without them, whatever
the record leads to. -/
private def field? : Nat → Record → Option Field
  | 0,_ => none
  | depth+1,t => do
    let name ← (← t.text? 0)
    let nullable ← t.boolD 1 false
    let tag ← t.intD 2 1 0
    let children ← if nestedTags.contains tag then ((← t.records? 5).getD []).mapM (field? depth)
      else some []
    let type ← typeOf? tag (← (← t.record? 3)) children
    let metadata ← metadata? t 6
    match ← t.record? 4 with
    | none => return .mk name type nullable 0 false metadata
    | some coding =>
      let id ← coding.intD 0 8 0
      let index ← intType? (← (← coding.record? 1))
      let ordered ← coding.boolD 2 false
      return .mk name (.dictionary index type) nullable (Int64.ofInt id) ordered metadata

/-- The columns of a schema. -/
private def columns? (schema : Record) : Option (List Field) := do
  (← (← schema.records? 1)).mapM (field? Flatbuffer.maxDepth)

/-- The entries of a footer have a key and a value each. -/
private def entriesComplete (footer : Record) : Option Unit := do
  ((← footer.records? 4).getD []).forM fun e => do
    let _ ← (← e.text? 0)
    let _ ← (← e.text? 1)

def magic : List UInt8 := "ARROW1".toUTF8.toList

/-- The bytes of the footer of a table file, and their root. -/
def footer? (file : ByteArray) : Option (ByteArray × Record) := do
  let size := file.size
  if size < 10 then none
  if (file.extract (size-6) size).toList ≠ magic then none
  let length ← count? 4 file (size-10)
  if size - 10 < length then none
  let footer := file.extract (size - 10 - length) (size-10)
  return (footer,← Flatbuffer.wellformedRoot? layout .footer footer)

/-- The columns that a table file declares. Its footer has to list its record batches, and its
numbers have to be stored lowest byte first. The reader relies on a schema all of whose types it
knows. -/
def columnsOf (file : ByteArray) : Attempt (List Field) := do
  let (bytes,footer) ← orRefuse (footer? file)
  let _ ← orRefuse (footer.vector? 3 24).join
  let schema ← orPanic (footer.record? 1).join
  require (schema.intD 0 2 0 == some 0)
  let fields ← orPanic (columns? schema)
  orPanic (entriesComplete footer)
  dictionariesReadable file bytes footer fields
  return fields

/-- Reads the columns of table files. `refusal` is what is said of those that are refused. -/
def reader (refusal : ByteArray → String) : Reader := fun file =>
  match columnsOf file with
  | .ok fields => .fields fields
  | .error (.failed _) => .unreadable (refusal file)
  | .error .panicked => .panicked

end QueryPlan.Arrow
