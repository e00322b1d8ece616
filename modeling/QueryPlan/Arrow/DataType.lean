import QueryPlan.SqlType
import QueryPlan.Text.Escaped

/-! # Types of stored columns

The column types that a table file can declare, their texts, and the types under which
queries see them. -/
namespace QueryPlan.Arrow

inductive TimeUnit where
  | second | millisecond | microsecond | nanosecond
deriving DecidableEq,Repr

inductive IntervalUnit where
  | yearMonth | dayTime | monthDayNano
deriving DecidableEq,Repr

inductive IntWidth where
  | bits8 | bits16 | bits32 | bits64
deriving DecidableEq,Repr

inductive FloatWidth where
  | half | single | double
deriving DecidableEq,Repr

mutual

inductive DataType where
  | null | boolean
  | int (signed : Bool) (width : IntWidth)
  | float (width : FloatWidth)
  | decimal128 (precision : UInt8) (scale : Int8)
  | decimal256 (precision : UInt8) (scale : Int8)
  | date32 | date64
  | time32 (unit : TimeUnit)
  | time64 (unit : TimeUnit)
  | timestamp (unit : TimeUnit) (zone : Option String)
  | duration (unit : TimeUnit)
  | interval (unit : IntervalUnit)
  | binary | largeBinary | binaryView
  | fixedSizeBinary (width : Int32)
  | utf8 | largeUtf8 | utf8View
  | list (item : Field)
  | largeList (item : Field)
  | listView (item : Field)
  | largeListView (item : Field)
  | fixedSizeList (item : Field) (size : Int32)
  | struct (fields : List Field)
  | union (members : List (Int8 × Field)) (dense : Bool)
  | map (entries : Field) (sorted : Bool)
  | dictionary (index value : DataType)
  | runEndEncoded (ends values : Field)

/-- A column. Its metadata stand in the order in which they are printed. -/
inductive Field where
  | mk (name : String) (type : DataType) (nullable : Bool) (dictionary : Int64) (ordered : Bool)
    (metadata : List (String × String))

end

def Field.name : Field → String
  | mk name .. => name

def Field.type : Field → DataType
  | mk _ type .. => type

/-- What a reader makes of a table file. -/
inductive Reading where
  | fields (fields : List Field)
  | unreadable (reason : String)
  | panicked

abbrev Reader := ByteArray → Reading

/-- The type of a stored column as queries see it. Every integer is an INTEGER, bytes of a fixed
width are characters, and the types without a counterpart give none. -/
def DataType.sqlType? : DataType → Option SqlType
  | .int _ _ => some .integer
  | .fixedSizeBinary width => some (.char width.toNatClampNeg.toUInt32)
  | .utf8 | .largeUtf8 => some .varchar
  | .decimal128 precision scale | .decimal256 precision scale => some (.decimal precision scale)
  | .date32 | .date64 => some .date
  | .float .double => some .double
  | _ => none

/-! ## Texts -/

def TimeUnit.text : TimeUnit → String
  | second => "Second"
  | millisecond => "Millisecond"
  | microsecond => "Microsecond"
  | nanosecond => "Nanosecond"

def IntervalUnit.text : IntervalUnit → String
  | yearMonth => "YearMonth"
  | dayTime => "DayTime"
  | monthDayNano => "MonthDayNano"

def IntWidth.bits : IntWidth → Nat
  | bits8 => 8
  | bits16 => 16
  | bits32 => 32
  | bits64 => 64

def FloatWidth.bits : FloatWidth → Nat
  | half => 16
  | single => 32
  | double => 64

private def zoneText : Option String → String
  | none => "None"
  | some zone => "Some(" ++ Text.quoted zone ++ ")"

private def metadataText (metadata : List (String × String)) : String :=
  "\x7b" ++ ", ".intercalate (metadata.map fun e => Text.quoted e.1 ++ ": " ++ Text.quoted e.2) ++ "\x7d"

private def call (head : String) (args : List String) : String :=
  head ++ "(" ++ ", ".intercalate args ++ ")"

mutual

def DataType.text : DataType → String
  | .null => "Null"
  | .boolean => "Boolean"
  | .int signed width => (if signed then "Int" else "UInt") ++ toString width.bits
  | .float width => "Float" ++ toString width.bits
  | .decimal128 precision scale =>
    call "Decimal128" [toString precision.toNat,toString scale.toInt]
  | .decimal256 precision scale =>
    call "Decimal256" [toString precision.toNat,toString scale.toInt]
  | .date32 => "Date32"
  | .date64 => "Date64"
  | .time32 unit => call "Time32" [unit.text]
  | .time64 unit => call "Time64" [unit.text]
  | .timestamp unit zone => call "Timestamp" [unit.text,zoneText zone]
  | .duration unit => call "Duration" [unit.text]
  | .interval unit => call "Interval" [unit.text]
  | .binary => "Binary"
  | .largeBinary => "LargeBinary"
  | .binaryView => "BinaryView"
  | .fixedSizeBinary width => call "FixedSizeBinary" [toString width.toInt]
  | .utf8 => "Utf8"
  | .largeUtf8 => "LargeUtf8"
  | .utf8View => "Utf8View"
  | .list item => call "List" [item.text]
  | .largeList item => call "LargeList" [item.text]
  | .listView item => call "ListView" [item.text]
  | .largeListView item => call "LargeListView" [item.text]
  | .fixedSizeList item size => call "FixedSizeList" [item.text,toString size.toInt]
  | .struct fields => "Struct([" ++ ", ".intercalate (fieldTexts fields) ++ "])"
  | .union members dense => "Union([" ++ ", ".intercalate (memberTexts members) ++ "], "
      ++ (if dense then "Dense" else "Sparse") ++ ")"
  | .map entries sorted => call "Map" [entries.text,toString sorted]
  | .dictionary index value => call "Dictionary" [index.text,value.text]
  | .runEndEncoded ends values => call "RunEndEncoded" [ends.text,values.text]

def Field.text : Field → String
  | .mk name type nullable dictionary ordered metadata =>
    "Field \x7b name: " ++ Text.quoted name ++ ", data_type: " ++ type.text ++ ", nullable: "
      ++ toString nullable ++ ", dict_id: " ++ toString dictionary.toInt ++ ", dict_is_ordered: "
      ++ toString ordered ++ ", metadata: " ++ metadataText metadata ++ " \x7d"

def fieldTexts : List Field → List String
  | [] => []
  | field :: fields => field.text :: fieldTexts fields

def memberTexts : List (Int8 × Field) → List String
  | [] => []
  | (id,field) :: members => ("(" ++ toString id.toInt ++ ", " ++ field.text ++ ")") :: memberTexts members

end

end QueryPlan.Arrow
