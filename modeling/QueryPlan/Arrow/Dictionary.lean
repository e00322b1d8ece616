import QueryPlan.Arrow.DataType
import QueryPlan.Arrow.Layout
import QueryPlan.Stop

/-! # Dictionaries of table files

The values of a dictionary stand in front of the footer as a batch of one column, in buffers of their
own. They are readable if there are as many as the batch promises and none leaves its buffer. A
file whose numbers contradict each other can make its reader panic. -/
namespace QueryPlan.Arrow

open Flatbuffer (Record)

/-- The reading of a file, which may refuse it or panic. -/
abbrev Attempt := Except (Stop Unit)

def orRefuse {α : Type} : Option α → Attempt α
  | some a => .ok a
  | none => .error (.failed ())

def orPanic {α : Type} : Option α → Attempt α
  | some a => .ok a
  | none => .error .panicked

def require (condition : Bool) : Attempt Unit := if condition then return else .error (.failed ())

/-- A number of so many bytes at any position. -/
def number? (size : Nat) (b : ByteArray) (pos : Nat) : Option Int :=
  (Flatbuffer.bytes? b pos size).map fun bytes =>
    Int.bmod (Flatbuffer.littleEndian bytes) (Nat.pow 256 size)

/-- Such a number, which must not be negative. -/
def count? (size : Nat) (b : ByteArray) (pos : Nat) : Option Nat := do
  let n ← number? size b pos
  if n < 0 then none else return n.toNat

def stretch? (b : ByteArray) (start size : Nat) : Option ByteArray :=
  if start + size ≤ b.size then some (b.extract start (start+size)) else none

/-! ## Values in buffers -/

/-- How the values of a column stand in its buffers. -/
inductive Storage where
  /-- No buffers, since every value is null. -/
  | absent
  | bits
  | fixed (size : Nat)
  /-- Bytes in a row, between offsets of so many bytes; each stretch of them may have to be a text. -/
  | stretches (offsetSize : Nat) (text : Bool)
deriving DecidableEq,Repr

/-- How values are stored that hold no other ones. -/
def DataType.storage? : DataType → Option Storage
  | .null => some .absent
  | .boolean => some .bits
  | .int _ width => some (.fixed (width.bits / 8))
  | .float width => some (.fixed (width.bits / 8))
  | .decimal128 _ _ | .interval .monthDayNano => some (.fixed 16)
  | .decimal256 _ _ => some (.fixed 32)
  | .date32 | .time32 _ | .interval .yearMonth => some (.fixed 4)
  | .date64 | .time64 _ | .timestamp _ _ | .duration _ | .interval .dayTime => some (.fixed 8)
  | .fixedSizeBinary width => some (.fixed width.toNatClampNeg)
  | .utf8 => some (.stretches 4 true)
  | .binary => some (.stretches 4 false)
  | .largeUtf8 => some (.stretches 8 true)
  | .largeBinary => some (.stretches 8 false)
  | _ => none

/-- The stretches between offsets that never fall and stay inside so many bytes. -/
def stretchesBetween (size : Nat) : List Int → Option (List (Nat × Nat))
  | [] => some []
  | [a] => if 0 ≤ a && a ≤ size then some [] else none
  | a :: b :: rest =>
    if 0 ≤ a && a ≤ b then (stretchesBetween size (b :: rest)).map ((a.toNat,b.toNat) :: ·) else none

/-- No character goes on over a position. -/
def isBoundary (b : ByteArray) (pos : Nat) : Bool :=
  match b.data[pos]? with
  | some byte => byte.toNat / 64 ≠ 2
  | none => pos == b.size

/-- Every stretch is a text. In bytes that are a text as a whole, also an empty stretch has to stand
between characters. -/
def textsReadable (b : ByteArray) (stretches : List (Nat × Nat)) : Bool :=
  if b.validateUTF8 then stretches.all fun s => isBoundary b s.1 && isBoundary b s.2
  else stretches.all fun s => (b.extract s.1 s.2).validateUTF8

/-- So many values stand in the buffers behind the one for nulls. -/
def Storage.readable (buffer : Nat → Attempt ByteArray) (length : Nat) : Storage → Attempt Unit
  | absent => return
  | bits => do require (length ≤ 8 * (← buffer 1).size)
  | fixed size => do require (length*size ≤ (← buffer 1).size)
  | stretches offsetSize text => do
    let offsets ← buffer 1
    let values ← buffer 2
    if length = 0 && offsets.size = 0 then return
    require ((length+1)*offsetSize ≤ offsets.size)
    let places ← orRefuse
      ((List.range (length+1)).mapM fun i => number? offsetSize offsets (offsetSize*i))
    let found ← orRefuse (stretchesBetween values.size places)
    require (!text || textsReadable values found)

/-- Bytes of a batch that may be compressed, with a length in front. Only those can be read that are
empty, or that have been left as they are. -/
def uncompressed? (b : ByteArray) : Option ByteArray := do
  if b.size = 0 then return b
  match ← number? 8 b 0 with
  | 0 => return ByteArray.empty
  | -1 => return b.extract 8 b.size
  | _ => none

/-- A buffer of a batch, among the bytes behind it. The reader relies on its being there. -/
def bufferOf (batch : Record) (body : ByteArray) (compressed : Bool) (buffers : List Nat) (n : Nat) :
    Attempt ByteArray := do
  let pos ← orPanic buffers[n]?
  let start ← orPanic (count? 8 batch.bytes pos)
  let size ← orPanic (count? 8 batch.bytes (pos+8))
  let bytes ← orPanic (stretch? body start size)
  if compressed then orRefuse (uncompressed? bytes) else return bytes

/-- The values of the only column of a batch can be read from the bytes behind it. Of values that hold
other ones nothing is checked. -/
def valuesReadable (batch : Record) (body : ByteArray) (type : DataType) : Attempt Unit := do
  let nodes ← orRefuse (batch.vector? 1 16).join
  let buffers ← orRefuse (batch.vector? 2 16).join
  let compressed ← match ← orRefuse (batch.record? 3) with
    | none => pure false
    | some coding => do
      let codec ← orRefuse (coding.intD 0 1 0)
      require (codec = 0 || codec = 1)
      pure true
  match type.storage? with
  | none => return
  | some storage =>
    let node ← orRefuse nodes.head?
    let length ← orRefuse (count? 8 batch.bytes node)
    let nulls ← orRefuse (number? 8 batch.bytes (node+8))
    let buffer := bufferOf batch body compressed buffers
    require (batch.intD 0 8 0 == some (length : Int))
    if storage = .absent then require (nulls == length)
    else
      let present ← buffer 0
      require (nulls ≤ 0 || length ≤ 8 * present.size)
    storage.readable buffer length

/-! ## Dictionaries of a footer -/

/-- The bytes of a message behind its length, and behind four more bytes of ones if they open it. -/
def messageBody (b : ByteArray) : Attempt ByteArray := do
  let mark ← orPanic (Flatbuffer.bytes? b 0 4)
  if mark ≠ [255,255,255,255] then return b.extract 4 b.size
  else if b.size < 8 then .error .panicked
  else return b.extract 8 b.size

/-- The number of the dictionary that a message holds, and its values. The message has to be of the
version of the footer, unless that is the first one, and must not add to another dictionary. -/
def dictionaryOf (version : Int) (b : ByteArray) : Attempt (Int × Option Record) := do
  let message ← orRefuse (Flatbuffer.wellformedRoot? layout .message (← messageBody b))
  require (version = 0 || message.intD 0 2 0 == some version)
  require (message.intD 1 1 0 == some 2)
  let dictionary ← orRefuse (message.record? 2).join
  require (dictionary.boolD 2 false == some false)
  return (← orRefuse (dictionary.intD 0 8 0),← orRefuse (dictionary.record? 1))

/-- The bytes that a block of a footer points to, and the size of the message that they begin with:
a position, the size of the message and the size of the values behind it. -/
def blockOf (file footer : ByteArray) (pos : Nat) : Attempt (ByteArray × Nat) := do
  let start ← orRefuse (count? 8 footer pos)
  let messageSize ← orPanic (count? 4 footer (pos+8))
  let valuesSize ← orPanic (count? 8 footer (pos+16))
  return (← orRefuse (stretch? file start (messageSize+valuesSize)),messageSize)

mutual

/-- The numbers of the dictionaries that code a column or columns inside it, and the types of their
values. -/
def Field.codings : Field → List (Int × DataType)
  | .mk _ type _ id _ _ =>
    match type with
    | .dictionary _ value => (id.toInt,value) :: value.codings
    | type => type.codings

def DataType.codings : DataType → List (Int × DataType)
  | .list item | .largeList item | .fixedSizeList item _ | .map item _ | .runEndEncoded _ item =>
    item.codings
  | .struct fields => codingsOf fields
  | .union members _ => memberCodings members
  | .dictionary _ value => value.codings
  | _ => []

def codingsOf : List Field → List (Int × DataType)
  | [] => []
  | field :: fields => field.codings ++ codingsOf fields

def memberCodings : List (Int8 × Field) → List (Int × DataType)
  | [] => []
  | (_,field) :: members => field.codings ++ memberCodings members

end

/-- All dictionaries of a footer can be read, and each codes one of the columns. -/
def dictionariesReadable (file footer : ByteArray) (root : Record) (fields : List Field) :
    Attempt Unit := do
  let version ← orRefuse (root.intD 0 2 0)
  let blocks ← orRefuse (root.vector? 2 24)
  (blocks.getD []).forM fun pos => do
    let (bytes,messageSize) ← blockOf file footer pos
    let (id,batch) ← dictionaryOf version bytes
    let type ← orRefuse ((codingsOf fields).lookup id)
    valuesReadable (← orPanic batch) (bytes.extract messageSize bytes.size) type

end QueryPlan.Arrow
