/-! # Flatbuffers

Bytes that hold records, texts and vectors linked by offsets. Nothing outside the bytes is
read, and numbers stand at multiples of their size. -/
namespace QueryPlan.Arrow.Flatbuffer

/-- The number that some bytes hold, lowest byte first. -/
def littleEndian : List UInt8 → Nat
  | [] => 0
  | b :: bs => b.toNat + 256 * littleEndian bs

/-- So many bytes from a position on. -/
def bytes? (b : ByteArray) (pos size : Nat) : Option (List UInt8) :=
  if pos + size ≤ b.size then some ((b.extract pos (pos+size)).toList) else none

/-- An unsigned number of so many bytes. -/
def unsigned? (size : Nat) (b : ByteArray) (pos : Nat) : Option Nat :=
  if pos % size = 0 then (bytes? b pos size).map littleEndian else none

/-- A number of so many bytes in two's complement. -/
def signed? (size : Nat) (b : ByteArray) (pos : Nat) : Option Int :=
  (unsigned? size b pos).map fun n => Int.bmod n (Nat.pow 256 size)

/-- The position that an offset leads to. -/
def target? (b : ByteArray) (pos : Nat) : Option Nat := (unsigned? 4 b pos).map (pos + ·)

/-- A record, with the place and the size of the directory of its slots. -/
structure Record where
  bytes : ByteArray
  pos : Nat
  slots : Nat
  size : Nat

def recordAt? (b : ByteArray) (pos : Nat) : Option Record := do
  let back ← signed? 4 b pos
  let place := (pos : Int) - back
  if place < 0 then none
  let slots := place.toNat
  let size ← unsigned? 2 b slots
  if size % 2 = 0 && slots + size ≤ b.size then return ⟨b,pos,slots,size⟩ else none

def root? (b : ByteArray) : Option Record := do recordAt? b (← target? b 0)

namespace Record

/-- The position of a slot's value, or nothing if the record leaves it out. -/
def slot? (t : Record) (n : Nat) : Option (Option Nat) :=
  if 2*n+6 ≤ t.size then do
    let offset ← unsigned? 2 t.bytes (t.slots+2*n+4)
    return if offset = 0 then none else some (t.pos+offset)
  else some none

/-- What a slot holds, or the value that stands for a slot left out. -/
def slotD {α : Type} (t : Record) (n : Nat) (absent : α) (read : Nat → Option α) : Option α := do
  match ← t.slot? n with
  | none => return absent
  | some pos => read pos

def intD (t : Record) (n : Nat) (size : Nat) (absent : Int) : Option Int :=
  t.slotD n absent (signed? size t.bytes)

def boolD (t : Record) (n : Nat) (absent : Bool) : Option Bool :=
  t.slotD n absent fun pos => (unsigned? 1 t.bytes pos).map (· ≠ 0)

def record? (t : Record) (n : Nat) : Option (Option Record) :=
  t.slotD n none fun pos => do some <$> recordAt? t.bytes (← target? t.bytes pos)

/-- The positions of the elements of a vector. -/
def vector? (t : Record) (n stride : Nat) : Option (Option (List Nat)) :=
  t.slotD n none fun pos => do
    let place ← target? t.bytes pos
    let count ← unsigned? 4 t.bytes place
    if place + 4 + stride*count ≤ t.bytes.size then
      return some ((List.range count).map fun i => place+4+stride*i)
    else none

/-- A text ends before a zero byte. -/
def text? (t : Record) (n : Nat) : Option (Option String) :=
  t.slotD n none fun pos => do
    let place ← target? t.bytes pos
    let count ← unsigned? 4 t.bytes place
    let chars ← bytes? t.bytes (place+4) count
    let stop ← bytes? t.bytes (place+4+count) 1
    if stop = [0] then some <$> String.fromUTF8? (ByteArray.mk chars.toArray) else none

/-- The records of a vector of offsets. -/
def records? (t : Record) (n : Nat) : Option (Option (List Record)) := do
  match ← t.vector? n 4 with
  | none => return none
  | some places =>
    some <$> places.mapM fun pos => do recordAt? t.bytes (← target? t.bytes pos)

end Record
end QueryPlan.Arrow.Flatbuffer
