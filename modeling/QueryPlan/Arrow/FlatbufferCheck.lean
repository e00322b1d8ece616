import QueryPlan.Arrow.Flatbuffer

/-! # Well-formed flatbuffers

A layout tells for every kind of record what its slots hold. A buffer is well-formed for a kind if
everything that can be reached from its root stands inside the buffer and at a multiple of its size.
What is reached more than once counts more than once, and there are limits to all of it. -/
namespace QueryPlan.Arrow.Flatbuffer

/-- What a slot holds, or what the offset in it leads to. -/
inductive Shape (κ : Type) where
  | number (size : Nat)
  | text
  /-- A vector of elements without offsets. -/
  | vector (stride alignment : Nat)
  | record (kind : κ)
  | records (kind : κ)
  /-- A record whose kind the byte in another slot tells; both slots are there or none. -/
  | variant (tagSlot : Nat) (kindOf : Nat → Option κ)

/-- What the slots of every kind of record hold, by their numbers. -/
abbrev Layout (κ : Type) := κ → List (Nat × Shape κ)

/-- How much of a buffer may still be visited. -/
structure Allowance where
  bytes : Nat
  records : Nat
deriving DecidableEq,Repr

abbrev Check := StateT Allowance Option

/-- How deep records may be nested, the outermost included. -/
def maxDepth : Nat := 64

def Allowance.full : Allowance := ⟨0x80000000,1000000⟩

namespace Check

def require (condition : Bool) : Check Unit := if condition then return else failure

variable (b : ByteArray)

/-- Visits so many bytes from a position on. -/
def visit (pos size : Nat) : Check Unit := do
  let left ← get
  require (pos + size ≤ b.size && size ≤ left.bytes)
  set { left with bytes := left.bytes - size }

/-- Visits a number of so many bytes. -/
def number (size pos : Nat) : Check Nat := do
  visit b pos size
  unsigned? size b pos

/-- The position that an offset leads to. -/
def target (pos : Nat) : Check Nat := return pos + (← number b 4 pos)

/-- The place of the first element of a vector, and the number of its elements. -/
def vector (stride alignment pos : Nat) : Check (Nat × Nat) := do
  let count ← number b 4 pos
  require ((pos+4) % alignment = 0)
  visit b (pos+4) (stride*count)
  return (pos+4,count)

/-- A text in UTF-8 with a zero byte behind it. -/
def text (pos : Nat) : Check Unit := do
  let (start,count) ← vector b 1 1 pos
  require (b.extract start (start+count)).validateUTF8
  require ((bytes? b (start+count) 1) == some [0])

/-- A record at a position, without what its slots hold. -/
def recordAt (pos : Nat) : Check Record := do
  let _ ← number b 4 pos
  let slots := (pos : Int) - (← signed? 4 b pos)
  require (0 ≤ slots && slots < b.size)
  let size ← number b 2 slots.toNat
  require ((slots.toNat+size) % 2 = 0)
  visit b slots.toNat size
  let left ← get
  require (0 < left.records)
  set { left with records := left.records - 1 }
  return ⟨b,pos,slots.toNat,size⟩

/-- The position of what a slot holds. -/
def slot (t : Record) (n : Nat) : Check (Option Nat) := do
  if 2*n+6 ≤ t.size then visit b (t.slots+2*n+4) 2
  t.slot? n

/-- What stands at the position of a slot, where `record` checks the records that it leads to. -/
def shape {κ : Type} (record : κ → Nat → Check Unit) (t : Record) (pos : Nat) :
    Shape κ → Check Unit
  | .number size => discard (number b size pos)
  | .text => do text b (← target b pos)
  | .vector stride alignment => do discard (vector b stride alignment (← target b pos))
  | .record kind => do record kind (← target b pos)
  | .records kind => do
    let (start,count) ← vector b 4 4 (← target b pos)
    (List.range count).forM fun i => do record kind (← target b (start+4*i))
  | .variant tagSlot kindOf => do
    match ← slot b t tagSlot with
    | none => failure
    | some tagPos =>
      match kindOf (← number b 1 tagPos) with
      | some kind => record kind (← target b pos)
      | none => return

/-- What a slot holds, if the record does not leave it out. -/
def slotShape {κ : Type} (record : κ → Nat → Check Unit) (t : Record) (n : Nat) (s : Shape κ) :
    Check Unit := do
  match ← slot b t n,s with
  | some pos,s => shape b record t pos s
  | none,.variant tagSlot _ => do require (← slot b t tagSlot).isNone
  | none,_ => return

/-- A record of a kind with all that it leads to; the first number is the depth allowed. -/
def record {κ : Type} (layout : Layout κ) : Nat → κ → Nat → Check Unit
  | 0,_,_ => failure
  | depth+1,kind,pos => do
    let t ← recordAt b pos
    (layout kind).forM fun (n,s) => slotShape b (record layout depth) t n s

end Check

/-- The root of a buffer that is well-formed for a kind of record. -/
def wellformedRoot? {κ : Type} (layout : Layout κ) (kind : κ) (b : ByteArray) : Option Record := do
  let check : Check Unit := do Check.record b layout maxDepth kind (← Check.target b 0)
  let _ ← check.run Allowance.full
  root? b

end QueryPlan.Arrow.Flatbuffer
