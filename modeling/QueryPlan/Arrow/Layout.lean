import QueryPlan.Arrow.FlatbufferCheck

/-! # The records of table files

The slots of the footer and of the messages for dictionaries, and of the records in them. -/
namespace QueryPlan.Arrow
open Flatbuffer (Shape Layout)

inductive RecordKind where
  | footer | schema | field | entry | coding
  | type (tag : Nat)
  | message | dictionary | batch | compression
deriving DecidableEq,Repr

/-- The slots of the record that describes a type, by the tag of the type. -/
def typeLayout : Nat → List (Nat × Shape RecordKind)
  | 2 => [(0,.number 4),(1,.number 1)]
  | 3 | 8 | 11 | 18 => [(0,.number 2)]
  | 7 => [(0,.number 4),(1,.number 4),(2,.number 4)]
  | 9 => [(0,.number 2),(1,.number 4)]
  | 10 => [(0,.number 2),(1,.text)]
  | 14 => [(0,.number 2),(1,.vector 4 4)]
  | 15 | 16 => [(0,.number 4)]
  | 17 => [(0,.number 1)]
  | _ => []

/-- The tags of types are 1 to 26. -/
def typeKind (tag : Nat) : Option RecordKind :=
  if 1 ≤ tag && tag ≤ 26 then some (.type tag) else none

/-- Only dictionaries stand in the messages that a footer leads to. -/
def messageKind (tag : Nat) : Option RecordKind := if tag = 2 then some .dictionary else none

def layout : Layout RecordKind
  | .footer =>
    [(0,.number 2),(1,.record .schema),(2,.vector 24 1),(3,.vector 24 1),(4,.records .entry)]
  | .schema => [(0,.number 2),(1,.records .field),(2,.records .entry),(3,.vector 8 8)]
  | .field =>
    [(0,.text),(1,.number 1),(3,.variant 2 typeKind),(4,.record .coding),(5,.records .field),
      (6,.records .entry)]
  | .entry => [(0,.text),(1,.text)]
  | .coding => [(0,.number 8),(1,.record (.type 2)),(2,.number 1),(3,.number 2)]
  | .type tag => typeLayout tag
  | .message => [(0,.number 2),(2,.variant 1 messageKind),(3,.number 8),(4,.records .entry)]
  | .dictionary => [(0,.number 8),(1,.record .batch),(2,.number 1)]
  | .batch =>
    [(0,.number 8),(1,.vector 16 1),(2,.vector 16 1),(3,.record .compression),
      (4,.vector 8 8)]
  | .compression => [(0,.number 1),(1,.number 1)]

end QueryPlan.Arrow
