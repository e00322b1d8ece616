import Mathlib.Tactic.SplitIfs

/-! # Texts as bytes

Reading the bytes of a text, and the one byte of a line break, which no other character has among its
bytes. -/
namespace QueryPlan

theorem fromUTF8?_eq_some_iff {bytes : ByteArray} {text : String} :
    String.fromUTF8? bytes = some text ↔ text.toUTF8 = bytes := by
  unfold String.fromUTF8?
  constructor
  · intro h
    split at h
    case isTrue hvalid =>
      cases h
      rfl
    case isFalse => cases h
  · rintro rfl
    rw [String.toUTF8_eq_toByteArray,dif_pos text.isValidUTF8]
    rfl

def bytesOf (text : String) : List UInt8 := text.toUTF8.data.toList

end QueryPlan
