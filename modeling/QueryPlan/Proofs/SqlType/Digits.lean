import QueryPlan.SqlType
import Mathlib.Algebra.Order.Ring.Int
import Mathlib.Data.Option.Basic

/-! # Digits of derived types

Sums of precisions and scales are taken in words of eight and sixteen bits. None of these steps leaves
its word, so the digits of a derived type are those that whole numbers of any size would give. -/
namespace QueryPlan.SqlType

/-! ## Steps within words -/

def byte? (v : ℤ) : Option UInt8 := if 0 ≤ v ∧ v < 2^8 then some (UInt8.ofNat v.toNat) else none

def eightBits? (v : ℤ) : Option Int8 := if -2^7 ≤ v ∧ v < 2^7 then some (Int8.ofInt v) else none

def sixteenBits? (v : ℤ) : Option Int16 := if -2^15 ≤ v ∧ v < 2^15 then some (Int16.ofInt v) else none

theorem byte?_eq_some_iff {v : ℤ} {n : UInt8} : byte? v = some n ↔ (n.toNat : ℤ) = v := by
  have hn := n.toNat_lt
  unfold byte?
  split
  · rw [Option.some.injEq,← UInt8.toNat_inj,UInt8.toNat_ofNat']
    omega
  · simp only [reduceCtorEq,false_iff]
    omega

theorem eightBits?_eq_some_iff {v : ℤ} {n : Int8} : eightBits? v = some n ↔ n.toInt = v := by
  have hlt := n.toInt_lt
  have hle := n.le_toInt
  unfold eightBits?
  split
  · rename_i h
    rw [Option.some.injEq,← Int8.toInt_inj,Int8.toInt_ofInt_of_le h.1 h.2,eq_comm]
  · simp only [reduceCtorEq,false_iff]
    omega

theorem sixteenBits?_eq_some_iff {v : ℤ} {n : Int16} : sixteenBits? v = some n ↔ n.toInt = v := by
  have hlt := n.toInt_lt
  have hle := n.le_toInt
  unfold sixteenBits?
  split
  · rename_i h
    rw [Option.some.injEq,← Int16.toInt_inj,Int16.toInt_ofInt_of_le h.1 h.2,eq_comm]
  · simp only [reduceCtorEq,false_iff]
    omega

theorem toInt_max8 (a b : Int8) : (max a b).toInt = max a.toInt b.toInt := by
  change (if a ≤ b then b else a).toInt = if a.toInt ≤ b.toInt then b.toInt else a.toInt
  simp only [Int8.le_iff_toInt_le]
  split <;> rfl

theorem toInt_min8 (a b : Int8) : (min a b).toInt = min a.toInt b.toInt := by
  change (if a ≤ b then a else b).toInt = if a.toInt ≤ b.toInt then a.toInt else b.toInt
  simp only [Int8.le_iff_toInt_le]
  split <;> rfl

theorem toInt_max16 (a b : Int16) : (max a b).toInt = max a.toInt b.toInt := by
  change (if a ≤ b then b else a).toInt = if a.toInt ≤ b.toInt then b.toInt else a.toInt
  simp only [Int16.le_iff_toInt_le]
  split <;> rfl

theorem toInt_add16 {a b : Int16} (hle : -2^15 ≤ a.toInt+b.toInt) (hlt : a.toInt+b.toInt < 2^15) :
    (a+b).toInt = a.toInt+b.toInt := by
  rw [Int16.toInt_add,Int.bmod_eq_of_le] <;> omega

theorem toInt_sub16 {a b : Int16} (hle : -2^15 ≤ a.toInt-b.toInt) (hlt : a.toInt-b.toInt < 2^15) :
    (a-b).toInt = a.toInt-b.toInt := by
  rw [Int16.toInt_sub,Int.bmod_eq_of_le] <;> omega

/-- A precision has its value in sixteen bits. -/
theorem toInt_widened (p : UInt8) : (Int16.ofNat p.toNat).toInt = p.toNat :=
  Int16.toInt_ofNat_of_lt (Nat.lt_trans p.toNat_lt (by decide))

/-! ## Precisions and scales as whole numbers -/

/-- The wider integral part, the longer fraction and a carry. -/
def sumPrecision (a b : UInt8 × Int8) : ℤ :=
  max (a.1.toNat-a.2.toInt) (b.1.toNat-b.2.toInt)+max a.2.toInt b.2.toInt+1

def productPrecision (a b : UInt8 × Int8) : ℤ := a.1.toNat+b.1.toNat

def quotientScale (a b : UInt8 × Int8) : ℤ := max (max a.2.toInt b.2.toInt) 6

def quotientPrecision (a b : UInt8 × Int8) : ℤ := a.1.toNat+quotientScale a b

/-- A precision brought into the range of those that types can have. -/
def clamped (p : ℤ) : ℤ := max 1 (min p 38)

theorem toNat_clampPrecision (p : Int16) : ((clampPrecision p).toNat : ℤ) = clamped p.toInt := by
  have h1 : (1 : Int16).toInt = 1 := rfl
  have h38 : (38 : Int16).toInt = 38 := rfl
  unfold clampPrecision clamped
  simp only [Int16.lt_iff_toInt_lt,h1,h38]
  split
  · change (1 : ℤ) = _
    omega
  · split
    · change (38 : ℤ) = _
      omega
    · rw [UInt8.toNat_ofNat']
      omega

section
variable (a b : UInt8 × Int8)

/-- The digits before the point. -/
theorem toInt_integral : (Int16.ofNat a.1.toNat-a.2.toInt16).toInt = a.1.toNat-a.2.toInt := by
  have hp := a.1.toNat_lt
  have hs := a.2.le_toInt
  have hs' := a.2.toInt_lt
  rw [toInt_sub16] <;> rw [toInt_widened,Int8.toInt_toInt16] <;> omega

theorem toInt_uncarried :
    (max (Int16.ofNat a.1.toNat-a.2.toInt16) (Int16.ofNat b.1.toNat-b.2.toInt16)
      +(max a.2 b.2).toInt16).toInt
      = max (a.1.toNat-a.2.toInt) (b.1.toNat-b.2.toInt)+max a.2.toInt b.2.toInt := by
  have hp := a.1.toNat_lt
  have hq := b.1.toNat_lt
  have hs := a.2.le_toInt
  have hs' := a.2.toInt_lt
  have ht := b.2.le_toInt
  have ht' := b.2.toInt_lt
  rw [toInt_add16] <;>
    rw [toInt_max16,toInt_integral,toInt_integral,Int8.toInt_toInt16,toInt_max8] <;> omega

theorem toInt_carried :
    (max (Int16.ofNat a.1.toNat-a.2.toInt16) (Int16.ofNat b.1.toNat-b.2.toInt16)
      +(max a.2 b.2).toInt16+1).toInt = sumPrecision a b := by
  have hp := a.1.toNat_lt
  have hq := b.1.toNat_lt
  have hs := a.2.le_toInt
  have hs' := a.2.toInt_lt
  have ht := b.2.le_toInt
  have ht' := b.2.toInt_lt
  have h1 : (1 : Int16).toInt = 1 := rfl
  rw [toInt_add16] <;> rw [toInt_uncarried,h1]
  · rfl
  all_goals omega

theorem toInt_multiplied :
    (Int16.ofNat a.1.toNat+Int16.ofNat b.1.toNat).toInt = productPrecision a b := by
  have hp := a.1.toNat_lt
  have hq := b.1.toNat_lt
  rw [toInt_add16] <;> rw [toInt_widened,toInt_widened]
  · rfl
  all_goals omega

theorem toInt_quotientScale : (max (max a.2 b.2) 6).toInt = quotientScale a b := by
  have h6 : (6 : Int8).toInt = 6 := rfl
  rw [toInt_max8,toInt_max8,h6,quotientScale]

theorem toInt_divided : (Int16.ofNat a.1.toNat+(max (max a.2 b.2) 6).toInt16).toInt
    = quotientPrecision a b := by
  have hp := a.1.toNat_lt
  have hs' := a.2.toInt_lt
  have ht' := b.2.toInt_lt
  rw [toInt_add16] <;> rw [toInt_widened,Int8.toInt_toInt16,toInt_quotientScale]
  · rfl
  all_goals rw [quotientScale]
  all_goals omega

theorem sumDigits_precision : ((sumDigits a b).1.toNat : ℤ) = clamped (sumPrecision a b) :=
  (toNat_clampPrecision _).trans (congrArg clamped (toInt_carried a b))

theorem sumDigits_scale : (sumDigits a b).2.toInt = max a.2.toInt b.2.toInt := toInt_max8 a.2 b.2

theorem productDigits_precision :
    ((productDigits a b).1.toNat : ℤ) = clamped (productPrecision a b) :=
  (toNat_clampPrecision _).trans (congrArg clamped (toInt_multiplied a b))

/-- The scale of a product stops at the ends of its range. -/
theorem productDigits_scale :
    (productDigits a b).2.toInt = max (-128) (min (a.2.toInt+b.2.toInt) 127) := by
  have hmin : Int8.minValue.toInt = -128 := rfl
  have hmax : Int8.maxValue.toInt = 127 := rfl
  unfold productDigits Int8.ofIntClamp
  dsimp only
  split
  · split
    · rw [Int8.toInt_ofIntLE]
      omega
    · omega
  · omega

theorem quotientDigits_precision :
    ((quotientDigits a b).1.toNat : ℤ) = clamped (quotientPrecision a b) :=
  (toNat_clampPrecision _).trans (congrArg clamped (toInt_divided a b))

theorem quotientDigits_scale : (quotientDigits a b).2.toInt = quotientScale a b :=
  toInt_quotientScale a b

end

/-! ## Digits taken step by step

The same digits once more, where each step is refused whose value its word does not hold. -/

def clampPrecision? (p : Int16) : Option UInt8 := byte? (clamped p.toInt)

def sumDigits? (a b : UInt8 × Int8) : Option (UInt8 × Int8) := do
  let scale := max a.2 b.2
  let left ← sixteenBits? (a.1.toNat-a.2.toInt)
  let right ← sixteenBits? (b.1.toNat-b.2.toInt)
  let digits ← sixteenBits? ((max left right).toInt+scale.toInt)
  let carried ← sixteenBits? (digits.toInt+1)
  return (← clampPrecision? carried,scale)

def productDigits? (a b : UInt8 × Int8) : Option (UInt8 × Int8) := do
  let digits ← sixteenBits? (a.1.toNat+b.1.toNat)
  let scale ← eightBits? (max (-128) (min (a.2.toInt+b.2.toInt) 127))
  return (← clampPrecision? digits,scale)

def quotientDigits? (a b : UInt8 × Int8) : Option (UInt8 × Int8) := do
  let scale := max (max a.2 b.2) 6
  let digits ← sixteenBits? (a.1.toNat+scale.toInt)
  return (← clampPrecision? digits,scale)

/-- The type of an arithmetic operator over digits that may be refused, with the precision brought
into the word of the scale. -/
def arithmetic? (digits? : UInt8 × Int8 → UInt8 × Int8 → Option (UInt8 × Int8)) (a b : SqlType) :
    Option (Option SqlType) :=
  if !(a.isNumeric || a == null) || !(b.isNumeric || b == null) then some none
  else match a,b with
    | null,t | t,null => some (some t)
    | double,_ | _,double => some (some double)
    | integer,integer => some (some integer)
    | integer,bigInt | bigInt,integer | bigInt,bigInt => some (some bigInt)
    | a,b =>
      match a.exactDigits,b.exactDigits with
      | some a,some b => do
        let (precision,scale) ← digits? a b
        let most ← eightBits? precision.toNat
        return some (decimal precision (min scale most))
      | _,_ => some none

theorem clampPrecision?_eq (p : Int16) : clampPrecision? p = some (clampPrecision p) :=
  byte?_eq_some_iff.2 (toNat_clampPrecision p)

section
variable (a b : UInt8 × Int8)

theorem sumDigits?_eq : sumDigits? a b = some (sumDigits a b) := by
  have huncarried := toInt_uncarried a b
  rw [← toInt_integral,← toInt_integral,← toInt_max16,← toInt_max8] at huncarried
  have hcarried := toInt_carried a b
  rw [sumPrecision,← toInt_uncarried] at hcarried
  simp only [sumDigits?,sixteenBits?_eq_some_iff.2 (toInt_integral a),
    sixteenBits?_eq_some_iff.2 (toInt_integral b),sixteenBits?_eq_some_iff.2 huncarried,
    sixteenBits?_eq_some_iff.2 hcarried,clampPrecision?_eq,Option.bind_eq_bind,Option.bind_some]
  rfl

theorem productDigits?_eq : productDigits? a b = some (productDigits a b) := by
  have hmultiplied := toInt_multiplied a b
  rw [productPrecision] at hmultiplied
  simp only [productDigits?,sixteenBits?_eq_some_iff.2 hmultiplied,
    eightBits?_eq_some_iff.2 (productDigits_scale a b),clampPrecision?_eq,Option.bind_eq_bind,
    Option.bind_some]
  rfl

theorem quotientDigits?_eq : quotientDigits? a b = some (quotientDigits a b) := by
  have hdivided := toInt_divided a b
  rw [quotientPrecision,← toInt_quotientScale] at hdivided
  simp only [quotientDigits?,sixteenBits?_eq_some_iff.2 hdivided,clampPrecision?_eq,
    Option.bind_eq_bind,Option.bind_some]
  rfl

end

section
variable {digits : UInt8 × Int8 → UInt8 × Int8 → UInt8 × Int8}

/-- Digits whose precision is one that types can have. -/
def Clamps (digits : UInt8 × Int8 → UInt8 × Int8 → UInt8 × Int8) : Prop :=
  ∀ a b, 1 ≤ (digits a b).1.toNat ∧ (digits a b).1.toNat ≤ 38

theorem clamped_bounds {p : ℤ} {n : ℕ} (h : (n : ℤ) = clamped p) : 1 ≤ n ∧ n ≤ 38 := by
  rw [clamped] at h
  omega

theorem clamps_sumDigits : Clamps sumDigits := fun a b => clamped_bounds (sumDigits_precision a b)

theorem clamps_productDigits : Clamps productDigits :=
  fun a b => clamped_bounds (productDigits_precision a b)

theorem clamps_quotientDigits : Clamps quotientDigits :=
  fun a b => clamped_bounds (quotientDigits_precision a b)

/-- The scale ends at the precision, which has its value as a scale. -/
theorem toInt_limited {p : UInt8} (hp : p.toNat ≤ 38) : (Int8.ofNat p.toNat).toInt = p.toNat :=
  Int8.toInt_ofNat_of_lt (Nat.lt_of_le_of_lt hp (by decide))

theorem arithmetic?_eq {digits? : UInt8 × Int8 → UInt8 × Int8 → Option (UInt8 × Int8)}
    (hdigits : ∀ a b, digits? a b = some (digits a b)) (hclamps : Clamps digits) (a b : SqlType) :
    arithmetic? digits? a b = some (arithmetic digits a b) := by
  have hlimit (a b : UInt8 × Int8) : eightBits? (digits a b).1.toNat
      = some (Int8.ofNat (digits a b).1.toNat) :=
    eightBits?_eq_some_iff.2 (toInt_limited (hclamps a b).2)
  unfold arithmetic? arithmetic
  split
  · rfl
  · cases a <;> cases b <;> simp [exactDigits,hdigits,hlimit]

end
end QueryPlan.SqlType
