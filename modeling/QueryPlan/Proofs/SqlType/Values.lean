import QueryPlan.Proofs.SqlType.Digits
import Mathlib.Algebra.Order.Field.Basic
import Mathlib.Algebra.Order.Field.Power
import Mathlib.Data.Rat.Cast.Order
import Mathlib.Tactic.Linarith
import Mathlib.Tactic.NormNum
import Mathlib.Tactic.Positivity
import Mathlib.Tactic.Ring

/-! # Values of exact numeric types

A type with digits holds numbers of so many places that its precision has room for. Sums and products
of such numbers have room in the types derived for them. -/
namespace QueryPlan.SqlType

/-! ## Numbers of so many digits -/

/-- Multiples of the last place that are smaller in magnitude than the first place left of all digits. -/
structure Representable (precision scale : ℤ) (v : ℚ) : Prop where
  units : ∃ m : ℤ, v = m*(10 : ℚ)^(-scale)
  lt : |v| < (10 : ℚ)^(precision-scale)

namespace Representable
variable {p q s t : ℤ} {v w : ℚ}

/-- More places after the point can say the same, as long as as many are left before it. -/
theorem widen (h : Representable p s v) (hs : s ≤ t) (hp : p-s ≤ q-t) : Representable q t v := by
  obtain ⟨⟨m,hm⟩,hlt⟩ := h
  refine ⟨⟨m*10^(t-s).toNat,?_⟩,hlt.trans_le (zpow_le_zpow_right₀ (by norm_num) hp)⟩
  have hsplit : (10 : ℚ)^(-s) = (10 : ℚ)^((t-s).toNat : ℤ)*(10 : ℚ)^(-t) := by
    rw [← zpow_add₀ (by norm_num)]
    congr 1
    omega
  rw [hm,hsplit]
  push_cast [zpow_natCast]
  ring

theorem neg (h : Representable p s v) : Representable p s (-v) := by
  obtain ⟨⟨m,hm⟩,hlt⟩ := h
  refine ⟨⟨-m,?_⟩,by rwa [abs_neg]⟩
  rw [hm]
  push_cast
  ring

/-- A sum of numbers alike has room with one digit more. -/
theorem add (hv : Representable p s v) (hw : Representable p s w) : Representable (p+1) s (v+w) := by
  obtain ⟨⟨m,hm⟩,hv⟩ := hv
  obtain ⟨⟨n,hn⟩,hw⟩ := hw
  refine ⟨⟨m+n,?_⟩,?_⟩
  · rw [hm,hn]
    push_cast
    ring
  · have hpos : (0 : ℚ) < 10^(p-s) := by positivity
    have hcarry : (10 : ℚ)^(p+1-s) = 10^(p-s)*10 := by
      rw [← zpow_add_one₀ (by norm_num)]
      congr 1
      ring
    calc |v+w| ≤ |v|+|w| := abs_add_le v w
      _ < 10^(p-s)+10^(p-s) := add_lt_add hv hw
      _ ≤ 10^(p+1-s) := by
        rw [hcarry]
        linarith

theorem mul (hv : Representable p s v) (hw : Representable q t w) :
    Representable (p+q) (s+t) (v*w) := by
  obtain ⟨⟨m,hm⟩,hv⟩ := hv
  obtain ⟨⟨n,hn⟩,hw⟩ := hw
  refine ⟨⟨m*n,?_⟩,?_⟩
  · rw [hm,hn,neg_add,zpow_add₀ (by norm_num)]
    push_cast
    ring
  · have hsplit : (10 : ℚ)^(p+q-(s+t)) = 10^(p-s)*10^(q-t) := by
      rw [← zpow_add₀ (by norm_num)]
      congr 1
      ring
    rw [abs_mul,hsplit]
    exact mul_lt_mul'' hv hw (abs_nonneg v) (abs_nonneg w)

/-- Whole numbers have no places after the point. -/
theorem ofInt {n : ℤ} {k : ℕ} (h : |n| < 10^k) : Representable k 0 n := by
  refine ⟨⟨n,by simp⟩,?_⟩
  rw [sub_zero,zpow_natCast]
  exact_mod_cast h

end Representable

/-! ## Values of types -/

/-- The numbers that a type holds, if it is exact. Whole numbers have words of 32 and 64 bits. -/
def HasValue : SqlType → ℚ → Prop
  | integer,v => ∃ n : Int32, v = n.toInt
  | bigInt,v => ∃ n : Int64, v = n.toInt
  | decimal precision scale,v => Representable precision.toNat scale.toInt v
  | _,_ => False

variable {a b : SqlType} {d e : UInt8 × Int8} {v w : ℚ}

/-- The digits of a type are enough for its values. -/
theorem HasValue.representable (h : a.HasValue v) (ha : a.exactDigits = some d) :
    Representable d.1.toNat d.2.toInt v := by
  cases a with
  | integer =>
    cases ha
    obtain ⟨n,rfl⟩ := h
    have hlt := n.toInt_lt
    have hle := n.le_toInt
    exact .ofInt (k := 10) (abs_lt.2 ⟨by omega,by omega⟩)
  | bigInt =>
    cases ha
    obtain ⟨n,rfl⟩ := h
    have hlt := n.toInt_lt
    have hle := n.le_toInt
    exact .ofInt (k := 19) (abs_lt.2 ⟨by omega,by omega⟩)
  | decimal precision scale =>
    cases ha
    exact h
  | _ => cases ha

/-- No digit of the scale is beyond the precision. -/
structure InRange (d : UInt8 × Int8) : Prop where
  nonneg : 0 ≤ d.2.toInt
  le : d.2.toInt ≤ d.1.toNat

def isDecimal : SqlType → Bool
  | decimal _ _ => true
  | _ => false

/-- Digits decide about exact types, unless both are whole numbers. -/
theorem arithmetic_exact (digits : UInt8 × Int8 → UInt8 × Int8 → UInt8 × Int8)
    (ha : a.exactDigits = some d) (hb : b.exactDigits = some e) (h : a.isDecimal || b.isDecimal) :
    arithmetic digits a b
      = some (decimal (digits d e).1 (min (digits d e).2 (Int8.ofNat (digits d e).1.toNat))) := by
  cases a <;> cases b <;> simp [isDecimal] at h <;> cases ha <;> cases hb <;> rfl

/-- A type derived from digits that keep to their range holds every number that those digits hold. -/
theorem hasValue_derived {p : UInt8} {s : Int8} (hp : p.toNat ≤ 38) (hs : s.toInt ≤ p.toNat)
    (h : Representable p.toNat s.toInt v) : (decimal p (min s (Int8.ofNat p.toNat))).HasValue v := by
  have hmin : (min s (Int8.ofNat p.toNat)).toInt = s.toInt := by
    rw [toInt_min8,toInt_limited hp]
    exact min_eq_left hs
  rw [HasValue,hmin]
  exact h

theorem additive_holds (ha : a.exactDigits = some d) (hb : b.exactDigits = some e)
    (h : a.isDecimal || b.isDecimal) (hd : InRange d) (he : InRange e) (hroom : sumPrecision d e ≤ 38) :
    ∃ t, additive a b = some t ∧
      ∀ v w, a.HasValue v → b.HasValue w → t.HasValue (v+w) ∧ t.HasValue (v-w) := by
  obtain ⟨hd,hd'⟩ := hd
  obtain ⟨he,he'⟩ := he
  have hscale := sumDigits_scale d e
  have hmost := (clamps_sumDigits d e).2
  have hprecision : ((sumDigits d e).1.toNat : ℤ)
      = max (d.1.toNat-d.2.toInt) (e.1.toNat-e.2.toInt)+max d.2.toInt e.2.toInt+1 := by
    rw [sumPrecision] at hroom
    rw [sumDigits_precision,clamped,sumPrecision]
    omega
  have hle : (sumDigits d e).2.toInt ≤ (sumDigits d e).1.toNat := by omega
  refine ⟨_,arithmetic_exact sumDigits ha hb h,fun v w hv hw => ?_⟩
  -- Nothing is cut off, so both operands fit into what is left without the carry.
  have hv := (hv.representable ha).widen (q := (sumDigits d e).1.toNat-1)
    (t := (sumDigits d e).2.toInt) (by omega) (by omega)
  have hw := (hw.representable hb).widen (q := (sumDigits d e).1.toNat-1)
    (t := (sumDigits d e).2.toInt) (by omega) (by omega)
  have hadd := hv.add hw
  have hsub := hv.add hw.neg
  rw [sub_add_cancel] at hadd hsub
  rw [← sub_eq_add_neg] at hsub
  exact ⟨hasValue_derived hmost hle hadd,hasValue_derived hmost hle hsub⟩

theorem multiplicative_holds (ha : a.exactDigits = some d) (hb : b.exactDigits = some e)
    (h : a.isDecimal || b.isDecimal) (hd : InRange d) (he : InRange e)
    (hroom : productPrecision d e ≤ 38) :
    ∃ t, multiplicative a b = some t ∧ ∀ v w, a.HasValue v → b.HasValue w → t.HasValue (v*w) := by
  obtain ⟨hd,hd'⟩ := hd
  obtain ⟨he,he'⟩ := he
  have hprecision := productDigits_precision d e
  have hscale := productDigits_scale d e
  have hmost := (clamps_productDigits d e).2
  rw [clamped] at hprecision
  rw [productPrecision] at hroom hprecision
  refine ⟨_,arithmetic_exact productDigits ha hb h,fun v w hv hw => ?_⟩
  have hmul := ((hv.representable ha).mul (hw.representable hb)).widen
    (q := (productDigits d e).1.toNat) (t := (productDigits d e).2.toInt) (by omega) (by omega)
  exact hasValue_derived hmost (by omega) hmul

/-- Types derived without cutting off digits hold all sums, differences and products of the values of
their operands. -/
theorem arithmetic_holds (ha : a.exactDigits = some d) (hb : b.exactDigits = some e)
    (h : a.isDecimal || b.isDecimal) (hd : InRange d) (he : InRange e) :
    (sumPrecision d e ≤ 38 → ∃ t, additive a b = some t ∧
      ∀ v w, a.HasValue v → b.HasValue w → t.HasValue (v+w) ∧ t.HasValue (v-w)) ∧
    (productPrecision d e ≤ 38 → ∃ t, multiplicative a b = some t ∧
      ∀ v w, a.HasValue v → b.HasValue w → t.HasValue (v*w)) :=
  ⟨additive_holds ha hb h hd he,multiplicative_holds ha hb h hd he⟩

/-- The greatest values of DECIMAL(12, 2) and of INTEGER have a sum that needs the carry. -/
theorem arithmetic_holds_greatest :
    (∃ t, additive (decimal 12 2) integer = some t ∧ t.HasValue (9999999999.99+2147483647) ∧
      t.HasValue (9999999999.99-2147483647)) ∧
    ∃ t, multiplicative (decimal 12 2) integer = some t ∧ t.HasValue (9999999999.99*2147483647) := by
  have hprecision : (12 : UInt8).toNat = 12 := rfl
  have hscale : (2 : Int8).toInt = 2 := rfl
  have hv : (decimal 12 2).HasValue 9999999999.99 := by
    refine ⟨⟨999999999999,?_⟩,?_⟩
    · norm_num [hscale]
    · norm_num [hprecision,hscale]
  have hw : integer.HasValue 2147483647 := ⟨2147483647,rfl⟩
  obtain ⟨hsum,hproduct⟩ := arithmetic_holds (a := decimal 12 2) (b := integer) rfl rfl rfl
    ⟨by decide,by decide⟩ ⟨by decide,by decide⟩
  obtain ⟨t,ht,hsum⟩ := hsum (by decide)
  obtain ⟨u,hu,hproduct⟩ := hproduct (by decide)
  exact ⟨⟨t,ht,hsum _ _ hv hw⟩,u,hu,hproduct _ _ hv hw⟩

end QueryPlan.SqlType
