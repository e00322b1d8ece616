import QueryPlan.Binding.CastTarget
import QueryPlan.Proofs.Except
import QueryPlan.Proofs.Expr.Columns
import QueryPlan.Proofs.SqlType.Values
import QueryPlan.Relation.Aggregate

/-! # Legal types

A DECIMAL is legal with one to 38 digits, of which none or more stand after the point. Operators,
literals and casts make legal types out of legal ones. -/
namespace QueryPlan

namespace SqlType

def Legal : SqlType → Prop
  | decimal precision scale =>
    1 ≤ precision.toNat ∧ precision.toNat ≤ 38 ∧ 0 ≤ scale.toInt ∧ scale.toInt ≤ precision.toNat
  | _ => True

instance : DecidablePred Legal
  | decimal _ _ => inferInstanceAs (Decidable (_ ∧ _))
  | integer | bigInt | char _ | varchar | date | double | boolean | null => .isTrue trivial

variable {a b t : SqlType} {digits : UInt8 × Int8 → UInt8 × Int8 → UInt8 × Int8}

/-! ## Arithmetic -/

/-- Two whole numbers have no digits after the point, so their types are kept. -/
theorem arithmetic_whole {p : UInt8} {s : Int8} (ha : a.exactDigits.isSome) (hb : b.exactDigits.isSome)
    (h : (a.isDecimal || b.isDecimal) = false) : arithmetic digits a b ≠ some (decimal p s) := by
  intro hsome
  cases a <;> cases b <;> simp [isDecimal] at h <;> cases ha <;> cases hb <;> cases hsome

/-- Whatever the digits of exact operands are, the precision of a derived DECIMAL is within its range
and the scale is no longer. -/
theorem arithmetic_bounds {p : UInt8} {s : Int8} (hclamps : Clamps digits) (ha : a.exactDigits.isSome)
    (hb : b.exactDigits.isSome) (h : arithmetic digits a b = some (decimal p s)) :
    1 ≤ p.toNat ∧ p.toNat ≤ 38 ∧ s.toInt ≤ p.toNat := by
  obtain ⟨d,ha'⟩ := Option.isSome_iff_exists.1 ha
  obtain ⟨e,hb'⟩ := Option.isSome_iff_exists.1 hb
  cases hdecimal : a.isDecimal || b.isDecimal with
  | false => exact absurd h (arithmetic_whole ha hb hdecimal)
  | true =>
    rw [arithmetic_exact digits ha' hb' hdecimal] at h
    cases h
    obtain ⟨hle,hle'⟩ := hclamps d e
    refine ⟨hle,hle',?_⟩
    rw [toInt_min8,toInt_limited hle']
    exact min_le_right _ _

/-- Digits without negative scales give none. -/
def KeepsScales (digits : UInt8 × Int8 → UInt8 × Int8 → UInt8 × Int8) : Prop :=
  ∀ a b, 0 ≤ a.2.toInt → 0 ≤ b.2.toInt → 0 ≤ (digits a b).2.toInt

theorem keepsScales_sumDigits : KeepsScales sumDigits := by
  intro a b ha hb
  rw [sumDigits_scale]
  exact le_max_of_le_left ha

theorem keepsScales_productDigits : KeepsScales productDigits := by
  intro a b ha hb
  rw [productDigits_scale]
  omega

theorem keepsScales_quotientDigits : KeepsScales quotientDigits := by
  intro a b ha hb
  rw [quotientDigits_scale,quotientScale]
  omega

theorem Legal.scale_nonneg {d : UInt8 × Int8} (h : a.Legal) (hd : a.exactDigits = some d) :
    0 ≤ d.2.toInt := by
  cases a <;> cases hd
  · decide
  · decide
  · exact h.2.2.1

/-- The type of one side is kept, or both sides are exact and digits decide. -/
theorem arithmetic_cases (h : arithmetic digits a b = some t) : t = a ∨ t = b ∨
    ∃ d e, a.exactDigits = some d ∧ b.exactDigits = some e ∧
      t = decimal (digits d e).1 (min (digits d e).2 (Int8.ofNat (digits d e).1.toNat)) := by
  unfold SqlType.arithmetic at h
  split at h
  · cases h
  · cases a <;> cases b <;> simp [exactDigits] at h <;> subst h <;> simp [exactDigits]

theorem Legal.arithmetic (hclamps : Clamps digits) (hscales : KeepsScales digits) (ha : a.Legal)
    (hb : b.Legal) (h : arithmetic digits a b = some t) : t.Legal := by
  obtain rfl|rfl|⟨d,e,hd,he,rfl⟩ := arithmetic_cases h
  · exact ha
  · exact hb
  · obtain ⟨hle,hle'⟩ := hclamps d e
    have hscale := hscales d e (ha.scale_nonneg hd) (hb.scale_nonneg he)
    rw [Legal,toInt_min8,toInt_limited hle']
    omega

theorem Legal.additive (ha : a.Legal) (hb : b.Legal) (h : additive a b = some t) : t.Legal :=
  ha.arithmetic clamps_sumDigits keepsScales_sumDigits hb h

theorem Legal.multiplicative (ha : a.Legal) (hb : b.Legal) (h : multiplicative a b = some t) :
    t.Legal :=
  ha.arithmetic clamps_productDigits keepsScales_productDigits hb h

theorem Legal.divisive (ha : a.Legal) (hb : b.Legal) (h : divisive a b = some t) : t.Legal :=
  ha.arithmetic clamps_quotientDigits keepsScales_quotientDigits hb h

end SqlType

/-! ## Operators and functions -/

section
variable {types : List SqlType} {t : SqlType}

theorem Operator.legal_resultType {op : Operator} (htypes : ∀ s ∈ types, s.Legal)
    (h : op.resultType? types = some t) : t.Legal := by
  have hboolean {p : Prop} [Decidable p] (h : (if p then some SqlType.boolean else none) = some t) :
      t.Legal := by
    obtain ⟨-,h⟩ := Option.ite_none_right_eq_some.1 h
    cases h
    trivial
  unfold resultType? at h
  split at h
  all_goals try simp only [List.forall_mem_cons] at htypes
  case h_4 =>
    split at h
    · cases h
      exact htypes.1
    · cases h
  case h_7 | h_8 => exact htypes.1.additive htypes.2.1 h
  case h_9 => exact htypes.1.multiplicative htypes.2.1 h
  case h_10 | h_11 => exact htypes.1.divisive htypes.2.1 h
  case h_5 | h_6 =>
    cases h
    trivial
  case h_14 => cases h
  all_goals exact hboolean h

theorem AggregateFunction.legal_resultType {f : AggregateFunction} {type : Option SqlType}
    (h : ∀ s, type = some s → s.Legal) : (f.resultType type).Legal := by
  cases type with
  | none => cases f <;> trivial
  | some s => cases f <;> first | trivial | exact h s rfl

end

/-! ## Literals -/

namespace Literal

/-- The digits of a text. -/
def digitCount (cs : List Char) : Nat := (cs.filter Char.isDigit).length

/-- The digits behind the first point. -/
def fraction (cs : List Char) : List Char := (cs.dropWhile (· != '.')).drop 1

theorem decimalType_eq (text : String) : decimalType text =
    .decimal (UInt8.ofNat (max (digitCount text.toList) 1))
      (Int8.ofNat (min (digitCount (fraction text.toList)) (max (digitCount text.toList) 1))) := rfl

theorem legal_decimalType {text : String} (h : digitCount text.toList ≤ 38) :
    (decimalType text).Legal := by
  obtain ⟨n,hn⟩ : ∃ n, n = max (digitCount text.toList) 1 := ⟨_,rfl⟩
  rw [decimalType_eq,← hn,SqlType.Legal,UInt8.toNat_ofNat_of_lt' (by rw [UInt8.size]; omega),
    Int8.toInt_ofNat_of_lt (by omega)]
  omega

/-- A sign has no part in the type of a number. -/
theorem decimalType_negateText (text : String) : decimalType (negateText text) = decimalType text := by
  have hsign (cs : List Char) : digitCount ('-' :: cs) = digitCount cs ∧ fraction ('-' :: cs) = fraction cs :=
    ⟨rfl,rfl⟩
  rw [decimalType_eq,decimalType_eq,negateText]
  split
  · rename_i cs heq
    rw [String.toList_ofList,heq,(hsign cs).1,(hsign cs).2]
  · rw [String.toList_ofList,(hsign _).1,(hsign _).2]

theorem legal_integer (v : Int64) : (integer v).type.Legal := by
  rw [type]
  split <;> trivial

/-- A number token is approximate, exact as it is written and of 38 digits at most, or a whole
number. -/
theorem ofNumber_eq_ok {text : String} {v : Literal} (h : ofNumber text = .ok v) :
    v = .double text ∨ (v = .decimal text ∧ digitCount text.toList ≤ 38) ∨
      ∃ w, wholeNumber? text.toList = some w ∧ v = .integer w := by
  have hexact {e : QueryError} (h : (if SqlType.maxPrecision.toNat < digitCount text.toList then
      .error e else .ok (decimal text)) = Except.ok v) :
      v = .decimal text ∧ digitCount text.toList ≤ 38 := by
    split at h
    · cases h
    · rename_i hle
      cases h
      exact ⟨rfl,Nat.le_of_not_lt hle⟩
  unfold ofNumber at h
  dsimp only at h
  split at h
  · cases h
    exact .inl rfl
  · split at h
    · exact .inr (.inl (hexact h))
    · split at h
      · rename_i w hw
        cases h
        exact .inr (.inr ⟨w,hw,rfl⟩)
      · exact .inr (.inl (hexact h))

theorem ofNumber_legal {text : String} {v : Literal} (h : ofNumber text = .ok v) : v.type.Legal := by
  rcases ofNumber_eq_ok h with rfl|⟨rfl,hdigits⟩|⟨w,-,rfl⟩
  · trivial
  · exact legal_decimalType hdigits
  · exact legal_integer w

theorem negate?_legal {v w : Literal} (hv : v.type.Legal) (h : v.negate? = some w) : w.type.Legal := by
  unfold negate? at h
  split at h
  · split at h
    · cases h
    · cases h
      exact legal_integer _
  · cases h
    rwa [type,decimalType_negateText]
  · cases h
    trivial
  · cases h

end Literal

/-! ## Casts -/

namespace Sql.DataType

theorem decimalTarget_legal {precision scale : Nat} {t : SqlType}
    (h : decimalTarget precision scale = .ok t) : t.Legal := by
  have hmax : SqlType.maxPrecision.toNat = 38 := rfl
  unfold decimalTarget at h
  split at h
  · cases h
  · rename_i hshape
    cases h
    simp only [Bool.or_eq_true,decide_eq_true_eq,not_or,not_lt,hmax] at hshape
    obtain ⟨⟨hpos,hle⟩,hscale⟩ := hshape
    rw [SqlType.Legal,UInt8.toNat_ofNat_of_lt' (by rw [UInt8.size]; omega),
      Int8.toInt_ofNat_of_lt (by omega)]
    omega

theorem target_legal {type : DataType} {t : SqlType} (h : type.target = .ok t) : t.Legal := by
  unfold target at h
  split at h
  case h_3 | h_4 | h_5 => exact decimalTarget_legal h
  all_goals
    cases h
    try trivial

end Sql.DataType
end QueryPlan
