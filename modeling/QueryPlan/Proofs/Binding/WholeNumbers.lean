import QueryPlan.Proofs.Binding.GroupedMeaning
import QueryPlan.Proofs.EnginePlan.Readers
import QueryPlan.Proofs.SqlType.Legal

/-! # Whole numbers are bound exactly

The digits of a number are read before its sign is put to them. Where the digits fit 64 bits the sign
does, too, so a number becomes the integer that it spells. The digits of the least 64-bit integer do not
fit: with their sign they make the same number, but a decimal. -/
namespace QueryPlan

/-- The expression that spells a whole number: its digits, behind a minus sign where it is negative. -/
def Sql.Expr.wholeNumber (v : Int) : Sql.Expr :=
  let digits := .value (.number (toString v.natAbs) false)
  if v < 0 then .unary .minus digits else digits

theorem Sql.Expr.text_wholeNumber (v : Int) : (wholeNumber v).text = toString v := by
  unfold wholeNumber
  dsimp only
  rw [Int.toString_eq_repr,Int.repr_eq_if]
  split
  · rename_i hneg
    rw [if_neg (by omega)]
    have habs : v.natAbs = (-v).toNat := by omega
    rw [habs]
    rfl
  · rename_i hpos
    rw [if_pos (by omega)]
    have habs : v.natAbs = v.toNat := by omega
    rw [habs]
    rfl

namespace Literal

open EnginePlan.Reading (isDigit_of_mem_digits digits_cons digitsValue?_digits wholeNumber?_of_isDigit)

/-! ## Digits -/

theorem toInt_of_fit64? {v : Int} {w : Int64} (h : fit64? v = some w) : w.toInt = v := by
  unfold fit64? at h
  split at h
  · rename_i hfits
    simp only [Bool.and_eq_true,decide_eq_true_eq] at hfits
    cases h
    exact Int64.toInt_ofInt_of_le (by omega) (by omega)
  · cases h

/-- A text without a minus sign reads as no negative number. -/
theorem wholeNumber?_nonneg {cs : List Char} {w : Int64} (h : wholeNumber? cs = some w)
    (hsign : cs.head? ≠ some '-') : 0 ≤ w.toInt := by
  have hread {ds : List Char} (h : (do fit64? (← digitsValue? ds)) = some w) : 0 ≤ w.toInt := by
    obtain ⟨n,-,hn⟩ := Option.bind_eq_some_iff.1 h
    rw [toInt_of_fit64? hn]
    exact Int.natCast_nonneg n
  unfold wholeNumber? at h
  split at h
  · exact hread h
  · exact absurd rfl hsign
  · exact hread h

/-- Digits that fit 64 bits are read as the number that they spell. -/
theorem ofNumber_digits {n : Nat} (h : n < 2^63) :
    ofNumber (toString n) = .ok (.integer (Int64.ofInt n)) := by
  obtain ⟨d,ds,hd,hdigit⟩ := digits_cons n
  have hfits : fit64? n = some (Int64.ofInt n) := by
    simp only [fit64?]
    rw [if_pos]
    simp only [Bool.and_eq_true,decide_eq_true_eq]
    omega
  have hread : wholeNumber? (Nat.toDigits 10 n) = some (Int64.ofInt n) := by
    rw [hd,wholeNumber?_of_isDigit hdigit,← hd,digitsValue?_digits,Option.bind_some,hfits]
  have hnone (c : Char) (hc : c.isDigit = false) : c ∉ Nat.toDigits 10 n := fun hmem => by
    rw [isDigit_of_mem_digits hmem] at hc
    cases hc
  have hexponent : (Nat.toDigits 10 n).any (fun c => c == 'e' || c == 'E') = false := by
    rw [List.any_eq_false]
    intro c hc
    have he : c ≠ 'e' := fun he => hnone 'e' rfl (he ▸ hc)
    have hE : c ≠ 'E' := fun hE => hnone 'E' rfl (hE ▸ hc)
    simp [he,hE]
  have hpoint : (Nat.toDigits 10 n).contains '.' = false := by
    simpa using hnone '.' rfl
  unfold ofNumber
  rw [Nat.toString_eq_repr,Nat.toList_repr]
  simp only [hexponent,hpoint,hread,Bool.false_eq_true,if_false]

/-! ## Signs -/

theorem negate?_integer {v : Int} (hlow : -2^63 < v) (hhigh : v < 2^63) :
    (integer (Int64.ofInt v)).negate? = some (.integer (Int64.ofInt (-v))) := by
  have hleast : Int64.ofInt v ≠ Int64.minValue := by
    intro h
    have := congrArg Int64.toInt h
    rw [Int64.toInt_ofInt_of_le (by omega) hhigh,Int64.toInt_minValue] at this
    omega
  rw [negate?,beq_eq_false_iff_ne.2 hleast,Int64.neg_ofInt]
  rfl

theorem type_integer {v : Int} (hlow : -2^63 ≤ v) (hhigh : v < 2^63) :
    (integer (Int64.ofInt v)).type = if -2^31 ≤ v ∧ v < 2^31 then .integer else .bigInt := by
  rw [type,Int64.toInt_ofInt_of_le hlow hhigh]
  refine if_congr ?_ rfl rfl
  simp only [Bool.and_eq_true,decide_eq_true_eq]
  omega

theorem toList_negateText (text : String) : (negateText text).toList =
    if text.toList.head? = some '-' then text.toList.tail else '-' :: text.toList := by
  unfold negateText
  split
  case h_1 cs heq => simp [heq]
  case h_2 h =>
    rw [if_neg,String.toList_ofList]
    intro hhead
    obtain ⟨cs,hcs⟩ := List.head?_eq_some_iff.1 hhead
    exact h cs hcs

theorem negateText_negateText {text : String} (hsign : text.toList.head? ≠ some '-') :
    negateText (negateText text) = text := by
  refine String.toList_injective ?_
  rw [toList_negateText,toList_negateText,if_neg hsign]
  rfl

/-- The sign of a token that is written without one can be turned twice. Turned once it leaves the type,
save that the least INTEGER is the negation of a BIGINT. -/
theorem negate?_negate? {text : String} {v : Literal} (h : ofNumber text = .ok v)
    (hsign : text.toList.head? ≠ some '-') : ∃ w, v.negate? = some w ∧ w.negate? = some v ∧
      (w.type = v.type ∨ v = .integer 2147483648) := by
  rcases ofNumber_eq_ok h with rfl|⟨rfl,-⟩|⟨k,hk,rfl⟩
  · exact ⟨_,rfl,congrArg (some ∘ double) (negateText_negateText hsign),.inl rfl⟩
  · exact ⟨_,rfl,congrArg (some ∘ decimal) (negateText_negateText hsign),
      .inl (decimalType_negateText text)⟩
  · -- Without a sign the integer is not the least one, the only one that has no negation.
    have hlow := wholeNumber?_nonneg hk hsign
    have hhigh := k.toInt_lt
    rw [← Int64.ofInt_toInt k]
    generalize k.toInt = v at hlow hhigh
    refine ⟨_,negate?_integer (by omega) hhigh,?_,?_⟩
    · rw [negate?_integer (by omega) (by omega),Int.neg_neg]
    · by_cases hv : v = 2147483648
      · exact .inr (hv ▸ rfl)
      · refine .inl ?_
        rw [type_integer (by omega) (by omega),type_integer (by omega) hhigh]
        exact if_congr (by omega) rfl rfl

end Literal

namespace Binding

variable {n : Names} {clause : Clause}

/-- An expression is bound to a literal: over the rows of the FROM clause, and over those of an
aggregate unless the literal is one of the group keys. -/
def BindsLiteral (n : Names) (clause : Clause) (e : Sql.Expr) (v : Literal) : Prop :=
  expr n clause e = .ok (.literal v) ∧ ∀ keys g, (groupedExpr n keys clause e).run g =
    .ok (match keys.idxOf? (.literal v) with
      | some i => .column i v.type
      | none => .literal v,g)

theorem bindsLiteral_of_expr {e : Sql.Expr} {v : Literal} (hagg : e.hasAggregate = false)
    (h : expr n clause e = .ok (.literal v)) : BindsLiteral n clause e v := by
  refine ⟨h,fun keys g => ?_⟩
  cases hkey : keys.idxOf? (.literal v) with
  | some i =>
    refine gatheringEnds.exprWith.2 ⟨g,some _,(to_groupedWhole hagg).2 ⟨_,h,rfl,?_⟩,rfl,rfl⟩
    rw [hkey]
    rfl
  | none =>
    refine gatheringEnds.exprWith.2 ⟨g,some _,(to_groupedWhole hagg).2 ⟨_,h,rfl,?_⟩,rfl,rfl⟩
    rw [hkey]
    rfl

theorem hasAggregate_wholeNumber (v : Int) : (Sql.Expr.wholeNumber v).hasAggregate = false := by
  unfold Sql.Expr.wholeNumber
  dsimp only
  split <;> rfl

/-- The digits of a number are bound as the token that they are, and the sign is put to them then. -/
theorem expr_wholeNumber {v : Int} {digits : Literal} {e : Expr}
    (h : Literal.ofNumber (toString v.natAbs) = .ok digits)
    (he : (if v < 0 then negated (.literal digits) else .ok (.literal digits)) = .ok e) :
    expr n clause (.wholeNumber v) = .ok e := by
  have hvalue : value (.number (toString v.natAbs) false) = .ok (.literal digits) := by
    rw [value,h]
    rfl
  have hdigits : expr n clause (.value (.number (toString v.natAbs) false)) = .ok (.literal digits) :=
    expr_eq_ok_iff.2 ⟨[],.nil,hvalue⟩
  unfold Sql.Expr.wholeNumber
  split at he
  · rename_i hneg
    rw [if_pos hneg]
    exact expr_eq_ok_iff.2 ⟨[.literal digits],.cons hdigits .nil,he⟩
  · rename_i hneg
    cases he
    rwa [if_neg hneg]

/-- A number that fits 64 bits without its sign is bound to the integer that it is. -/
theorem expr_integer {v : Int} (hlow : -2^63 < v) (hhigh : v < 2^63) :
    expr n clause (.wholeNumber v) = .ok (.literal (.integer (Int64.ofInt v))) := by
  refine expr_wholeNumber (Literal.ofNumber_digits (by omega)) ?_
  split
  · have habs : (v.natAbs : Int) = -v := by omega
    rw [negated,Literal.negate?_integer (by omega) (by omega),habs,Int.neg_neg]
  · have habs : (v.natAbs : Int) = v := by omega
    rw [habs]

/-- The digits of the least 64-bit integer make a decimal, and stay one behind the sign. -/
theorem expr_least : expr n clause (.wholeNumber (-2^63))
    = .ok (.literal (.decimal "-9223372036854775808")) := by
  have hdigits : Literal.ofNumber (toString (-2^63 : Int).natAbs)
      = .ok (.decimal "9223372036854775808") := by rfl
  exact expr_wholeNumber hdigits rfl

/-- Whole numbers are bound exactly. Every number whose digits fit 64 bits is bound to the integer that it
spells, INTEGER where that fits 32 bits and BIGINT elsewhere. The digits of the least 64-bit integer do
not fit, so this one number is bound to a decimal of nineteen digits. A number token keeps its value
and its type where its sign is turned twice. -/
theorem literals_exact (n : Names) (clause : Clause) :
    (∀ v : Int, (Sql.Expr.wholeNumber v).text = toString v ∧
      (-2^63 < v → v < 2^63 →
        BindsLiteral n clause (.wholeNumber v) (.integer (Int64.ofInt v)) ∧
        (Int64.ofInt v).toInt = v ∧
        (Literal.integer (Int64.ofInt v)).type = if -2^31 ≤ v ∧ v < 2^31 then .integer else .bigInt)) ∧
    (BindsLiteral n clause (.wholeNumber (-2^63)) (.decimal "-9223372036854775808") ∧
      (Literal.decimal "-9223372036854775808").type = .decimal 19 0) ∧
    ∀ text v, Literal.ofNumber text = .ok v → text.toList.head? ≠ some '-' →
      ∃ w, v.negate? = some w ∧ w.negate? = some v ∧
        (w.type = v.type ∨ v = .integer 2147483648) := by
  refine ⟨fun v => ⟨Sql.Expr.text_wholeNumber v,fun hlow hhigh => ⟨?_,?_,?_⟩⟩,⟨?_,?_⟩,?_⟩
  · exact bindsLiteral_of_expr (hasAggregate_wholeNumber v) (expr_integer hlow hhigh)
  · exact Int64.toInt_ofInt_of_le (by omega) hhigh
  · exact Literal.type_integer (by omega) hhigh
  · exact bindsLiteral_of_expr (hasAggregate_wholeNumber _) expr_least
  · decide +kernel
  · exact fun text v h hsign => Literal.negate?_negate? h hsign

theorem literals_exact_leastNegated :
    BindsLiteral ⟨⟨[],[]⟩,true⟩ .select (.wholeNumber (-9223372036854775807))
      (.integer (-9223372036854775807)) ∧
    (Literal.integer (-9223372036854775807)).type = .bigInt ∧
    Literal.ofNumber "2147483648" = .ok (.integer 2147483648) ∧
    ∃ w, (Literal.integer 2147483648).negate? = some w ∧
      w.negate? = some (.integer 2147483648) := by
  obtain ⟨hexact,-,htwice⟩ := literals_exact ⟨⟨[],[]⟩,true⟩ .select
  obtain ⟨hbound,-,htype⟩ := (hexact (-9223372036854775807)).2 (by omega) (by omega)
  have hnumber : Literal.ofNumber "2147483648" = .ok (.integer 2147483648) := by rfl
  obtain ⟨w,hw,hback,-⟩ := htwice "2147483648" _ hnumber (by decide)
  exact ⟨hbound,htype.trans (if_neg (by omega)),hnumber,w,hw,hback⟩

/-- The least 64-bit integer is not bound to an integer. -/
theorem leastInteger_decimal : ¬ ∀ (n : Names) (clause : Clause) (v : Int), -2^63 ≤ v → v < 2^63 →
    expr n clause (.wholeNumber v) = .ok (.literal (.integer (Int64.ofInt v))) := by
  intro h
  have hleast := h ⟨⟨[],[]⟩,true⟩ .select (-2^63) (by omega) (by omega)
  rw [expr_least] at hleast
  cases hleast

end Binding
end QueryPlan
