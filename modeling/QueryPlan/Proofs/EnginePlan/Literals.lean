import QueryPlan.Date
import QueryPlan.Proofs.EnginePlan.Readers

/-! # Literals are read back -/
namespace QueryPlan

namespace Literal

/-- Characters of numbers and of dates. -/
def inNumber (c : Char) : Bool := c.isDigit || ['.','+','-','e','E'].contains c

/-- Numbers that keep their spelling have no other characters, and dates are those of the
calendar. -/
def Spelled : Literal → Prop
  | decimal text | double text => ∀ c ∈ text.toList, inNumber c
  | date text => ∃ d : Date, text = d.text
  | _ => True

theorem inNumber_of_isDigit {c : Char} (h : c.isDigit) : inNumber c := by simp [inNumber,h]

end Literal

namespace EnginePlan.Reading

open Literal (inNumber inNumber_of_isDigit)

/-! ## Whole numbers -/

theorem endsWord_of_inNumber {c : Char} (h : inNumber c) : endsWord c = false := by
  rw [endsWord,List.contains_eq_mem,decide_eq_false_iff_not]
  intro hmem
  simp only [List.mem_cons,List.not_mem_nil,or_false] at hmem
  rcases hmem with rfl | rfl | rfl | rfl | rfl | rfl | rfl <;> simp [inNumber] at h

theorem inNumber_of_mem_digits {n : Nat} {c : Char} (h : c ∈ Nat.toDigits 10 n) : inNumber c :=
  inNumber_of_isDigit (isDigit_of_mem_digits h)

/-- An integer is a sign or none and digits. -/
theorem toList_intRepr (v : Int) : ∃ ds, (∀ c ∈ ds, c.isDigit) ∧
    (v.repr.toList = ds ∨ v.repr.toList = '-' :: ds) := by
  rw [Int.repr_eq_if]
  split
  · exact ⟨_,fun c => isDigit_of_mem_digits,.inl Nat.toList_repr⟩
  · exact ⟨Nat.toDigits 10 (-v).toNat,fun c => isDigit_of_mem_digits,.inr (by simp)⟩

theorem inNumber_of_mem_intRepr {v : Int} {c : Char} (h : c ∈ v.repr.toList) : inNumber c := by
  obtain ⟨ds,hds,hv | hv⟩ := toList_intRepr v
  · exact inNumber_of_isDigit (hds c (hv ▸ h))
  · rw [hv,List.mem_cons] at h
    obtain rfl | h := h
    · rfl
    · exact inNumber_of_isDigit (hds c h)

theorem ne_of_not_inNumber {cs w : List Char} (hcs : ∀ c ∈ cs, inNumber c)
    (hw : ∃ c ∈ w, inNumber c = false) : cs ≠ w := by
  rintro rfl
  obtain ⟨c,hc,hnot⟩ := hw
  exact absurd (hcs c hc) (by simp [hnot])

theorem plainLiteral?_number {cs : List Char} (hcs : ∀ c ∈ cs, inNumber c) :
    plainLiteral? cs = if '-' ∈ cs.tail then some (.date (String.ofList cs))
      else (Literal.wholeNumber? cs).map .integer := by
  unfold plainLiteral?
  rw [if_neg (ne_of_not_inNumber hcs ⟨'t',by simp,rfl⟩),if_neg (ne_of_not_inNumber hcs ⟨'f',by simp,rfl⟩),
    if_neg (ne_of_not_inNumber hcs ⟨'n',by simp,rfl⟩)]

theorem plainLiteral?_integer (v : Int64) :
    plainLiteral? v.toInt.repr.toList = some (.integer v) := by
  have hdash : '-' ∉ v.toInt.repr.toList.tail := by
    obtain ⟨ds,hds,hv | hv⟩ := toList_intRepr v.toInt
    · rw [hv]
      exact fun h => absurd (hds _ (List.mem_of_mem_tail h)) (by decide)
    · rw [hv]
      exact fun h => absurd (hds _ h) (by decide)
  have hlow := v.le_toInt
  have hhigh := v.toInt_lt
  rw [plainLiteral?_number fun c => inNumber_of_mem_intRepr,if_neg hdash,
    wholeNumber?_intRepr (by omega) (by omega),Int64.ofInt_toInt,Option.map_some]

/-! ## Dates -/

theorem inNumber_of_mem_padded {width n : Nat} {c : Char} (h : c ∈ (Date.padded width n).toList) :
    inNumber c := by
  simp only [Date.padded,Nat.toString_eq_repr,String.toList_append,String.toList_ofList,
    Nat.toList_repr,List.mem_append,List.mem_replicate] at h
  obtain ⟨-,rfl⟩ | h := h
  · rfl
  · exact inNumber_of_mem_digits h

theorem inNumber_of_mem_yearText {year : Int} {c : Char} (h : c ∈ (Date.yearText year).toList) :
    inNumber c := by
  unfold Date.yearText at h
  split at h
  · rw [String.toList_append,List.mem_append] at h
    obtain h | h := h
    · obtain rfl : c = '-' := by simpa using h
      rfl
    · exact inNumber_of_mem_padded h
  · split at h
    · rw [String.toList_append,List.mem_append] at h
      obtain h | h := h
      · obtain rfl : c = '+' := by simpa using h
        rfl
      · exact inNumber_of_mem_intRepr h
    · exact inNumber_of_mem_padded h

theorem yearText_ne_nil (year : Int) : (Date.yearText year).toList ≠ [] := by
  unfold Date.yearText Date.padded
  split
  · simp
  · split <;> simp [Nat.toDigits_ne_nil]

theorem toList_dateText (d : Date) : d.text.toList = (Date.yearText d.year).toList ++
    '-' :: ((Date.padded 2 d.month).toList ++ '-' :: (Date.padded 2 d.day).toList) := by
  simp [Date.text]

theorem inNumber_of_mem_date {d : Date} {c : Char} (h : c ∈ d.text.toList) : inNumber c := by
  simp only [toList_dateText,List.mem_append,List.mem_cons] at h
  obtain h | rfl | h | rfl | h := h
  · exact inNumber_of_mem_yearText h
  · rfl
  · exact inNumber_of_mem_padded h
  · rfl
  · exact inNumber_of_mem_padded h

/-- A year is written in front of the first dash between numbers. -/
theorem dash_mem_tail_date (d : Date) : '-' ∈ d.text.toList.tail := by
  obtain ⟨y,ys,hyear⟩ := List.exists_cons_of_ne_nil (yearText_ne_nil d.year)
  simp [toList_dateText,hyear]

theorem plainLiteral?_date (d : Date) : plainLiteral? d.text.toList = some (.date d.text) := by
  rw [plainLiteral?_number fun c => inNumber_of_mem_date,if_pos (dash_mem_tail_date d),String.ofList_toList]

/-! ## Numbers with types -/

theorem typedNumber_double (text : String) (rest : List Char) :
    typedNumber text.toList ("DOUBLE".toList ++ rest) = some (.double text,rest) := by
  rw [typedNumber,after_append,String.ofList_toList]

theorem typedNumber_decimal (text : String) (rest : List Char) :
    typedNumber text.toList ((Literal.decimalType text).text.toList ++ rest) =
      some (.decimal text,rest) := by
  have hdouble : after "DOUBLE".toList ((Literal.decimalType text).text.toList ++ rest) = none := by
    simp [Literal.decimalType,SqlType.text,after]
  rw [typedNumber,hdouble,String.ofList_toList,after_append]
  rfl

/-! ## Strings -/

/-- How a character stands between quotes. -/
def doubled (c : Char) : List Char := if c == '\'' then ['\'','\''] else [c]

theorem toList_quoted (value : String) :
    (Literal.quoted value).toList = '\'' :: (value.toList.flatMap doubled ++ ['\'']) := by
  have hquoted : Literal.quoted value =
      "'" ++ String.ofList (value.toList.flatMap doubled) ++ "'" := rfl
  simp [hquoted]

/-- The value of a string is read back up to its closing quote. -/
theorem untilMark_doubled (cs : List Char) {rest : List Char} (hrest : ∀ c ∈ rest.head?, c ≠ '\'') :
    Sql.Lexer.untilMark '\'' (cs.flatMap doubled ++ '\'' :: rest) = some (cs,rest) := by
  induction cs with
  | nil =>
    cases rest with
    | nil => rfl
    | cons c rest => simp [Sql.Lexer.untilMark,hrest c (by simp)]
  | cons c cs ih =>
    rw [List.flatMap_cons,List.append_assoc]
    by_cases hc : c = '\''
    · simp [hc,doubled,Sql.Lexer.untilMark,ih]
    · obtain ⟨d,ds,hmore⟩ : ∃ d ds, cs.flatMap doubled ++ '\'' :: rest = d :: ds :=
        List.exists_cons_of_ne_nil (by simp)
      rw [hmore] at ih ⊢
      simp [hc,doubled,Sql.Lexer.untilMark,ih]

end EnginePlan.Reading
end QueryPlan
