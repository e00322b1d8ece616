import QueryPlan.Proofs.EnginePlan.Literals

/-! # Expressions are read back -/
namespace QueryPlan

/-- All literals of an expression are spelled as numbers and dates are. -/
def Expr.Spelled (e : Expr) : Prop := e.Everywhere fun
  | .literal v => v.Spelled
  | _ => True

namespace Expr

variable {op : Operator} {args : List Expr} {t : SqlType}

@[simp] theorem spelled_column {i : Nat} : (column i t).Spelled := by simp [Spelled]

@[simp] theorem spelled_literal {v : Literal} : (literal v).Spelled ↔ v.Spelled := by simp [Spelled]

@[simp] theorem spelled_call : (call op args t).Spelled ↔ ∀ e ∈ args, e.Spelled := by simp [Spelled]

/-- An expression over a row of the given types, with calls of the types that their operands give
them. Its text tells it apart from all others of this kind. -/
structure Readable (types : List SqlType) (e : Expr) : Prop where
  fits : e.Fits types
  typed : e.Typed
  spelled : e.Spelled

theorem Readable.operand {types : List SqlType} (h : (call op args t).Readable types) {e : Expr}
    (he : e ∈ args) : e.Readable types :=
  ⟨fits_call.1 h.fits e he,(typed_call.1 h.typed).2 e he,spelled_call.1 h.spelled e he⟩

theorem toList_textAll (es : List Expr) :
    (textAll es).toList = ", ".toList.intercalate (es.map fun e => e.text.toList) := by
  induction es with
  | nil => simp [textAll]
  | cons e es ih => cases es <;> simp_all [textAll]

end Expr

namespace EnginePlan.Reading

open Literal (inNumber)

/-! ## Types -/

theorem type_plain {t : SqlType} (hw : ∀ c ∈ t.text.toList, endsWord c = false)
    (ht : plainTypes.find? (·.text.toList = t.text.toList) = some t) :
    Recovers type endsExpr t.text.toList t := by
  intro rest hrest
  obtain ⟨hword,hbehind⟩ := word_recovers hw hrest
  simp only [type,hword,hbehind,ht]

theorem type_char (width : UInt32) (rest : List Char) :
    type ((SqlType.char width).text.toList ++ rest) = some (.char width,rest) := by
  have htext : (SqlType.char width).text.toList ++ rest =
      "CHAR".toList ++ '(' :: (Nat.toDigits 10 width.toNat ++ ')' :: rest) := by
    simp [SqlType.text]
  obtain ⟨hword,hbehind⟩ := word_parameters (w := "CHAR".toList) (by simp [endsWord])
    (Nat.toDigits 10 width.toNat ++ ')' :: rest)
  have hplain : plainTypes.find? (·.text.toList = "CHAR".toList) = none := by decide
  rw [htext]
  simp only [type,hword,hbehind,hplain]
  simp [number_append]

theorem type_decimal (precision : UInt8) (scale : Int8) (rest : List Char) :
    type ((SqlType.decimal precision scale).text.toList ++ rest) =
      some (.decimal precision scale,rest) := by
  have htext : (SqlType.decimal precision scale).text.toList ++ rest = "DECIMAL".toList ++ '(' ::
      (Nat.toDigits 10 precision.toNat ++ ',' :: ' ' :: (scale.toInt.repr.toList ++ ')' :: rest)) := by
    simp [SqlType.text]
  obtain ⟨hword,hbehind⟩ := word_parameters (w := "DECIMAL".toList) (by simp [endsWord])
    (Nat.toDigits 10 precision.toNat ++ ',' :: ' ' :: (scale.toInt.repr.toList ++ ')' :: rest))
  have hplain : plainTypes.find? (·.text.toList = "DECIMAL".toList) = none := by decide
  obtain ⟨hscale,hclose⟩ : word (scale.toInt.repr.toList ++ ')' :: rest) = scale.toInt.repr.toList ∧
      behindWord (scale.toInt.repr.toList ++ ')' :: rest) = ')' :: rest :=
    word_recovers (fun c hc => endsWord_of_inNumber (inNumber_of_mem_intRepr hc)) (by simp [endsExpr])
  have hlow := scale.le_toInt
  have hhigh := scale.toInt_lt
  have hvalue : Literal.wholeNumber? scale.toInt.repr.toList = some (Int64.ofInt scale.toInt) :=
    wholeNumber?_intRepr (by omega) (by omega)
  rw [htext]
  simp only [type,hword,hbehind,hplain]
  simp [number_append,hscale,hclose,hvalue]

theorem type_recovers (t : SqlType) : Recovers type endsExpr t.text.toList t := by
  cases t with
  | integer => exact type_plain (by simp [SqlType.text,endsWord]) (by decide)
  | bigInt => exact type_plain (by simp [SqlType.text,endsWord]) (by decide)
  | varchar => exact type_plain (by simp [SqlType.text,endsWord]) (by decide)
  | date => exact type_plain (by simp [SqlType.text,endsWord]) (by decide)
  | double => exact type_plain (by simp [SqlType.text,endsWord]) (by decide)
  | boolean => exact type_plain (by simp [SqlType.text,endsWord]) (by decide)
  | null => exact type_plain (by simp [SqlType.text,endsWord]) (by decide)
  | char width => exact fun rest _ => type_char width rest
  | decimal precision scale => exact fun rest _ => type_decimal precision scale rest

/-! ## Columns and literals -/

theorem atom?_literal {types : List SqlType} {cs : List Char} {v : Literal}
    (hcs : ∀ c ∈ cs, c ≠ '$') (hv : plainLiteral? cs = some v) : atom? types cs = some (.literal v) := by
  unfold atom?
  split
  · simp at hcs
  · simp [hv]

/-- A word that stands for a column or a literal is read to its end. -/
theorem expr_word {types : List SqlType} {n : Nat} {w : List Char} {e : Expr}
    (hw : ∀ c ∈ w, endsWord c = false) (he : atom? types w = some e) :
    Recovers (expr types (n+1)) endsExpr w e := by
  intro rest hrest
  obtain ⟨hword,hbehind⟩ := word_recovers hw hrest
  simp only [expr,hword,hbehind]
  cases rest with
  | nil => simp [he]
  | cons c rest =>
    have hc : endsExpr c := hrest c (by simp)
    simp only [endsExpr,List.mem_cons,List.not_mem_nil,or_false] at hc
    rcases hc with rfl | rfl | rfl | rfl <;> simp [he]

/-- No expression begins with a character that closes a list. -/
theorem expr_fails {types : List SqlType} {n : Nat} {c : Char} (hc : c ∈ [')',']'])
    (rest : List Char) : expr types n (c :: rest) = none := by
  cases n with
  | zero => rfl
  | succ n =>
    simp only [List.mem_cons,List.not_mem_nil,or_false] at hc
    rcases hc with rfl | rfl <;>
      simp [expr,word,behindWord,endsWord,atom?,plainLiteral?,Literal.wholeNumber?,Literal.digitsValue?]

theorem expr_column {types : List SqlType} {n i : Nat} {t : SqlType} (ht : types[i]? = some t) :
    Recovers (expr types (n+1)) endsExpr (Expr.column i t).text.toList (.column i t) := by
  have htext : (Expr.column i t).text.toList = '$' :: Nat.toDigits 10 i := by simp [Expr.text]
  rw [htext]
  refine expr_word ?_ (by simp [atom?,ht])
  intro c hc
  obtain rfl | hc := List.mem_cons.1 hc
  · rfl
  · exact endsWord_of_inNumber (inNumber_of_mem_digits hc)

theorem expr_plainNumber {types : List SqlType} {n : Nat} {cs : List Char} {v : Literal}
    (hcs : ∀ c ∈ cs, inNumber c) (hv : plainLiteral? cs = some v) :
    Recovers (expr types (n+1)) endsExpr cs (.literal v) := by
  refine expr_word (fun c hc => endsWord_of_inNumber (hcs c hc)) (atom?_literal ?_ hv)
  rintro c hc rfl
  exact absurd (hcs _ hc) (by decide)

theorem expr_typedNumber (types : List SqlType) (n : Nat) {text : String} {suffix : List Char}
    {v : Literal} (htext : ∀ c ∈ text.toList, inNumber c)
    (hread : ∀ rest, typedNumber text.toList (suffix ++ rest) = some (v,rest)) :
    Recovers (expr types (n+1)) endsExpr (text.toList ++ ':' :: suffix) (.literal v) := by
  intro rest _
  have hw : ∀ c ∈ text.toList, endsWord c = false := fun c hc => endsWord_of_inNumber (htext c hc)
  have hword : word (text.toList ++ ':' :: (suffix ++ rest)) = text.toList :=
    word_append hw (by simp [endsWord])
  have hbehind : behindWord (text.toList ++ ':' :: (suffix ++ rest)) = ':' :: (suffix ++ rest) :=
    behindWord_append hw (by simp [endsWord])
  rw [List.append_assoc,List.cons_append]
  simp only [expr,hword,hbehind]
  simp [hread]

theorem expr_string {types : List SqlType} {n : Nat} (value : String) :
    Recovers (expr types (n+1)) endsExpr (Literal.quoted value).toList (.literal (.string value)) := by
  intro rest hrest
  have hquote : ∀ c ∈ rest.head?, c ≠ '\'' := by
    rintro c hc rfl
    simpa [endsExpr] using hrest _ hc
  have hread := untilMark_doubled value.toList hquote
  rw [toList_quoted,List.cons_append,List.append_assoc,List.singleton_append]
  simp [expr,behindWord,endsWord,hread]

theorem expr_literal {types : List SqlType} {n : Nat} {v : Literal} (hv : v.Spelled) :
    Recovers (expr types (n+1)) endsExpr v.text.toList (.literal v) := by
  cases v with
  | integer v => exact expr_plainNumber (fun c => inNumber_of_mem_intRepr) (plainLiteral?_integer v)
  | decimal text =>
    have := expr_typedNumber types n hv (typedNumber_decimal text)
    simpa [Literal.text] using this
  | double text =>
    have := expr_typedNumber types n hv (typedNumber_double text)
    simpa [Literal.text] using this
  | string value => exact expr_string value
  | date text =>
    obtain ⟨d,rfl⟩ := hv
    exact expr_plainNumber (fun c => inNumber_of_mem_date) (plainLiteral?_date d)
  | boolean value => cases value <;> exact expr_word (by simp [Literal.text,endsWord]) rfl
  | null => exact expr_word (by simp [Literal.text,endsWord]) rfl

/-! ## Calls -/

theorem mem_operators {op : Operator} (h : op ≠ .cast) : op ∈ operators := by
  cases op <;> simp_all [operators]

/-- Names tell operators apart, but for subtraction and negation. -/
theorem eq_or_minus_of_name_eq : ∀ f ∈ operators, ∀ g ∈ operators, f.name.toList = g.name.toList →
    f = g ∨ f = .minus ∧ g = .negate ∨ f = .negate ∧ g = .minus := by
  decide

theorem length_of_negate {types : List SqlType} {t : SqlType}
    (h : Operator.negate.resultType? types = some t) : types.length = 1 := by
  unfold Operator.resultType? at h
  split at h <;> simp_all [Operator.isComparison]

theorem length_of_minus {types : List SqlType} {t : SqlType}
    (h : Operator.minus.resultType? types = some t) : types.length = 2 := by
  unfold Operator.resultType? at h
  split at h <;> simp_all

/-- Where subtraction and negation share their name, the number of operands tells them apart. -/
theorem eq_of_name_eq {f g : Operator} {types : List SqlType} {s t : SqlType} (hf : f ∈ operators)
    (hg : g ∈ operators) (hname : f.name.toList = g.name.toList)
    (hs : f.resultType? types = some s) (ht : g.resultType? types = some t) : f = g := by
  obtain h | ⟨rfl,rfl⟩ | ⟨rfl,rfl⟩ := eq_or_minus_of_name_eq f hf g hg hname
  · exact h
  · have := length_of_minus hs
    have := length_of_negate ht
    omega
  · have := length_of_minus ht
    have := length_of_negate hs
    omega

theorem call?_eq_some {op : Operator} {args : List Expr} {t : SqlType} (hop : op ≠ .cast)
    (ht : op.resultType? (args.map Expr.type) = some t) :
    call? op.name.toList args = some (.call op args t) := by
  have hmem := mem_operators hop
  cases hfound : call? op.name.toList args with
  | none =>
    have := List.findSome?_eq_none_iff.1 hfound op hmem
    simp [ht] at this
  | some e =>
    obtain ⟨g,hg,he⟩ := List.exists_of_findSome?_eq_some hfound
    by_cases hname : g.name.toList = op.name.toList
    · rw [if_pos hname] at he
      obtain ⟨s,hs,rfl⟩ := Option.map_eq_some_iff.1 he
      obtain rfl := eq_of_name_eq hg hmem hname hs ht
      cases hs.symm.trans ht
      rfl
    · simp [hname] at he

theorem endsWord_of_mem_name {op : Operator} : ∀ c ∈ op.name.toList, endsWord c = false := by
  cases op <;> simp [Operator.name,endsWord]

@[simp] theorem name_eq_cast_iff {op : Operator} :
    op.name.toList = ['C','A','S','T'] ↔ op = .cast := by
  cases op <;> decide

theorem expr_parenthesis {types : List SqlType} {n : Nat} {w : List Char}
    (hw : ∀ c ∈ w, endsWord c = false) (rest : List Char) :
    expr types (n+1) (w ++ '(' :: rest) = (do
      let (args,rest) ← listed ", ".toList (expr types n) ')' rest
      if w = "CAST".toList then
        let (t,rest) ← type (← after [':'] rest)
        return (.call .cast args t,rest)
      else return (← call? w args,rest)) := by
  obtain ⟨hword,hbehind⟩ := word_parameters hw rest
  simp only [expr,hword,hbehind]

/-- A list of expressions is read back where they are. -/
theorem listed_exprs {types : List SqlType} {n : Nat} {es : List Expr} {closing : Char}
    (hes : ∀ e ∈ es, Recovers (expr types n) endsExpr e.text.toList e) (hclosing : closing ∈ [')',']'])
    (rest : List Char) :
    listed ", ".toList (expr types n) closing ((Expr.textAll es).toList ++ closing :: rest) =
      some (es,rest) := by
  have hends : endsExpr closing ∧ closing ≠ ',' := by
    simp only [List.mem_cons,List.not_mem_nil,or_false] at hclosing
    rcases hclosing with rfl | rfl <;> simp [endsExpr]
  rw [Expr.toList_textAll]
  exact listed_append hes (by simp [endsExpr,hends.2.symm]) (by simp) hends.1 (expr_fails hclosing) rest

/-- A call is read back where its operands are. -/
theorem expr_call {types : List SqlType} {n : Nat} {op : Operator} {args : List Expr} {t : SqlType}
    (hargs : ∀ e ∈ args, Recovers (expr types n) endsExpr e.text.toList e)
    (ht : op = .cast ∨ op.resultType? (args.map Expr.type) = some t) :
    Recovers (expr types (n+1)) endsExpr (Expr.call op args t).text.toList (.call op args t) := by
  intro rest hrest
  have htext : (Expr.call op args t).text.toList ++ rest = op.name.toList ++ '(' ::
      ((Expr.textAll args).toList ++
        ')' :: ((if op = .cast then ':' :: t.text.toList else []) ++ rest)) := by
    split <;> simp_all [Expr.text]
  rw [htext,expr_parenthesis endsWord_of_mem_name,listed_exprs hargs (by simp)]
  by_cases hop : op = .cast
  · have htype := type_recovers t rest hrest
    simp [hop,htype]
  · have hcall := call?_eq_some hop (ht.resolve_left hop)
    simp [hop,hcall]

/-! ## Whole expressions -/

theorem length_text_le {es : List Expr} {e : Expr} (he : e ∈ es) :
    e.text.toList.length ≤ (Expr.textAll es).toList.length := by
  rw [Expr.toList_textAll]
  exact length_le_length_intercalate_of_mem _ (List.mem_map.2 ⟨e,he,rfl⟩)

theorem length_textAll_lt (op : Operator) (args : List Expr) (t : SqlType) :
    (Expr.textAll args).toList.length < (Expr.call op args t).text.toList.length := by
  simp [Expr.text]
  omega

/-- The text of an expression, read over the row that the expression is about, gives it back. -/
theorem expr_recovers {types : List SqlType} {e : Expr} (he : e.Readable types) {n : Nat}
    (hn : e.text.toList.length < n) : Recovers (expr types n) endsExpr e.text.toList e := by
  induction e using Expr.induct generalizing n with
  | column i t =>
    obtain _ | n := n
    · simp at hn
    exact expr_column (Expr.fits_column.1 he.fits)
  | literal v =>
    obtain _ | n := n
    · simp at hn
    exact expr_literal (Expr.spelled_literal.1 he.spelled)
  | call op args t ih =>
    obtain _ | n := n
    · simp at hn
    refine expr_call (fun arg harg => ih arg harg (he.operand harg) ?_) (Expr.typed_call.1 he.typed).1
    have := length_text_le harg
    have := length_textAll_lt op args t
    omega

/-- Over rows of one kind, expressions of one text are the same. -/
theorem eq_of_text_eq {types : List SqlType} {e e' : Expr} (he : e.Readable types)
    (he' : e'.Readable types) (htext : e.text = e'.text) : e = e' := by
  have hread := expr_recovers he (Nat.lt_succ_self _) [] (by simp)
  have hread' := expr_recovers he' (Nat.lt_succ_self _) [] (by simp)
  rw [htext,hread',Option.some.injEq,Prod.mk.injEq] at hread
  exact hread.1.symm

end EnginePlan.Reading
end QueryPlan
