import QueryPlan.Proofs.EnginePlan.Decoding

/-! # Values are read back

What it takes for a reader to get a value back from its text: the rest of the text must not begin so
that the value seems to go on. -/
namespace QueryPlan.EnginePlan.Reading

/-- The reader gets the value back from its text, and stops in front of any rest that is empty or
begins with an accepted character. -/
def Recovers {α : Type} (item : Reader α) (stops : Char → Prop) (text : List Char) (a : α) : Prop :=
  ∀ rest : List Char, (∀ c ∈ rest.head?, stops c) → item (text ++ rest) = some (a,rest)

/-! ## Parts of a text -/

@[simp] theorem after_append (mark rest : List Char) : after mark (mark ++ rest) = some rest := by
  simp [after,List.isPrefixOf_iff_prefix]

@[simp] theorem after_singleton (c d : Char) (rest : List Char) :
    after [c] (d :: rest) = if d = c then some rest else none := by
  by_cases h : c = d
  · simp [after,h]
  · simp [after,h,Ne.symm h]

@[simp] theorem after_singleton_nil (c : Char) : after [c] [] = none := by simp [after]

@[simp] theorem after_comma (rest : List Char) : after [',',' '] (',' :: ' ' :: rest) = some rest :=
  after_append [',',' '] rest

theorem after_eq_none {mark rest : List Char} (hne : mark ≠ []) (h : ∀ c ∈ rest.head?, c ∉ mark.head?) :
    after mark rest = none := by
  cases mark with
  | nil => exact absurd rfl hne
  | cons m mark =>
    cases rest with
    | nil => simp [after]
    | cons c rest =>
      have hc : m ≠ c := by simpa using h
      simp [after,hc]

/-- A stretch of characters of one kind ends where the rest begins with another. -/
theorem takeWhile_append_exact {p : Char → Bool} {front rest : List Char} (hfront : ∀ c ∈ front, p c)
    (hrest : ∀ c ∈ rest.head?, p c = false) : (front ++ rest).takeWhile p = front := by
  rw [List.takeWhile_append_of_pos hfront]
  cases rest with
  | nil => simp
  | cons c rest => simp [hrest c (by simp)]

theorem dropWhile_append_exact {p : Char → Bool} {front rest : List Char} (hfront : ∀ c ∈ front, p c)
    (hrest : ∀ c ∈ rest.head?, p c = false) : (front ++ rest).dropWhile p = rest := by
  rw [List.dropWhile_append_of_pos hfront]
  cases rest with
  | nil => simp
  | cons c rest => simp [hrest c (by simp)]

theorem word_append {w rest : List Char} (hw : ∀ c ∈ w, endsWord c = false)
    (hrest : ∀ c ∈ rest.head?, endsWord c) : word (w ++ rest) = w :=
  takeWhile_append_exact (by simpa using hw) (by simpa using hrest)

theorem behindWord_append {w rest : List Char} (hw : ∀ c ∈ w, endsWord c = false)
    (hrest : ∀ c ∈ rest.head?, endsWord c) : behindWord (w ++ rest) = rest :=
  dropWhile_append_exact (by simpa using hw) (by simpa using hrest)

theorem cutLast_append (front : List Char) {back : List Char} (h : ';' ∉ back) :
    cutLast (front ++ ';' :: back) = (front,back) := by
  have hback : ∀ c ∈ back.reverse, c != ';' := by
    intro c hc
    have : c ≠ ';' := fun e => h (e ▸ List.mem_reverse.1 hc)
    simpa using this
  simp only [cutLast,List.reverse_append,List.reverse_cons,List.append_assoc,List.singleton_append]
  rw [takeWhile_append_exact hback (by simp),dropWhile_append_exact hback (by simp)]
  simp

/-! ## Numbers -/

theorem isDigit_of_mem_digits {n : Nat} {c : Char} (h : c ∈ Nat.toDigits 10 n) : c.isDigit :=
  Nat.isDigit_of_mem_toDigits (by decide) (by decide) h

@[simp] theorem digitsValue?_digits (n : Nat) : Literal.digitsValue? (Nat.toDigits 10 n) = some n := by
  have hdigits : (Nat.toDigits 10 n).all Char.isDigit = true :=
    List.all_eq_true.2 fun _ => isDigit_of_mem_digits
  have hvalue : (Nat.toDigits 10 n).foldl (fun n c => 10*n+(c.toNat - '0'.toNat)) 0 = n :=
    Nat.ofDigitChars_toDigits (by decide) (by decide)
  rw [Literal.digitsValue?,hvalue]
  simp [hdigits,Nat.toDigits_ne_nil]

theorem digits_cons (n : Nat) : ∃ d ds, Nat.toDigits 10 n = d :: ds ∧ d.isDigit := by
  obtain ⟨d,ds,h⟩ := List.exists_cons_of_ne_nil (Nat.toDigits_ne_nil (n := n) (b := 10))
  exact ⟨d,ds,h,isDigit_of_mem_digits (n := n) (by simp [h])⟩

theorem wholeNumber?_minus (ds : List Char) :
    Literal.wholeNumber? ('-' :: ds) = (Literal.digitsValue? ds).bind fun n => Literal.fit64? (-n) :=
  rfl

theorem wholeNumber?_of_isDigit {d : Char} (hd : d.isDigit) (ds : List Char) :
    Literal.wholeNumber? (d :: ds) = (Literal.digitsValue? (d :: ds)).bind fun n => Literal.fit64? n := by
  unfold Literal.wholeNumber?
  split
  case h_1 heq => cases heq; simp at hd
  case h_2 heq => cases heq; simp at hd
  case h_3 => rfl

/-- A whole number of 64 bits is read back from its text. -/
theorem wholeNumber?_intRepr {v : Int} (hlow : -9223372036854775808 ≤ v)
    (hhigh : v ≤ 9223372036854775807) :
    Literal.wholeNumber? v.repr.toList = some (Int64.ofInt v) := by
  have hfits : Literal.fit64? v = some (Int64.ofInt v) := by simp [Literal.fit64?,hlow,hhigh]
  rw [Int.repr_eq_if]
  split
  case isTrue h =>
    have hv : (v.toNat : Int) = v := Int.toNat_of_nonneg h
    obtain ⟨d,ds,hd,hdigit⟩ := digits_cons v.toNat
    rw [Nat.toList_repr,hd,wholeNumber?_of_isDigit hdigit,← hd,digitsValue?_digits,Option.bind_some,hv]
    exact hfits
  case isFalse h =>
    have hv : -((-v).toNat : Int) = v := by omega
    have htext : ("-" ++ (-v).toNat.repr).toList = '-' :: Nat.toDigits 10 (-v).toNat := by simp
    rw [htext,wholeNumber?_minus,digitsValue?_digits,Option.bind_some,hv]
    exact hfits

theorem number_recovers (n : Nat) :
    Recovers number (fun c => c.isDigit = false) (Nat.toDigits 10 n) n := by
  intro rest hrest
  have hdigits : ∀ c ∈ Nat.toDigits 10 n, c.isDigit := fun _ => isDigit_of_mem_digits
  simp [number,takeWhile_append_exact hdigits hrest,dropWhile_append_exact hdigits hrest]

theorem number_append (n : Nat) {c : Char} (hc : c.isDigit = false) (rest : List Char) :
    number (Nat.toDigits 10 n ++ c :: rest) = some (n,c :: rest) :=
  number_recovers n _ (by simpa using hc)

@[simp] theorem field_append (n : Nat) (rest : List Char) :
    field (Nat.toDigits 10 n ++ ';' :: rest) = some (n,rest) := by
  simp [field,number_append]

/-! ## Lists -/

variable {α : Type} {item : Reader α} {stops : Char → Prop} {text : α → List Char} {mark : List Char}
  {as : List α}

/-- Marks keep items apart that stop in front of them. -/
theorem separated_recovers {n : Nat} (hitem : ∀ a ∈ as, Recovers item stops (text a) a)
    (hmark : ∀ c ∈ mark.head?, stops c) (hne : mark ≠ []) (has : as ≠ []) (hn : as.length ≤ n) :
    Recovers (separated mark item n) (fun c => stops c ∧ c ∉ mark.head?)
      (mark.intercalate (as.map text)) as := by
  induction as generalizing n with
  | nil => exact absurd rfl has
  | cons a as ih =>
    intro rest hrest
    obtain _ | n := n
    · simp at hn
    have ha : Recovers item stops (text a) a := hitem a (by simp)
    cases as with
    | nil =>
      have hstop : after mark rest = none := after_eq_none hne fun c hc => (hrest c hc).2
      simp [separated,ha rest fun c hc => (hrest c hc).1,hstop]
    | cons b as =>
      have hgo := ih (fun a h => hitem a (by simp [h])) (by simp) (Nat.le_of_succ_le_succ hn) rest hrest
      have htext : mark.intercalate ((a :: b :: as).map text) ++ rest =
          text a ++ (mark ++ (mark.intercalate ((b :: as).map text) ++ rest)) := by simp
      generalize mark.intercalate ((b :: as).map text) ++ rest = more at hgo htext
      have hread := ha (mark ++ more) (by rwa [List.head?_append_of_ne_nil _ hne])
      rw [htext]
      simp [separated,hread,hgo]

/-- So many items are separated by no fewer marks but one. -/
theorem length_le_length_intercalate (hne : mark ≠ []) (texts : List (List Char)) :
    texts.length ≤ (mark.intercalate texts).length + 1 := by
  have hmark : 0 < mark.length := List.length_pos_iff.2 hne
  induction texts with
  | nil => simp
  | cons t texts ih =>
    cases texts with
    | nil => simp
    | cons u texts =>
      simp only [List.intercalate_cons_cons,List.length_append,List.length_cons] at ih ⊢
      omega

theorem length_le_length_intercalate_of_mem (mark : List Char) {texts : List (List Char)}
    {t : List Char} (ht : t ∈ texts) : t.length ≤ (mark.intercalate texts).length := by
  induction texts with
  | nil => simp at ht
  | cons u texts ih =>
    cases texts with
    | nil =>
      obtain rfl : t = u := by simpa using ht
      simp
    | cons v texts =>
      simp only [List.intercalate_cons_cons,List.length_append]
      obtain rfl | ht := List.mem_cons.1 ht
      · omega
      · have := ih ht
        omega

/-- A list ends at a closing character, which no item begins with. -/
theorem listed_append {closing : Char} (hitem : ∀ a ∈ as, Recovers item stops (text a) a)
    (hmark : ∀ c ∈ mark.head?, stops c ∧ c ≠ closing) (hne : mark ≠ []) (hclosing : stops closing)
    (hfails : ∀ rest, item (closing :: rest) = none) (rest : List Char) :
    listed mark item closing (mark.intercalate (as.map text) ++ closing :: rest) = some (as,rest) := by
  cases as with
  | nil => simp [listed]
  | cons a as =>
    generalize hfront : mark.intercalate ((a :: as).map text) ++ closing :: rest = front
    have hread : separated mark item front.length front = some (a :: as,closing :: rest) := by
      rw [← hfront]
      refine separated_recovers hitem (fun c hc => (hmark c hc).1) hne (by simp) ?_ _ ?_
      · have := length_le_length_intercalate hne ((a :: as).map text)
        simp only [List.length_map,List.length_append,List.length_cons] at this ⊢
        omega
      · simpa [hclosing] using fun h => (hmark closing h).2 rfl
    obtain ⟨c,cs,rfl⟩ : ∃ c cs, front = c :: cs :=
      List.exists_cons_of_ne_nil (by simp [← hfront])
    have hc : c ≠ closing := by
      rintro rfl
      simp [separated,hfails] at hread
    rw [List.length_cons] at hread
    simp [listed,hc,hread]

/-! ## Words -/

/-- What can follow an expression in a plan. -/
def endsExpr (c : Char) : Prop := c ∈ [',',')',']','\n']

theorem endsWord_of_endsExpr {c : Char} (h : endsExpr c) : endsWord c := by
  simp only [endsExpr,List.mem_cons,List.not_mem_nil,or_false] at h
  rcases h with rfl | rfl | rfl | rfl <;> rfl

theorem word_recovers {w rest : List Char} (hw : ∀ c ∈ w, endsWord c = false)
    (hrest : ∀ c ∈ rest.head?, endsExpr c) : word (w ++ rest) = w ∧ behindWord (w ++ rest) = rest :=
  ⟨word_append hw fun c hc => endsWord_of_endsExpr (hrest c hc),
    behindWord_append hw fun c hc => endsWord_of_endsExpr (hrest c hc)⟩

/-- A type with its digits in parentheses begins with a word. -/
theorem word_parameters {w : List Char} (hw : ∀ c ∈ w, endsWord c = false) (rest : List Char) :
    word (w ++ '(' :: rest) = w ∧ behindWord (w ++ '(' :: rest) = '(' :: rest :=
  ⟨word_append hw (by simp [endsWord]),behindWord_append hw (by simp [endsWord])⟩

end QueryPlan.EnginePlan.Reading
