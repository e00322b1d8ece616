import QueryPlan.Json.Raw

/-! # Reading what was written

A value that is made of texts, arrays and objects is read back from its written form. That form is a
single line, because every control character in a text is escaped. -/
namespace QueryPlan.Json

/-! ## Texts -/

theorem hexUnit?_hexDigit : ∀ n < 0x20,
    hexUnit? '0' '0' (hexDigit (n/16)) (hexDigit (n%16)) = some n := by decide

theorem textUnits_cons {c : Char} (hquote : c ≠ '"') (hbackslash : c ≠ '\\')
    (hcontrol : ¬ c.toNat < 0x20) (rest : List Char) : textUnits (c :: rest) =
      (textUnits rest).map fun read => (c.toNat :: read.1,read.2) := by
  rw [textUnits.eq_5]
  · cases textUnits rest <;> simp [hbackslash,hcontrol]
  all_goals simp_all

theorem textUnits_escapeChar (c : Char) (rest : List Char) : textUnits (escapeChar c ++ rest) =
    (textUnits rest).map fun read => (c.toNat :: read.1,read.2) := by
  unfold escapeChar
  split
  case h_8 hquote hbackslash _ _ _ _ _ =>
    split
    case isTrue hcontrol =>
      have hunit := hexUnit?_hexDigit c.toNat hcontrol
      cases htext : textUnits rest <;> simp [textUnits,hunit,htext]
    case isFalse hcontrol => exact textUnits_cons hquote hbackslash hcontrol rest
  all_goals cases htext : textUnits rest <;> simp [textUnits,escapedUnit?,htext]

theorem textUnits_escaped (s rest : List Char) :
    textUnits (s.flatMap escapeChar ++ '"' :: rest) = some (s.map Char.toNat,rest) := by
  induction s with
  | nil => rfl
  | cons c s ih =>
    rw [List.flatMap_cons,List.append_assoc,textUnits_escapeChar,ih]
    rfl

/-- No character is a surrogate. -/
theorem not_surrogate (c : Char) : ¬ (0xD800 ≤ c.toNat ∧ c.toNat < 0xE000) := by
  have hvalid : c.toNat < 0xD800 ∨ (0xDFFF < c.toNat ∧ c.toNat < 0x110000) := c.valid
  omega

theorem charsOf?_map_toNat (s : List Char) : charsOf? (s.map Char.toNat) = some s := by
  induction s with
  | nil => rfl
  | cons c s ih =>
    have hc := not_surrogate c
    cases s with
    | nil =>
      rw [List.map_cons,List.map_nil,charsOf?,if_neg (by simpa using hc),Char.ofNat_toNat]
    | cons d s =>
      rw [List.map_cons,List.map_cons,charsOf?,← List.map_cons,ih,if_neg (by simp; omega),
        if_neg (by simp; omega),Char.ofNat_toNat]
      rfl

theorem stringOf?_units (s : String) : stringOf? (s.toList.map Char.toNat) = some s := by
  rw [stringOf?,charsOf?_map_toNat]
  simp

theorem control_escapeChar (c : Char) : ∀ d ∈ escapeChar c, 0x20 ≤ d.toNat := by
  unfold escapeChar
  split
  case h_8 =>
    split
    case isTrue hcontrol =>
      have hdigit : ∀ n < 16, 0x20 ≤ (hexDigit n).toNat := by decide
      simp only [List.forall_mem_cons]
      exact ⟨by decide,by decide,by decide,by decide,hdigit _ (by omega),hdigit _ (by omega),by simp⟩
    case isFalse hcontrol => simpa using hcontrol
  all_goals simp

theorem control_quoted (s : String) : ∀ d ∈ (quoted s).toList, 0x20 ≤ d.toNat := by
  intro d hd
  have hmark : 0x20 ≤ '"'.toNat := by decide
  simp only [quoted,quotedChars,String.toList_ofList,List.mem_cons,List.mem_append,List.mem_flatMap,
    List.not_mem_nil,or_false] at hd
  rcases hd with rfl|⟨c,-,hd⟩|rfl
  · exact hmark
  · exact control_escapeChar c d hd
  · exact hmark

theorem toList_quoted_append (s : String) (rest : List Char) : (quoted s).toList ++ rest =
    '"' :: (s.toList.flatMap escapeChar ++ '"' :: rest) := by
  simp [quoted,quotedChars]

/-! ## Values -/

/-- What can begin the written form of a value that is read back. -/
def Opens (c : Char) : Prop := c = '"' ∨ c = '[' ∨ c = '\x7b'

theorem skipSpace_cons {c : Char} (hc : Opens c) (cs : List Char) : skipSpace (c :: cs) = c :: cs := by
  rcases hc with rfl|rfl|rfl <;> rfl

/-- The written form holds no control character and is read back, with brackets nested so deep. -/
structure Recovers (depth : Nat) (j : Json) : Prop where
  opens : ∃ c cs, j.written.toList = c :: cs ∧ Opens c
  control : ∀ d ∈ j.written.toList, 0x20 ≤ d.toNat
  reads : ∃ raw, (∀ fuel rest, j.written.toList.length < fuel →
      rawValue fuel (j.written.toList ++ rest) = some (raw,rest)) ∧
    ∀ d, depth ≤ d → raw.value? d = some j

theorem Recovers.mono {j : Json} {depth depth' : Nat} (h : j.Recovers depth) (hle : depth ≤ depth') :
    j.Recovers depth' where
  opens := h.opens
  control := h.control
  reads := by
    obtain ⟨raw,hread,hvalue⟩ := h.reads
    exact ⟨raw,hread,fun d hd => hvalue d (Nat.le_trans hle hd)⟩

section
variable {fuel : Nat} {c : Char} {cs rest : List Char}

theorem rawValue_text : rawValue (fuel+1) ('"' :: rest) =
    (textUnits rest).map fun read => (.text read.1,read.2) := rfl

theorem rawValue_object_nil : rawValue (fuel+1) ('\x7b' :: '\x7d' :: rest) = some (.object [],rest) :=
  rfl

theorem rawValue_object : rawValue (fuel+1) ('\x7b' :: '"' :: rest) =
    (rawMembers fuel ('"' :: rest)).map fun read => (.object read.1,read.2) := rfl

end

theorem recovers_text (s : String) : (text s).Recovers 0 where
  opens := ⟨'"',_,toList_quoted_append s [] ▸ (List.append_nil _).symm,.inl rfl⟩
  control := control_quoted s
  reads := by
    refine ⟨.text (s.toList.map Char.toNat),fun fuel rest hfuel => ?_,fun d _ => ?_⟩
    · obtain ⟨fuel,rfl⟩ := Nat.exists_eq_add_one.2 (Nat.zero_lt_of_lt hfuel)
      rw [written,toList_quoted_append,rawValue_text,textUnits_escaped]
      rfl
    · rw [Raw.value?,stringOf?_units]
      rfl

/-! ## Arrays -/

/-- The written forms of items with commas between them. -/
def joined (texts : List String) : List Char := [','].intercalate (texts.map String.toList)

theorem joined_cons_cons (a b : String) (texts : List String) :
    joined (a :: b :: texts) = a.toList ++ ',' :: joined (b :: texts) := by
  simp [joined,List.intercalate_cons_cons]

theorem joined_singleton (a : String) : joined [a] = a.toList := by simp [joined]

theorem control_joined {texts : List String} (h : ∀ t ∈ texts, ∀ d ∈ t.toList, 0x20 ≤ d.toNat) :
    ∀ d ∈ joined texts, 0x20 ≤ d.toNat := by
  induction texts with
  | nil => simp [joined]
  | cons a texts ih =>
    obtain ⟨ha,htexts⟩ := List.forall_mem_cons.1 h
    cases texts with
    | nil => rwa [joined_singleton]
    | cons b texts =>
      intro d hd
      rw [joined_cons_cons,List.mem_append,List.mem_cons] at hd
      rcases hd with hd|rfl|hd
      · exact ha d hd
      · decide
      · exact ih htexts d hd

/-- What is put between two brackets holds no control character if the brackets are none. -/
theorem control_enclosed {a b : Char} {cs : List Char} (ha : 0x20 ≤ a.toNat) (hb : 0x20 ≤ b.toNat)
    (h : ∀ d ∈ cs, 0x20 ≤ d.toNat) : ∀ d ∈ a :: (cs ++ [b]), 0x20 ≤ d.toNat := by
  rw [List.forall_mem_cons,List.forall_mem_append]
  exact ⟨ha,h,by simpa using hb⟩

/-- The written form of one member. -/
def memberText (m : String × Json) : String := quoted m.1 ++ ":" ++ m.2.written

theorem writtenMembers_eq (members : List (String × Json)) :
    writtenMembers members = members.map memberText := by
  induction members with
  | nil => rfl
  | cons m members ih =>
    obtain ⟨key,value⟩ := m
    rw [writtenMembers,ih,List.map_cons,memberText]

theorem toList_object (members : List (String × Json)) :
    (object members).written.toList = '\x7b' :: (joined (members.map memberText) ++ ['\x7d']) := by
  simp [written,writtenMembers_eq,joined,String.toList_intercalate]

theorem toList_memberText_append (m : String × Json) (rest : List Char) :
    (memberText m).toList ++ rest =
      '"' :: (m.1.toList.flatMap escapeChar ++ '"' :: ':' :: (m.2.written.toList ++ rest)) := by
  simp [memberText,quoted,quotedChars]

section
variable {fuel : Nat} {key : List Char} {cs more rest : List Char} {raw : Raw}
  {raws : List (List Nat × Raw)}

theorem rawMembers_key (fuel : Nat) (key cs : List Char) :
    rawMembers (fuel+1) ('"' :: (key.flatMap escapeChar ++ '"' :: ':' :: cs)) =
      (rawValue fuel cs).bind fun value =>
        match skipSpace value.2 with
        | ',' :: rest => (rawMembers fuel rest).bind fun more =>
          some ((key.map Char.toNat,value.1) :: more.1,more.2)
        | '\x7d' :: rest => some ([(key.map Char.toNat,value.1)],rest)
        | _ => none := by
  rw [rawMembers,skipSpace_cons (.inl rfl)]
  change (textUnits (key.flatMap escapeChar ++ '"' :: ':' :: cs) >>= _) = _
  rw [textUnits_escaped]
  rfl

theorem rawMembers_last (h : rawValue fuel cs = some (raw,'\x7d' :: rest)) :
    rawMembers (fuel+1) ('"' :: (key.flatMap escapeChar ++ '"' :: ':' :: cs)) =
      some ([(key.map Char.toNat,raw)],rest) := by
  rw [rawMembers_key,h]
  rfl

theorem rawMembers_more (h : rawValue fuel cs = some (raw,',' :: more))
    (hmore : rawMembers fuel more = some (raws,rest)) :
    rawMembers (fuel+1) ('"' :: (key.flatMap escapeChar ++ '"' :: ':' :: cs)) =
      some ((key.map Char.toNat,raw) :: raws,rest) := by
  rw [rawMembers_key,h]
  exact (congrArg (Option.bind · _) hmore).trans rfl

end

theorem rawMembers_joined {depth : Nat} {members : List (String × Json)} (hne : members ≠ [])
    (h : ∀ m ∈ members, m.2.Recovers depth) : ∃ raws,
      (∀ fuel rest, (joined (members.map memberText)).length+1 < fuel →
        rawMembers fuel (joined (members.map memberText) ++ '\x7d' :: rest) = some (raws,rest)) ∧
      ∀ d, depth ≤ d → membersOf? d raws = some members := by
  induction members with
  | nil => exact absurd rfl hne
  | cons m members ih =>
    obtain ⟨hm,hmembers⟩ := List.forall_mem_cons.1 h
    obtain ⟨raw,hread,hvalue⟩ := hm.reads
    have hlength : (memberText m).toList.length = m.2.written.toList.length +
        (m.1.toList.flatMap escapeChar).length+3 := by
      have := congrArg List.length (toList_memberText_append m [])
      simp only [List.append_nil,List.length_cons,List.length_append] at this
      omega
    cases members with
    | nil =>
      refine ⟨[(m.1.toList.map Char.toNat,raw)],fun fuel rest hfuel => ?_,fun d hd => ?_⟩
      · rw [List.map_cons,List.map_nil,joined_singleton] at hfuel ⊢
        obtain ⟨fuel,rfl⟩ := Nat.exists_eq_add_one.2 (Nat.zero_lt_of_lt hfuel)
        rw [toList_memberText_append]
        exact rawMembers_last (hread fuel _ (by omega))
      · rw [membersOf?,stringOf?_units,hvalue d hd]
        rfl
    | cons next members =>
      obtain ⟨raws,hreads,hvalues⟩ := ih (List.cons_ne_nil _ _) hmembers
      refine ⟨(m.1.toList.map Char.toNat,raw) :: raws,fun fuel rest hfuel => ?_,fun d hd => ?_⟩
      · rw [List.map_cons,List.map_cons,joined_cons_cons] at hfuel ⊢
        rw [List.length_append,List.length_cons] at hfuel
        rw [List.map_cons] at hreads
        obtain ⟨fuel,rfl⟩ := Nat.exists_eq_add_one.2 (Nat.zero_lt_of_lt hfuel)
        rw [List.append_assoc,List.cons_append,toList_memberText_append]
        exact rawMembers_more (hread fuel _ (by omega)) (hreads fuel rest (by omega))
      · rw [membersOf?,stringOf?_units,hvalue d hd,hvalues d hd]
        rfl

section
variable {depth : Nat} {members : List (String × Json)}

theorem control_object (h : ∀ m ∈ members, m.2.Recovers depth) :
    ∀ d ∈ (object members).written.toList, 0x20 ≤ d.toNat := by
  rw [toList_object]
  refine control_enclosed (by decide) (by decide)
    (control_joined (List.forall_mem_map.2 fun m hm d hd => ?_))
  rw [memberText,String.toList_append,String.toList_append,List.mem_append,List.mem_append] at hd
  rcases hd with (hd|hd)|hd
  · exact control_quoted m.1 d hd
  · obtain rfl : d = ':' := by simpa using hd
    decide
  · exact (h m hm).control d hd

/-- The members of an object are read back in their order, also where keys are repeated. -/
theorem rawValue_written_object (h : ∀ m ∈ members, m.2.Recovers depth) : ∃ raws,
    (∀ fuel rest, (object members).written.toList.length < fuel →
      rawValue fuel ((object members).written.toList ++ rest) = some (.object raws,rest)) ∧
    ∀ d, depth ≤ d → membersOf? d raws = some members := by
  rw [toList_object]
  cases members with
  | nil =>
    refine ⟨[],fun fuel rest hfuel => ?_,fun _ _ => rfl⟩
    obtain ⟨fuel,rfl⟩ := Nat.exists_eq_add_one.2 (Nat.zero_lt_of_lt hfuel)
    exact rawValue_object_nil
  | cons m members =>
    obtain ⟨raws,hreads,hvalues⟩ := rawMembers_joined (List.cons_ne_nil _ _) h
    obtain ⟨cs,hopen⟩ : ∃ cs, joined ((m :: members).map memberText) = '"' :: cs := by
      have hm := toList_memberText_append m []
      rw [List.append_nil] at hm
      cases members with
      | nil => exact ⟨_,by rw [List.map_cons,List.map_nil,joined_singleton,hm]⟩
      | cons next members =>
        exact ⟨_,by rw [List.map_cons,List.map_cons,joined_cons_cons,hm]; rfl⟩
    refine ⟨raws,fun fuel rest hfuel => ?_,hvalues⟩
    rw [List.length_cons,List.length_append,List.length_singleton] at hfuel
    obtain ⟨fuel,rfl⟩ := Nat.exists_eq_add_one.2 (Nat.zero_lt_of_lt hfuel)
    have hread := hreads fuel rest (by omega)
    rw [hopen] at hread ⊢
    rw [List.cons_append,List.append_assoc,List.cons_append,rawValue_object]
    rw [List.cons_append] at hread
    exact (congrArg _ hread).trans rfl

end

/-! ## Whole texts -/

/-- A text is read if a value stands in it with nothing but blanks behind. -/
theorem Raw.ofText?_append {text blanks : String} {raw : Raw}
    (hread : ∀ fuel rest, text.toList.length < fuel →
      rawValue fuel (text.toList ++ rest) = some (raw,rest))
    (hblanks : skipSpace blanks.toList = []) : Raw.ofText? (text ++ blanks) = some raw := by
  have hwhole := hread ((text ++ blanks).toList.length+1) blanks.toList
    (by rw [String.toList_append,List.length_append]; omega)
  rw [← String.toList_append] at hwhole
  unfold Raw.ofText?
  dsimp only
  rw [hwhole]
  simp only [hblanks,List.isEmpty_nil,if_true]

theorem Recovers.ofText? {j : Json} {depth : Nat} (h : j.Recovers depth) (hdepth : depth ≤ maxDepth) :
    Json.ofText? j.written = some j := by
  obtain ⟨raw,hread,hvalue⟩ := h.reads
  have hraw := Raw.ofText?_append hread (show skipSpace "".toList = [] from rfl)
  rw [String.append_empty] at hraw
  rw [Json.ofText?,hraw]
  exact hvalue maxDepth hdepth

end QueryPlan.Json
