import QueryPlan.Proofs.EnginePlan.Exprs

/-! # Lines are read back -/
namespace QueryPlan.EnginePlan.Reading

variable {c : Catalog} {plans : List Plan} {input left right : Plan} {i j : Nat}

/-! ## Parts of lines -/

theorem toList_indices (is : List Nat) :
    (indices is).toList = [','].intercalate (is.map fun i => Nat.toDigits 10 i) := by
  simp [indices,Function.comp_def]

theorem number_fails {d : Char} (hd : d.isDigit = false) (rest : List Char) :
    number (d :: rest) = none := by
  simp [number,Literal.digitsValue?,hd]

theorem listed_indices (is : List Nat) {closing : Char} (hclosing : closing.isDigit = false)
    (hcomma : closing ≠ ',') (rest : List Char) :
    listed [','] number closing ((indices is).toList ++ closing :: rest) = some (is,rest) := by
  rw [toList_indices]
  exact listed_append (fun i _ => number_recovers i) (by simp [hcomma.symm]) (by simp) hclosing
    (number_fails hclosing) rest

theorem argument_recovers (a : Nat) :
    Recovers argument (fun c => c.isDigit = false) ('$' :: Nat.toDigits 10 a) a := by
  intro rest hrest
  simp [argument,number_recovers a rest hrest]

theorem listed_arguments (args : List Nat) (rest : List Char) :
    listed [',',' '] argument ')'
      ([',',' '].intercalate (args.map fun a => '$' :: Nat.toDigits 10 a) ++ ')' :: rest) =
      some (args,rest) :=
  listed_append (fun a _ => argument_recovers a) (by simp) (by simp) (by simp) (by simp [argument]) rest

theorem endsWord_of_mem_functionName {f : AggregateFunction} :
    ∀ c ∈ f.name.toList, endsWord c = false := by
  cases f <;> simp [AggregateFunction.name,endsWord]

theorem find?_functions (f : AggregateFunction) :
    functions.find? (·.name.toList = f.name.toList) = some f := by
  cases f <;> decide

/-- An aggregate is read back, but for the name of its column. -/
theorem aggregateCall_recovers {types : List SqlType} {call : AggregateCall} (hfits : call.Fits types)
    (hdistinct : call.distinct = false) :
    Recovers (aggregateCall types) (fun _ => True) call.unnamed.text.toList call.unnamed := by
  intro rest _
  have htext : call.unnamed.text.toList ++ rest = call.function.name.toList ++ '(' ::
      ([',',' '].intercalate (call.args.map fun a => '$' :: Nat.toDigits 10 a) ++ ')' :: rest) := by
    simp [AggregateCall.text,AggregateCall.unnamed,hdistinct,Function.comp_def]
  have hlist := listed_arguments call.args rest
  generalize [',',' '].intercalate (call.args.map fun a => '$' :: Nat.toDigits 10 a) ++ ')' :: rest =
    operands at htext hlist
  obtain ⟨hword,hbehind⟩ := word_parameters (endsWord_of_mem_functionName (f := call.function)) operands
  rw [htext]
  simp [aggregateCall,hword,hbehind,find?_functions,hlist,AggregateCall.unnamed,hfits.2,hdistinct]

theorem aggregateCall_fails {types : List SqlType} (rest : List Char) :
    aggregateCall types ('\n' :: rest) = none := by
  have hword : word ('\n' :: rest) = [] := by simp [word,endsWord]
  have hfind : functions.find? (·.name.toList = []) = none := by decide
  simp only [aggregateCall,hword,hfind]
  rfl

/-! ## Lines -/

theorem line_filter {condition : Expr} (hi : plans[i]? = some input)
    (hcondition : condition.Readable input.types) (rest : List Char) :
    line c plans (("F;" ++ toString i ++ ";" ++ condition.text).toList ++ '\n' :: rest) =
      some (.filter input condition,rest) := by
  have htext : ("F;" ++ toString i ++ ";" ++ condition.text).toList ++ '\n' :: rest =
      'F' :: ';' :: (Nat.toDigits 10 i ++ ';' :: (condition.text.toList ++ '\n' :: rest)) := by simp
  have hread (n : Nat) (hn : condition.text.toList.length < n) :
      expr input.types n (condition.text.toList ++ '\n' :: rest) = some (condition,'\n' :: rest) :=
    expr_recovers hcondition hn _ (by simp [endsExpr])
  have hline := hread (condition.text.toList ++ '\n' :: rest).length (by simp)
  rw [htext]
  simp [-List.length_append,-List.length_cons,line,hi,hline]

theorem line_project {es : List Expr} (hi : plans[i]? = some input)
    (hes : ∀ e ∈ es, e.Readable input.types) (rest : List Char) :
    line c plans (("P;" ++ toString i ++ ";" ++ Expr.listText es).toList ++ '\n' :: rest) =
      some (.project input es [],rest) := by
  have htext : ("P;" ++ toString i ++ ";" ++ Expr.listText es).toList ++ '\n' :: rest =
      'P' :: ';' :: (Nat.toDigits 10 i ++
        ';' :: '[' :: ((Expr.textAll es).toList ++ ']' :: '\n' :: rest)) := by
    simp [Expr.listText]
  have hread (n : Nat) (hn : (Expr.textAll es).toList.length < n) :
      listed [',',' '] (expr input.types n) ']' ((Expr.textAll es).toList ++ ']' :: '\n' :: rest) =
        some (es,'\n' :: rest) := by
    refine listed_exprs (fun e he => ?_) (by simp) _
    exact expr_recovers (hes e he) (Nat.lt_of_le_of_lt (length_text_le he) hn)
  have hline := hread ((Expr.textAll es).toList ++ ']' :: '\n' :: rest).length (by simp)
  rw [htext]
  simp [-List.length_append,-List.length_cons,line,hi,hline]

theorem line_join {lower higher : Nat} {s t : SqlType} (hi : plans[i]? = some left)
    (hj : plans[j]? = some right) (hlower : (left.types ++ right.types)[lower]? = some s)
    (hhigher : (left.types ++ right.types)[higher]? = some t) (rest : List Char) :
    line c plans (("J;" ++ toString i ++ ";" ++ toString j ++ ";" ++ toString lower ++ ";" ++
      toString higher).toList ++ '\n' :: rest) =
      some (.join left right (.call .eq [.column lower s,.column higher t] .boolean) .inner,rest) := by
  have htext : ("J;" ++ toString i ++ ";" ++ toString j ++ ";" ++ toString lower ++ ";" ++
      toString higher).toList ++ '\n' :: rest =
      'J' :: ';' :: (Nat.toDigits 10 i ++ ';' :: (Nat.toDigits 10 j ++ ';' ::
        (Nat.toDigits 10 lower ++ ';' :: (Nat.toDigits 10 higher ++ '\n' :: rest)))) := by simp
  have hread := number_append higher (c := '\n') (by decide) rest
  rw [htext]
  simp [line,hi,hj,hread,hlower,hhigher]

theorem line_aggregate {groups : List Nat} {calls : List AggregateCall} (hi : plans[i]? = some input)
    (hfits : ∀ call ∈ calls, call.Fits input.types) (hdistinct : ∀ call ∈ calls, call.distinct = false)
    (rest : List Char) :
    line c plans (("A;" ++ toString i ++ ";" ++ indices groups ++ ";" ++
      ",".intercalate (calls.map AggregateCall.text)).toList ++ '\n' :: rest) =
      some (.aggregate input groups (calls.map AggregateCall.unnamed),rest) := by
  have htext : ("A;" ++ toString i ++ ";" ++ indices groups ++ ";" ++
      ",".intercalate (calls.map AggregateCall.text)).toList ++ '\n' :: rest =
      'A' :: ';' :: (Nat.toDigits 10 i ++ ';' :: ((indices groups).toList ++ ';' ::
        ([','].intercalate (calls.map fun call => call.text.toList) ++ '\n' :: rest))) := by
    simp [Function.comp_def]
  have hgroups (rest : List Char) :
      listed [','] number ';' ((indices groups).toList ++ ';' :: rest) = some (groups,rest) :=
    listed_indices groups (by decide) (by decide) rest
  have hcalls : ∀ call ∈ calls.map AggregateCall.unnamed,
      Recovers (aggregateCall input.types) (fun _ => True) call.text.toList call := by
    simp only [List.forall_mem_map]
    exact fun call hcall => aggregateCall_recovers (hfits call hcall) (hdistinct call hcall)
  have hread : listed [','] (aggregateCall input.types) '\n'
      ([','].intercalate (calls.map fun call => call.text.toList) ++ '\n' :: rest) =
      some (calls.map AggregateCall.unnamed,rest) := by
    have := listed_append hcalls (by simp) (List.cons_ne_nil ',' []) trivial aggregateCall_fails rest
    rw [List.map_map] at this
    exact this
  rw [htext]
  simp [line,hi,hgroups,hread]

/-! ## Scans -/

theorem mem_intercalate {mark : List Char} {texts : List (List Char)} {c : Char}
    (hc : c ∈ mark.intercalate texts) : c ∈ mark ∨ ∃ t ∈ texts, c ∈ t := by
  induction texts with
  | nil => simp at hc
  | cons t texts ih =>
    cases texts with
    | nil => exact .inr ⟨t,by simp,by simpa using hc⟩
    | cons u texts =>
      simp only [List.intercalate_cons_cons,List.mem_append] at hc
      obtain (hc | hc) | hc := hc
      · exact .inr ⟨t,by simp,hc⟩
      · exact .inl hc
      · exact (ih hc).imp_right fun ⟨t,ht,hct⟩ => ⟨t,List.mem_cons_of_mem _ ht,hct⟩

theorem mem_indices {is : List Nat} {d : Char} (hd : d ∈ (indices is).toList) : d = ',' ∨ d.isDigit := by
  rw [toList_indices] at hd
  obtain hd | ⟨t,ht,hd⟩ := mem_intercalate hd
  · exact .inl (by simpa using hd)
  · obtain ⟨i,-,rfl⟩ := List.mem_map.1 ht
    exact .inr (isDigit_of_mem_digits hd)

/-- Tables of different names are found by them. -/
theorem find?_table {t : Table} (hc : c.tableNames.Nodup) (ht : t ∈ c.tables) :
    c.tables.find? (·.name.toList = t.name.toList) = some t := by
  cases hfound : c.tables.find? (·.name.toList = t.name.toList) with
  | none =>
    have := List.find?_eq_none.1 hfound t ht
    simp at this
  | some u =>
    have hu : u.name = t.name := by
      have := List.find?_some hfound
      simpa [String.toList_inj] using this
    have := List.inj_on_of_nodup_map hc (List.mem_of_find?_eq_some hfound) ht hu
    rw [this]

theorem line_scan {t : Table} {cols : List Nat} {flag : String} (hc : c.tableNames.Nodup)
    (ht : t ∈ c.tables) (hname : '\n' ∉ t.name.toList) (hflag : flag = "true" ∨ flag = "false")
    (rest : List Char) :
    line c plans (("S;" ++ t.name ++ ";" ++ flag ++ ";" ++ indices cols).toList ++ '\n' :: rest) =
      some (.arrowScan t cols,rest) := by
  have htext : ("S;" ++ t.name ++ ";" ++ flag ++ ";" ++ indices cols).toList ++ '\n' :: rest =
      'S' :: ';' :: ((t.name.toList ++ ';' :: (flag.toList ++ ';' :: (indices cols).toList)) ++
        '\n' :: rest) := by simp
  have hindices : ∀ d ∈ (indices cols).toList, d ≠ ';' ∧ d ≠ '\n' := by
    intro d hd
    obtain rfl | hd := mem_indices hd
    · decide
    · exact ⟨by rintro rfl; simp at hd,by rintro rfl; simp at hd⟩
  have hword : ∀ d ∈ flag.toList, d ≠ ';' ∧ d ≠ '\n' := by
    rcases hflag with rfl | rfl <;> simp
  have hrow : ∀ d ∈ t.name.toList ++ ';' :: (flag.toList ++ ';' :: (indices cols).toList),
      d != '\n' := by
    simp only [List.mem_append,List.mem_cons,bne_iff_ne]
    rintro d (hd | rfl | hd | rfl | hd)
    · rintro rfl
      exact hname hd
    · decide
    · exact (hword d hd).2
    · decide
    · exact (hindices d hd).2
  have hcut : cutLast (t.name.toList ++ ';' :: (flag.toList ++ ';' :: (indices cols).toList)) =
      (t.name.toList ++ ';' :: flag.toList,(indices cols).toList) := by
    simpa using cutLast_append (t.name.toList ++ ';' :: flag.toList) fun h => (hindices _ h).1 rfl
  have hcut' : cutLast (t.name.toList ++ ';' :: flag.toList) = (t.name.toList,flag.toList) :=
    cutLast_append _ fun h => (hword _ h).1 rfl
  have hread : listed [','] number '\n' ((indices cols).toList ++ ['\n']) = some (cols,[]) :=
    listed_indices cols (by decide) (by decide) []
  rw [htext]
  simp only [line,scan]
  rw [takeWhile_append_exact hrow (by simp),dropWhile_append_exact hrow (by simp)]
  simp [hcut,hcut',find?_table hc ht,hread]

end QueryPlan.EnginePlan.Reading
