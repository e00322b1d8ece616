import QueryPlan.Proofs.Binding.Expr

/-! # Expressions and their parts

An expression that is not bound as a whole is put together from its bound parts. Computations bind
the parts one after the other and may gather something on the way, which `Ends` keeps track of. -/
namespace QueryPlan

namespace Sql.Expr

/-- The expressions an expression is bound from, in the order they are bound. A call of a function
has none: it is bound as a whole or not at all. -/
def parts : Expr → List Expr
  | binary left _ right => [left,right]
  | nested e | unary _ e | isNull e | isNotNull e | cast e _ _ => [e]
  | between e _ low high => [e,low,high]
  | inList e list _ => e :: list
  | like _ e pattern _ => [e,pattern]
  | identifier _ | compound _ | value _ | typedString _ _ | function _ _ _ _ | subquery _ | other _ => []

theorem sizeOf_lt_of_mem_parts {e s : Expr} (h : s ∈ e.parts) : sizeOf s < sizeOf e := by
  cases e with
  | inList e list absent =>
    rcases List.mem_cons.1 h with rfl|h
    · simp only [inList.sizeOf_spec]
      omega
    · have := List.sizeOf_lt_of_mem h
      simp only [inList.sizeOf_spec]
      omega
  | _ =>
    simp only [parts,List.mem_cons,List.not_mem_nil,or_false] at h <;>
      rcases h with rfl|rfl|rfl <;> simp +arith

/-- Induction over an expression and its parts. -/
@[elab_as_elim]
theorem byParts {P : Expr → Prop} (step : ∀ e, (∀ s ∈ e.parts, P s) → P e) (e : Expr) : P e :=
  step e fun s _ => byParts step s
termination_by sizeOf e
decreasing_by exact sizeOf_lt_of_mem_parts ‹_›

theorem anyAggregate_eq_false {es : List Expr} :
    anyAggregate es = false ↔ ∀ e ∈ es, e.hasAggregate = false := by
  induction es with
  | nil => simp [anyAggregate]
  | cons e es ih => simp [anyAggregate,ih]

/-- Where no aggregate is called in an expression, none is in its parts. -/
theorem hasAggregate_of_mem_parts {e s : Expr} (he : e.hasAggregate = false) (hs : s ∈ e.parts) :
    s.hasAggregate = false := by
  cases e <;> simp only [hasAggregate,anyAggregate_eq_false,Bool.or_eq_false_iff] at he <;>
    simp only [parts,List.mem_cons,List.not_mem_nil,or_false] at hs
  case inList e list absent => exact hs.elim (· ▸ he.1) (he.2 s)
  all_goals grind

end Sql.Expr

namespace Binding

/-- Which worlds and values computations end in, started in a world. Worlds stand for what has been
gathered so far. -/
structure Ends (m : Type → Type) [Monad m] [MonadLiftT (Except QueryError) m] (W : Type) where
  To {α : Type} : W → m α → W → α → Prop
  pure {α : Type} {w w' : W} {a b : α} : To w (pure a) w' b ↔ w' = w ∧ b = a
  lift {α : Type} {w w' : W} {x : Except QueryError α} {b : α} :
    To w (monadLift x) w' b ↔ w' = w ∧ x = .ok b
  bind {α β : Type} {w w' : W} {x : m α} {f : α → m β} {b : β} :
    To w (x >>= f) w' b ↔ ∃ w₁ a, To w x w₁ a ∧ To w₁ (f a) w' b

/-- A bound expression from its bound parts. -/
def assemble (n : Names) : Sql.Expr → List Expr → Except QueryError Expr
  | .identifier name,[] => n.resolve none name.value
  | .compound parts,[] => n.resolveParts parts
  | .value v,[] => value v
  | .typedString type text,[] => typedString type text
  | .nested _,[e] => .ok e
  | .binary _ op _,[left,right] => do Expr.ofCall (← operator op) [left,right]
  | .unary op _,[e] => unary op e
  | .isNull _,[e] => Expr.ofCall .isNull [e]
  | .isNotNull _,[e] => Expr.ofCall .isNotNull [e]
  | .between _ outside _ _,[v,low,high] => between outside v low high
  | .inList _ _ absent,v :: items => do
    inList absent (← items.mapM fun item => Expr.ofCall (membership absent) [v,item])
  | .like absent _ _ _,[v,pattern] => like absent v pattern
  | .cast _ type _,[e] => cast e type
  | e,_ => .error (.unsupported (.expression e.text))

section
variable {m : Type → Type} [Monad m] [MonadLiftT (Except QueryError) m] {W : Type} (E : Ends m W)
  {n : Names} {clause : Clause} {whole : Sql.Expr → m (Option Expr)} {w w' : W}

/-- A computation is run for one element of a list after the other. -/
inductive Ends.Each {α β : Type} (f : α → m β) : W → List α → W → List β → Prop
  | nil {w : W} : Each f w [] w []
  | cons {w w₁ w' : W} {x : α} {y : β} {xs : List α} {ys : List β} :
    E.To w (f x) w₁ y → Each f w₁ xs w' ys → Each f w (x :: xs) w' (y :: ys)

variable {E}

theorem Ends.each_nil {α β : Type} {f : α → m β} {P : List β → Prop} :
    (∃ ys, E.Each f w [] w' ys ∧ P ys) ↔ w' = w ∧ P [] := by
  constructor
  · rintro ⟨_,⟨⟩,h⟩
    exact ⟨rfl,h⟩
  · rintro ⟨rfl,h⟩
    exact ⟨[],.nil,h⟩

theorem Ends.each_cons {α β : Type} {f : α → m β} {x : α} {xs : List α} {P : List β → Prop} :
    (∃ ys, E.Each f w (x :: xs) w' ys ∧ P ys) ↔
      ∃ w₁ y, E.To w (f x) w₁ y ∧ ∃ ys, E.Each f w₁ xs w' ys ∧ P (y :: ys) := by
  constructor
  · rintro ⟨_,_|⟨hy,hys⟩,h⟩
    exact ⟨_,_,hy,_,hys,h⟩
  · rintro ⟨_,_,hy,_,hys,h⟩
    exact ⟨_,.cons hy hys,h⟩

/-- Members of a list are bound first and compared with the value afterwards, as far as it matters
for where this ends. -/
theorem Ends.termsWith {op : Operator} {v : Expr} {es : List Sql.Expr} {ts : List Expr} :
    E.To w (termsWith n clause whole op v es) w' ts ↔
      ∃ items, E.Each (exprWith n clause whole) w es w' items ∧
        items.mapM (fun item => Expr.ofCall op [v,item]) = .ok ts := by
  induction es generalizing w ts with
  | nil =>
    rw [Binding.termsWith,E.pure,each_nil,List.mapM_nil]
    exact and_congr_right fun _ => ⟨fun h => h ▸ rfl,fun h => (Except.ok.inj h).symm⟩
  | cons e es ih =>
    rw [Binding.termsWith,each_cons]
    simp only [E.bind,E.lift,E.pure,List.mapM_cons,bind_eq_ok_iff]
    refine exists_congr fun w₁ => exists_congr fun item => and_congr_right fun _ => ?_
    constructor
    · rintro ⟨_,t,⟨rfl,ht⟩,_,ts,hts,rfl,rfl⟩
      obtain ⟨items,hitems,hts⟩ := ih.1 hts
      exact ⟨items,hitems,t,ht,ts,hts,rfl⟩
    · rintro ⟨items,hitems,t,ht,ts,hts,heq⟩
      exact ⟨w₁,t,⟨rfl,ht⟩,w',ts,ih.2 ⟨items,hitems,hts⟩,rfl,(Except.ok.inj heq).symm⟩

/-- An expression is bound as a whole or from its parts. -/
theorem Ends.exprWith {e : Sql.Expr} {b : Expr} :
    E.To w (exprWith n clause whole e) w' b ↔ ∃ w₁ r, E.To w (whole e) w₁ r ∧
      match r with
      | some a => w' = w₁ ∧ b = a
      | none => ∃ bs, E.Each (exprWith n clause whole) w₁ e.parts w' bs ∧ assemble n e bs = .ok b := by
  rw [exprWith.eq_def,E.bind]
  refine exists_congr fun w₁ => exists_congr fun r => and_congr_right fun _ => ?_
  cases r with
  | some a => exact E.pure
  | none =>
    cases e <;> simp only [E.bind,E.lift,Ends.termsWith,Sql.Expr.parts,assemble,bind_eq_ok_iff,
      each_nil,each_cons,reduceCtorEq]
    case nested e =>
      constructor
      · intro h
        exact ⟨w',b,h,rfl,rfl⟩
      · rintro ⟨_,_,h,rfl,hb⟩
        cases hb
        exact h
    case binary left op right =>
      constructor
      · rintro ⟨_,o,⟨rfl,ho⟩,w₂,l,hl,w₃,r,hr,hw,hb⟩
        exact ⟨w₂,l,hl,w₃,r,hr,hw,o,ho,hb⟩
      · rintro ⟨w₂,l,hl,w₃,r,hr,hw,o,ho,hb⟩
        exact ⟨w₁,o,⟨rfl,ho⟩,w₂,l,hl,w₃,r,hr,hw,hb⟩
    case inList e list absent =>
      refine exists_congr fun w₂ => exists_congr fun v => and_congr_right fun _ => ?_
      constructor
      · rintro ⟨_,ts,⟨items,hitems,hts⟩,rfl,hb⟩
        exact ⟨items,hitems,ts,hts,hb⟩
      · rintro ⟨items,hitems,ts,hts,hb⟩
        exact ⟨w',ts,⟨items,hitems,hts⟩,rfl,hb⟩

end
end Binding
end QueryPlan
