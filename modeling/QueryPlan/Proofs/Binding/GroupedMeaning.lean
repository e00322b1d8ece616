import QueryPlan.Proofs.Binding.Assembled
import QueryPlan.Proofs.Binding.Grouping
import QueryPlan.Proofs.Binding.Query
import QueryPlan.Proofs.Rewrite.Meaning

/-! # What expressions over groups mean

Over the rows of an aggregate an expression is bound when its columns lie inside group keys, and has
the value then that it has over the rows of the FROM clause. Calls of aggregates become columns of
their own. -/
namespace QueryPlan

namespace Sql.Expr

/-- The expressions from `e` down to one of its column references, which lies inside all of them. -/
inductive References : Expr → List Expr → Prop
  | name {e : Expr} : Binding.isColumnName e → References e [e]
  | part {e s : Expr} {path : List Expr} : s ∈ e.parts → References s path → References e (e :: path)

theorem References.mem_self {e : Expr} {path : List Expr} (h : e.References path) : e ∈ path := by
  cases h <;> exact List.mem_cons_self

end Sql.Expr

/-- A name means a column. -/
theorem Scope.eq_column_of_resolve {s : Scope} {caseSensitive : Bool} {qualifier : Option String}
    {name : String} {e : Expr} (h : s.resolve caseSensitive qualifier name = .ok e) :
    ∃ i t, e = .column i t := by
  obtain ⟨-,col,i,-,rfl⟩ := resolve_eq_ok_iff.1 h
  exact ⟨i,col.type,rfl⟩

namespace Binding

/-- Which values the computations of a grouped query end in, and what they have gathered then. -/
def gatheringEnds : Ends Gathering Gathered where
  To g x g' a := x.run g = .ok (a,g')
  pure {_ g g' a b} := by
    rw [StateT.run_pure]
    exact ⟨fun h => by cases h; exact ⟨rfl,rfl⟩,fun ⟨hg,hb⟩ => hg ▸ hb ▸ rfl⟩
  lift {_ g g' x b} := by
    cases x with
    | error e => exact ⟨nofun,fun h => nomatch h.2⟩
    | ok a => exact ⟨fun h => by cases h; exact ⟨rfl,rfl⟩,fun ⟨hg,hb⟩ => by cases hb; exact hg ▸ rfl⟩
  bind {_ _ g g' x f b} := by
    rw [StateT.run_bind,bind_eq_ok_iff]
    exact ⟨fun ⟨⟨a,g₁⟩,h⟩ => ⟨g₁,a,h⟩,fun ⟨g₁,a,h⟩ => ⟨(a,g₁),h⟩⟩

/-- Which values computations without effects end in. -/
def plainEnds : Ends (Except QueryError) Unit where
  To _ x _ a := x = .ok a
  pure := ⟨fun h => ⟨rfl,(Except.ok.inj h).symm⟩,fun h => h.2 ▸ rfl⟩
  lift := (and_iff_right rfl).symm
  bind := bind_eq_ok_iff.trans ⟨fun h => ⟨(),h⟩,fun ⟨_,h⟩ => h⟩

variable {n : Names} {keys : List Expr} {clause : Clause}

/-! ## Expressions without aggregates -/

theorem aggregate?_eq_none {e : Sql.Expr} (hagg : e.hasAggregate = false) : e.aggregate? = none := by
  cases e with
  | function name args filter tail =>
    simp only [Sql.Expr.hasAggregate,Bool.or_eq_false_iff,Option.isSome_eq_false_iff,
      Option.isNone_iff_eq_none] at hagg
    exact hagg.1
  | _ => rfl

/-- What is bound as a whole where no aggregate is called: group keys and constants. -/
theorem to_groupedWhole {e : Sql.Expr} {g g' : Gathered} {r : Option Expr}
    (hagg : e.hasAggregate = false) : gatheringEnds.To g (groupedWhole n keys clause e) g' r ↔
      ∃ p, expr n clause e = .ok p ∧ g' = g ∧ match keys.idxOf? p with
        | some i => r = some (.column i p.type)
        | none => if p.columns = [] then r = some p else isColumnName e = false ∧ r = none := by
  have hstep (p : Expr) : gatheringEnds.To g
      (match keys.idxOf? p with
        | some i => return some (.column i p.type)
        | none =>
          if p.columns.isEmpty then return some p
          else if isColumnName e then throw (.notGrouped e.text)
          else return none) g' r ↔ g' = g ∧ match keys.idxOf? p with
      | some i => r = some (.column i p.type)
      | none => if p.columns = [] then r = some p else isColumnName e = false ∧ r = none := by
    cases keys.idxOf? p with
    | some i => exact gatheringEnds.pure
    | none =>
      by_cases hempty : p.columns = []
      · simp only [hempty,List.isEmpty_nil,if_pos]
        exact gatheringEnds.pure
      · have hne : p.columns.isEmpty = false := by simpa using hempty
        simp only [hne,if_neg hempty,Bool.false_eq_true,if_false]
        cases isColumnName e with
        | true => exact ⟨nofun,nofun⟩
        | false => exact gatheringEnds.pure.trans (by simp)
  simp only [groupedWhole,aggregate?_eq_none hagg,hagg,Bool.false_eq_true,if_false]
  rw [gatheringEnds.bind]
  constructor
  · rintro ⟨g₁,p,hplain,h⟩
    obtain ⟨rfl,hp⟩ := gatheringEnds.lift.1 hplain
    exact ⟨p,hp,(hstep p).1 h⟩
  · rintro ⟨p,hp,h⟩
    exact ⟨g,p,gatheringEnds.lift.2 ⟨rfl,hp⟩,(hstep p).2 h⟩

theorem each_plainEnds {es : List Sql.Expr} {ps : List Expr} {w w' : Unit} :
    plainEnds.Each (expr n clause) w es w' ps ↔ es.Forall₂ (fun e p => expr n clause e = .ok p) ps := by
  constructor
  · intro h
    induction h with
    | nil => exact .nil
    | cons h _ ih => exact .cons h ih
  · intro h
    induction h with
    | nil => exact .nil
    | @cons e q _ _ h _ ih =>
      have hfirst : plainEnds.To w (expr n clause e) w q := h
      exact .cons hfirst ih

/-- Without grouping every expression is assembled from its bound parts. -/
theorem expr_eq_ok_iff {e : Sql.Expr} {p : Expr} : expr n clause e = .ok p ↔
    ∃ ps, e.parts.Forall₂ (fun s q => expr n clause s = .ok q) ps ∧ assemble n e ps = .ok p := by
  refine (plainEnds.exprWith : plainEnds.To () (expr n clause e) () p ↔ _).trans ?_
  constructor
  · rintro ⟨_,r,hr,h⟩
    cases hr
    obtain ⟨ps,hps,hp⟩ := h
    exact ⟨ps,each_plainEnds.1 hps,hp⟩
  · rintro ⟨ps,hps,hp⟩
    exact ⟨(),none,rfl,ps,each_plainEnds.2 hps,hp⟩

/-- What is bound alike for each part, whatever has been gathered, is bound so for all parts. -/
theorem each_of_forall₂ (keys : List Expr) {es : List Sql.Expr} {ps : List Expr}
    (hps : es.Forall₂ (fun s q => expr n clause s = .ok q) ps)
    (h : ∀ s ∈ es, ∀ q, expr n clause s = .ok q →
      ∃ b, (∀ g, gatheringEnds.To g (groupedExpr n keys clause s) g b) ∧ Stands keys q b) :
    ∃ bs, (∀ g, gatheringEnds.Each (groupedExpr n keys clause) g es g bs) ∧
      ps.Forall₂ (Stands keys) bs := by
  induction hps with
  | nil => exact ⟨[],fun _ => .nil,.nil⟩
  | cons hq _ ih =>
    obtain ⟨hs,hrest⟩ := List.forall_mem_cons.1 h
    obtain ⟨b,hb,hstands⟩ := hs _ hq
    obtain ⟨bs,hbs,hall⟩ := ih hrest
    exact ⟨b :: bs,fun g => .cons (hb g) (hbs g),.cons hstands hall⟩

/-- A covered expression is bound, whatever has been gathered, to one that stands for its binding
over the FROM rows. -/
theorem groupedExpr_of_covered {e : Sql.Expr} {p : Expr} (hagg : e.hasAggregate = false)
    (hp : expr n clause e = .ok p)
    (hcovered : ∀ path, e.References path → ∃ s ∈ path, ∃ k ∈ keys, expr n clause s = .ok k) :
    ∃ b, (∀ g, gatheringEnds.To g (groupedExpr n keys clause e) g b) ∧ Stands keys p b := by
  induction e using Sql.Expr.byParts generalizing p with
  | step e ih =>
  have hconnected : p.Connected := (expr_bound (fun _ _ _ => names_bound) hp).connected
  -- The three ways to bind it follow what is bound as a whole: keys, constants and nothing else.
  cases hkey : keys.idxOf? p with
  | some i =>
    refine ⟨_,fun g => gatheringEnds.exprWith.2 ⟨g,some _,(to_groupedWhole hagg).2 ⟨p,hp,rfl,?_⟩,
      rfl,rfl⟩,.key hconnected hkey⟩
    rw [hkey]
  | none =>
    by_cases hc : p.columns = []
    · refine ⟨p,fun g => gatheringEnds.exprWith.2 ⟨g,some p,(to_groupedWhole hagg).2 ⟨p,hp,rfl,?_⟩,
        rfl,rfl⟩,.constant hconnected hc⟩
      simp only [hkey,if_pos hc]
    · have hnotKey : ¬ ∃ k ∈ keys, expr n clause e = .ok k := by
        rintro ⟨k,hk,he⟩
        rw [hp] at he
        cases he
        exact List.idxOf?_eq_none_iff.1 hkey hk
      have hname : isColumnName e = false := by
        by_contra hname
        obtain ⟨s,hs,hkey⟩ := hcovered [e] (.name (by simpa using hname))
        cases List.mem_singleton.1 hs
        exact hnotKey hkey
      obtain ⟨ps,hps,hassemble⟩ := expr_eq_ok_iff.1 hp
      obtain ⟨bs,hbs,hall⟩ := each_of_forall₂ keys hps fun s hs q hq => by
        refine ih s hs (Sql.Expr.hasAggregate_of_mem_parts hagg hs) hq fun path hpath => ?_
        obtain ⟨s',hs',hkey⟩ := hcovered (e :: path) (.part hs hpath)
        rcases List.mem_cons.1 hs' with rfl|hs'
        · exact absurd hkey hnotKey
        · exact ⟨s',hs',hkey⟩
      obtain ⟨b,hb,hstands⟩ := Stands.assemble hname hall hassemble hc
      refine ⟨b,fun g => gatheringEnds.exprWith.2 ⟨g,none,(to_groupedWhole hagg).2 ⟨p,hp,rfl,?_⟩,bs,
        hbs g,hb⟩,hstands⟩
      simp only [hkey,if_neg hc]
      exact ⟨hname,trivial⟩

/-- A name that is bound is bound to a column. -/
theorem columns_ne_nil_of_isColumnName {e : Sql.Expr} {p : Expr} (hname : isColumnName e)
    (hp : expr n clause e = .ok p) : p.columns ≠ [] := by
  have hcolumn {qualifier : Option String} {name : String}
      (h : n.resolve qualifier name = .ok p) : p.columns ≠ [] := by
    obtain ⟨i,t,rfl⟩ := Scope.eq_column_of_resolve h
    exact List.ne_nil_of_mem (Expr.mem_columns.2 List.mem_cons_self)
  obtain ⟨ps,hps,hp⟩ := expr_eq_ok_iff.1 hp
  cases e with
  | identifier name =>
    cases hps
    exact hcolumn hp
  | compound parts =>
    cases hps
    rw [assemble,Names.resolveParts.eq_def] at hp
    split at hp
    · cases hp
    · exact hcolumn hp
    · exact hcolumn hp
  | _ => cases hname

/-- An expression with a column reference is bound to one with a column. -/
theorem columns_ne_nil {e : Sql.Expr} {path : List Sql.Expr} {p : Expr} (href : e.References path)
    (hp : expr n clause e = .ok p) : p.columns ≠ [] := by
  induction href generalizing p with
  | name hname => exact columns_ne_nil_of_isColumnName hname hp
  | part hs _ ih =>
    obtain ⟨ps,hps,hassemble⟩ := expr_eq_ok_iff.1 hp
    obtain ⟨q,hq,hbind⟩ := exists_of_forall₂ hps hs
    obtain ⟨i,hi⟩ := List.exists_mem_of_ne_nil _ (ih hbind)
    have hmem := mem_occurrences_assemble hassemble hq (Expr.mem_columns.1 hi)
    exact List.ne_nil_of_mem (Expr.mem_columns.2 hmem)

theorem mem_of_each {α β : Type} {f : α → Gathering β} {xs : List α} {ys : List β} {g g' : Gathered}
    (h : gatheringEnds.Each f g xs g' ys) : ∀ x ∈ xs, ∃ g₁ y g₂, gatheringEnds.To g₁ (f x) g₂ y := by
  induction h with
  | nil => simp
  | cons h _ ih => exact List.forall_mem_cons.2 ⟨⟨_,_,_,h⟩,ih⟩

/-- An expression that is bound over groups is covered. -/
theorem covered_of_groupedExpr {e : Sql.Expr} {b : Expr} {g g' : Gathered}
    (hagg : e.hasAggregate = false) (h : gatheringEnds.To g (groupedExpr n keys clause e) g' b) :
    (∃ p, expr n clause e = .ok p) ∧
      ∀ path, e.References path → ∃ s ∈ path, ∃ k ∈ keys, expr n clause s = .ok k := by
  induction e using Sql.Expr.byParts generalizing g g' b with
  | step e ih =>
  obtain ⟨g₁,r,hwhole,h⟩ := gatheringEnds.exprWith.1 h
  obtain ⟨p,hp,rfl,hr⟩ := (to_groupedWhole hagg).1 hwhole
  refine ⟨⟨p,hp⟩,fun path hpath => ?_⟩
  cases hkey : keys.idxOf? p with
  | some i =>
    obtain ⟨hlt,heq,-⟩ := List.findIdx?_eq_some_iff_getElem.1 hkey
    exact ⟨e,hpath.mem_self,p,eq_of_beq heq ▸ List.getElem_mem hlt,hp⟩
  | none =>
    simp only [hkey,if_neg (columns_ne_nil hpath hp)] at hr
    obtain ⟨hname,rfl⟩ := hr
    obtain ⟨bs,hbs,-⟩ := h
    cases hpath with
    | name h => exact absurd h (by simp [hname])
    | part hs hpath =>
      obtain ⟨g₁,y,g₂,hy⟩ := mem_of_each hbs _ hs
      obtain ⟨s',hs',hkey⟩ := (ih _ hs (Sql.Expr.hasAggregate_of_mem_parts hagg hs) hy).2 _ hpath
      exact ⟨s',List.mem_cons_of_mem _ hs',hkey⟩

/-! ## Calls of aggregates -/

/-- A binding over what a grouped query has gathered: calls of aggregates are columns behind the
group keys, expressions without them are bound alike whatever has been gathered, and all others are
assembled from their parts. -/
inductive Placed (n : Names) (keys : List Expr) (clause : Clause) (g : Gathered) :
    Sql.Expr → Expr → Prop
  /-- A call over the input that its argument is bound to over FROM rows. -/
  | argument {name : Sql.ObjectName} {arg : Sql.Expr} {filter : Option Sql.Expr} {tail : Sql.CallTail}
    {f : AggregateFunction} {k i : Nat} {call : AggregateCall} {input : Expr} :
    AggregateFunction.ofName? name.text = some f → g.calls[k]? = some call → call.function = f →
    call.distinct = tail.distinct → call.args = [i] → g.inputs[i]? = some input →
    expr n .aggregateArgument arg = .ok input →
    Placed n keys clause g (.function name [.expr arg] filter tail)
      (.column (keys.length+k) (f.resultType (some input.type)))
  /-- A count of rows. -/
  | rows {name : Sql.ObjectName} {args : List Sql.FunctionArg} {filter : Option Sql.Expr}
    {tail : Sql.CallTail} {k : Nat} {call : AggregateCall} :
    AggregateFunction.ofName? name.text = some .count → args = [] ∨ args = [.wildcard] →
    g.calls[k]? = some call → call.function = .count → call.distinct = tail.distinct →
    call.args = [] →
    Placed n keys clause g (.function name args filter tail) (.column (keys.length+k) .bigInt)
  | plain {e : Sql.Expr} {b : Expr} : e.hasAggregate = false →
    (∀ g, (groupedExpr n keys clause e).run g = .ok (b,g)) → Placed n keys clause g e b
  | assembled {e : Sql.Expr} {bs : List Expr} {b : Expr} : e.hasAggregate → e.aggregate? = none →
    e.parts.Forall₂ (Placed n keys clause g) bs → assemble n e bs = .ok b → Placed n keys clause g e b

theorem getElem?_mono {α : Type} {xs ys : List α} {i : Nat} {x : α} (h : xs <+: ys)
    (hx : xs[i]? = some x) : ys[i]? = some x := by
  obtain ⟨rest,rfl⟩ := h
  rw [List.getElem?_append_left (List.getElem?_eq_some_iff.1 hx).1,hx]

theorem inputOf_to {e : Expr} {i : Nat} {g g' : Gathered} (h : gatheringEnds.To g (inputOf e) g' i) :
    g ≤ g' ∧ g'.inputs[i]? = some e := by
  obtain ⟨hi,rfl|⟨-,rfl⟩⟩ := inputOf_eq_ok h
  · exact ⟨le_rfl,hi⟩
  · exact ⟨⟨List.prefix_append _ _,List.prefix_refl _⟩,hi⟩

theorem callOf_to {c : AggregateCall} {i keyCount : Nat} {g g' : Gathered}
    (h : gatheringEnds.To g (callOf keyCount c) g' i) :
    g ≤ g' ∧ ∃ d, g'.calls[i]? = some d ∧ d.function = c.function ∧ d.distinct = c.distinct ∧
      d.args = c.args := by
  obtain ⟨hd,rfl|⟨-,name,rfl⟩⟩ := callOf_eq_ok h
  · exact ⟨le_rfl,hd⟩
  · exact ⟨⟨List.prefix_refl _,List.prefix_append _ _⟩,hd⟩

/-- The argument of a call is bound over the FROM rows; only a count of rows has none. -/
theorem aggregateArgument_ok {f : AggregateFunction} {distinct : Bool} {args : List Sql.FunctionArg}
    {arg : Option Expr} (h : aggregateArgument n f distinct args = .ok arg) :
    (∃ e input, args = [.expr e] ∧ expr n .aggregateArgument e = .ok input ∧ arg = some input) ∨
      arg = none ∧ f = .count ∧ (args = [] ∨ args = [.wildcard]) := by
  unfold aggregateArgument at h
  split at h
  · obtain ⟨input,hinput,h⟩ := bind_eq_ok_iff.1 h
    cases h
    exact .inl ⟨_,input,rfl,hinput,rfl⟩
  · have hnone {p : Bool} {e : QueryError}
        (h : (if f = .count && p then .ok none else .error e) = Except.ok arg) :
        arg = none ∧ f = .count := by
      split at h
      · rename_i hcount
        simp only [Bool.and_eq_true,decide_eq_true_eq] at hcount
        exact ⟨(Except.ok.inj h).symm,hcount.1⟩
      · cases h
    split at h
    · exact .inr ⟨(hnone h).1,(hnone h).2,.inl rfl⟩
    · exact .inr ⟨(hnone h).1,(hnone h).2,.inr rfl⟩
    · cases h

/-- A call of an aggregate puts its argument among the inputs, if it has one, and itself among the
calls. -/
theorem aggregateCall_to {args : List Sql.FunctionArg} {tail : Sql.CallTail} {f : AggregateFunction}
    {keyCount : Nat} {b : Expr} {g g' : Gathered}
    (h : gatheringEnds.To g (aggregateCall n keyCount f args tail) g' b) :
    ∃ arg inputs g₁ k, aggregateArgument n f tail.distinct args = .ok arg ∧
      checkArgument f (arg.map Expr.type) = .ok () ∧
      (∀ input, arg = some input → ∃ i, gatheringEnds.To g (inputOf input) g₁ i ∧ inputs = [i]) ∧
      (arg = none → g₁ = g ∧ inputs = []) ∧
      gatheringEnds.To g₁ (callOf keyCount
        ⟨f,tail.distinct,inputs,f.resultType (arg.map Expr.type),""⟩) g' k ∧
      b = .column (keyCount+k) (f.resultType (arg.map Expr.type)) := by
  unfold aggregateCall at h
  split at h
  · obtain ⟨_,_,hthrow,_⟩ := gatheringEnds.bind.1 h
    cases hthrow
  obtain ⟨g₁,arg,hlift,h₁⟩ := gatheringEnds.bind.1 h
  obtain ⟨hg₁,harg⟩ := gatheringEnds.lift.1 hlift
  obtain ⟨g₂,_,hcheck,h₂⟩ := gatheringEnds.bind.1 h₁
  obtain ⟨hg₂,hchecked⟩ := gatheringEnds.lift.1 hcheck
  obtain rfl : g₂ = g := hg₂.trans hg₁
  cases arg with
  | none =>
    obtain ⟨g₃,inputs,hpure,h₃⟩ := gatheringEnds.bind.1 h₂
    obtain ⟨rfl,rfl⟩ := gatheringEnds.pure.1 hpure
    obtain ⟨g₄,k,hk,h₄⟩ := gatheringEnds.bind.1 h₃
    obtain ⟨rfl,rfl⟩ := gatheringEnds.pure.1 h₄
    exact ⟨none,[],_,k,harg,hchecked,nofun,fun _ => ⟨rfl,rfl⟩,hk,rfl⟩
  | some input =>
    obtain ⟨g₃,i,hi,h₃⟩ := gatheringEnds.bind.1 h₂
    obtain ⟨g₄,inputs,hpure,h₄⟩ := gatheringEnds.bind.1 h₃
    obtain ⟨rfl,rfl⟩ := gatheringEnds.pure.1 hpure
    obtain ⟨g₅,k,hk,h₅⟩ := gatheringEnds.bind.1 h₄
    obtain ⟨rfl,rfl⟩ := gatheringEnds.pure.1 h₅
    refine ⟨some input,[i],_,k,harg,hchecked,fun input' heq => ?_,nofun,hk,rfl⟩
    cases heq
    exact ⟨i,hi,rfl⟩

/-- A call of an aggregate is bound to the column of the call it is placed at. -/
theorem aggregateCall_placed {name : Sql.ObjectName} {args : List Sql.FunctionArg}
    {filter : Option Sql.Expr} {tail : Sql.CallTail} {f : AggregateFunction} {b : Expr} {g g' : Gathered}
    (hf : AggregateFunction.ofName? name.text = some f)
    (h : gatheringEnds.To g (aggregateCall n keys.length f args tail) g' b) :
    g ≤ g' ∧ ∀ g'', g' ≤ g'' → Placed n keys clause g'' (.function name args filter tail) b := by
  obtain ⟨arg,inputs,g₁,k,harg,-,hsome,hnone,hk,rfl⟩ := aggregateCall_to h
  obtain ⟨hle',call,hcall,hfunction,hdistinct,hargs⟩ := callOf_to hk
  rcases aggregateArgument_ok harg with ⟨e,input,rfl,hinput,rfl⟩|⟨rfl,rfl,hwild⟩
  · obtain ⟨i,hi,rfl⟩ := hsome _ rfl
    obtain ⟨hle,hinputs⟩ := inputOf_to hi
    exact ⟨le_trans hle hle',fun g'' hg => .argument hf (getElem?_mono hg.2 hcall) hfunction
      hdistinct hargs (getElem?_mono (hle'.1.trans hg.1) hinputs) hinput⟩
  · obtain ⟨rfl,rfl⟩ := hnone rfl
    exact ⟨hle',fun g'' hg => .rows hf hwild (getElem?_mono hg.2 hcall) hfunction hdistinct hargs⟩

/-- What is placed part by part is placed once all parts are. -/
theorem each_placed {es : List Sql.Expr} {bs : List Expr} {g g' : Gathered}
    (h : gatheringEnds.Each (groupedExpr n keys clause) g es g' bs)
    (hplaced : ∀ s ∈ es, ∀ {g g' b}, gatheringEnds.To g (groupedExpr n keys clause s) g' b →
      g ≤ g' ∧ ∀ g'', g' ≤ g'' → Placed n keys clause g'' s b) :
    g ≤ g' ∧ ∀ g'', g' ≤ g'' → es.Forall₂ (Placed n keys clause g'') bs := by
  induction h with
  | nil => exact ⟨le_rfl,fun _ _ => .nil⟩
  | cons hb _ ih =>
    obtain ⟨hs,hrest⟩ := List.forall_mem_cons.1 hplaced
    obtain ⟨hle,hb⟩ := hs hb
    obtain ⟨hle',hbs⟩ := ih hrest
    exact ⟨le_trans hle hle',fun g'' hg => .cons (hb g'' (le_trans hle' hg)) (hbs g'' hg)⟩

/-- A bound expression is placed, and stays so while more is gathered. -/
theorem groupedExpr_placed {e : Sql.Expr} {b : Expr} {g g' : Gathered}
    (h : gatheringEnds.To g (groupedExpr n keys clause e) g' b) :
    g ≤ g' ∧ ∀ g'', g' ≤ g'' → Placed n keys clause g'' e b := by
  induction e using Sql.Expr.byParts generalizing g g' b with
  | step e ih =>
  cases hagg : e.hasAggregate with
  | false =>
    obtain ⟨⟨p,hp⟩,hcovered⟩ := covered_of_groupedExpr hagg h
    obtain ⟨b',hb',-⟩ := groupedExpr_of_covered hagg hp hcovered
    cases (hb' g).symm.trans h
    exact ⟨le_rfl,fun g'' _ => .plain hagg hb'⟩
  | true =>
    obtain ⟨g₁,r,hwhole,h⟩ := gatheringEnds.exprWith.1 h
    cases hf : e.aggregate? with
    | some f =>
      cases e with
      | function name args filter tail =>
        simp only [groupedWhole,hf] at hwhole
        obtain ⟨g₂,b',hcall,hpure⟩ := gatheringEnds.bind.1 hwhole
        obtain ⟨rfl,rfl⟩ := gatheringEnds.pure.1 hpure
        obtain ⟨rfl,rfl⟩ := h
        exact aggregateCall_placed hf hcall
      | _ => cases hf
    | none =>
      simp only [groupedWhole,hf,hagg,if_true] at hwhole
      obtain ⟨rfl,rfl⟩ := gatheringEnds.pure.1 hwhole
      obtain ⟨bs,hbs,hb⟩ := h
      obtain ⟨hle,hall⟩ := each_placed hbs fun s hs _ _ _ => ih s hs
      exact ⟨hle,fun g'' hg => .assembled hagg hf (hall g'' hg) hb⟩

/-- Output columns of a grouped query are placed over all that it gathers. -/
theorem mapM_placed {ts : List Target} {es : List Expr} {g g' : Gathered}
    (h : gatheringEnds.To g (ts.mapM (Target.bindGrouped n keys)) g' es) :
    g ≤ g' ∧ ∀ g'', g' ≤ g'' →
      ts.Forall₂ (fun t b => ∀ e label, t = .expr e label → Placed n keys .select g'' e b) es := by
  induction ts generalizing g es with
  | nil =>
    rw [List.mapM_nil] at h
    obtain ⟨rfl,rfl⟩ := gatheringEnds.pure.1 h
    exact ⟨le_rfl,fun _ _ => .nil⟩
  | cons t ts ih =>
    rw [List.mapM_cons] at h
    obtain ⟨g₁,b,hb,hrest⟩ := gatheringEnds.bind.1 h
    obtain ⟨g₂,bs,hbs,hpure⟩ := gatheringEnds.bind.1 hrest
    obtain ⟨rfl,rfl⟩ := gatheringEnds.pure.1 hpure
    obtain ⟨hle,hplaced⟩ : g ≤ g₁ ∧ ∀ g'', g₁ ≤ g'' →
        ∀ e label, t = .expr e label → Placed n keys .select g'' e b := by
      cases t with
      | expr e label =>
        obtain ⟨hle,hplaced⟩ := groupedExpr_placed hb
        refine ⟨hle,fun g'' hg _ _ heq => ?_⟩
        cases heq
        exact hplaced g'' hg
      | column i c => exact ⟨(gatheringEnds.lift.1 hb).1.ge,fun _ _ _ _ heq => nomatch heq⟩
    obtain ⟨hle',hall⟩ := ih hbs
    exact ⟨le_trans hle hle',fun g'' hg => .cons (hplaced g'' (le_trans hle' hg)) (hall g'' hg)⟩

/-- The output columns of a grouped query are bound first, and then its condition. -/
theorem gather_to {ts : List Target} {having : Option Sql.Expr} {es : List Expr}
    {condition : Option Expr} {g : Gathered} (h : gather n keys ts having = .ok ((es,condition),g)) :
    ∃ g₁, gatheringEnds.To ⟨keys,[]⟩ (ts.mapM (Target.bindGrouped n keys)) g₁ es ∧
      (having = none ∧ condition = none ∧ g = g₁ ∨ ∃ e b, having = some e ∧ condition = some b ∧
        gatheringEnds.To g₁ (groupedExpr n keys .having e) g b) := by
  obtain ⟨g₁,es',hes,hrest⟩ := gatheringEnds.bind.1
    (show gatheringEnds.To ⟨keys,[]⟩ _ g (es,condition) from h)
  obtain ⟨g₂,condition',hcondition,hpure⟩ := gatheringEnds.bind.1 hrest
  obtain ⟨rfl,heq⟩ := gatheringEnds.pure.1 hpure
  cases heq
  refine ⟨g₁,hes,?_⟩
  cases having with
  | none =>
    obtain ⟨rfl,rfl⟩ := gatheringEnds.pure.1 hcondition
    exact .inl ⟨rfl,rfl,rfl⟩
  | some e =>
    rw [Option.mapM_some,map_eq_pure_bind] at hcondition
    obtain ⟨g₂,b,hb,hsome⟩ := gatheringEnds.bind.1 hcondition
    obtain ⟨rfl,rfl⟩ := gatheringEnds.pure.1 hsome
    obtain ⟨g₃,b',hb',hcheck⟩ := gatheringEnds.bind.1 hb
    obtain ⟨g₄,_,hlift,hreturn⟩ := gatheringEnds.bind.1 hcheck
    obtain ⟨rfl,-⟩ := gatheringEnds.lift.1 hlift
    obtain ⟨rfl,rfl⟩ := gatheringEnds.pure.1 hreturn
    exact .inr ⟨e,_,rfl,rfl,hb'⟩

/-- The output columns and the condition of a grouped query are placed over the inputs and the calls
of its aggregate. -/
theorem gather_placed {ts : List Target} {having : Option Sql.Expr} {es : List Expr}
    {condition : Option Expr} {g : Gathered} (h : gather n keys ts having = .ok ((es,condition),g)) :
    ts.Forall₂ (fun t b => ∀ e label, t = .expr e label → Placed n keys .select g e b) es ∧
      ∀ e, having = some e → ∃ b, condition = some b ∧ Placed n keys .having g e b := by
  obtain ⟨g₁,hes,⟨rfl,-,rfl⟩|⟨e,b,rfl,rfl,hb⟩⟩ := gather_to h
  · obtain ⟨-,hall⟩ := mapM_placed hes
    exact ⟨hall _ le_rfl,nofun⟩
  · obtain ⟨-,hall⟩ := mapM_placed hes
    obtain ⟨hle,hplaced⟩ := groupedExpr_placed hb
    refine ⟨hall _ hle,fun e' he => ?_⟩
    cases he
    exact ⟨_,rfl,hplaced _ le_rfl⟩

/-- Binding over groups is exact and sound. An expression without aggregates is bound exactly when
it is over the FROM rows and each of its column references lies inside an expression that is bound
to a group key; its value over the group keys of a row is then its value over this row, whatever the
operators mean. Every call of an aggregate is bound to the column of its own call, whose argument is
the input that its argument is bound to over the FROM rows. -/
theorem groupedExpr_exact (n : Names) (keys : List Expr) (clause : Clause) (e : Sql.Expr) :
    (e.hasAggregate = false → ∀ g : Gathered,
      ((∃ r, (groupedExpr n keys clause e).run g = .ok r) ↔ (∃ p, expr n clause e = .ok p) ∧
        ∀ path, e.References path → ∃ s ∈ path, ∃ k ∈ keys, expr n clause s = .ok k) ∧
      ∀ p b g', expr n clause e = .ok p → (groupedExpr n keys clause e).run g = .ok (b,g') →
        g' = g ∧ b.type = p.type ∧ ∀ {V : Type} (S : Semantics V), S.Associative → ∀ row,
          S.eval (keys.map (S.eval row)) b = S.eval row p) ∧
    ∀ b g g', (groupedExpr n keys clause e).run g = .ok (b,g') →
      ∀ g'', g' ≤ g'' → Placed n keys clause g'' e b := by
  refine ⟨fun hagg g => ⟨⟨?_,?_⟩,?_⟩,fun b g g' h => (groupedExpr_placed h).2⟩
  · rintro ⟨⟨b,g'⟩,h⟩
    exact covered_of_groupedExpr hagg h
  · rintro ⟨⟨p,hp⟩,hcovered⟩
    obtain ⟨b,hb,-⟩ := groupedExpr_of_covered hagg hp hcovered
    exact ⟨_,hb g⟩
  · intro p b g' hp h
    obtain ⟨b',hb',hstands⟩ := groupedExpr_of_covered hagg hp (covered_of_groupedExpr hagg h).2
    cases (hb' g).symm.trans h
    exact ⟨rfl,hstands.type,hstands.eval⟩

section

deriving instance DecidableEq for Gathered

def overOrders : Names := ⟨.ofTable "orders" orders,true⟩

private def named (text : String) : Sql.Expr := .identifier ⟨text,none⟩

private def exceeds (e : Sql.Expr) (number : String) : Sql.Expr :=
  .binary e .gt (.value (.number number false))

/-- `(customer = 1 AND total > 3) AND total > 9` -/
def largeOrder : Sql.Expr :=
  .binary (.binary (.binary (named "customer") .eq (.value (.number "1" false))) .and
    (exceeds (named "total") "3")) .and (exceeds (named "total") "9")

/-- `SUM(id) > total` -/
def sumExceeds : Sql.Expr :=
  .binary (.function [⟨"SUM",none⟩] [.expr (named "id")] none {}) .gt (named "total")

/-- `total` and `customer = 1 AND total > 3` over the rows of `orders`. -/
def totalKeys : List Expr :=
  [.column 1 .integer,
    .call .and [.call .eq [.column 2 .integer,.literal (.integer 1)] .boolean,
      .call .gt [.column 1 .integer,.literal (.integer 3)] .boolean] .boolean]

/-- A conjunction of three over the rows is one of two over the groups. The argument of the sum goes
behind the keys. -/
theorem groupedExpr_exact_totals :
    largeOrder.hasAggregate = false ∧
    expr overOrders .having largeOrder = .ok (.call .and
      [.call .eq [.column 2 .integer,.literal (.integer 1)] .boolean,
        .call .gt [.column 1 .integer,.literal (.integer 3)] .boolean,
        .call .gt [.column 1 .integer,.literal (.integer 9)] .boolean] .boolean) ∧
    (∀ row, counting.semantics.eval (totalKeys.map (counting.semantics.eval row)) (.call .and
        [.column 1 .boolean,.call .gt [.column 0 .integer,.literal (.integer 9)] .boolean] .boolean)
      = counting.semantics.eval row (.call .and
        [.call .eq [.column 2 .integer,.literal (.integer 1)] .boolean,
          .call .gt [.column 1 .integer,.literal (.integer 3)] .boolean,
          .call .gt [.column 1 .integer,.literal (.integer 9)] .boolean] .boolean)) ∧
    Placed overOrders totalKeys .having
      ⟨totalKeys ++ [.column 0 .integer],[⟨.sum,false,[2],.integer,"$f2"⟩]⟩ sumExceeds
      (.call .gt [.column 2 .integer,.column 0 .integer] .boolean) := by
  have hagg : largeOrder.hasAggregate = false := rfl
  have hexact := (groupedExpr_exact overOrders totalKeys .having largeOrder).1 hagg ⟨totalKeys,[]⟩
  have hplain : expr overOrders .having largeOrder = .ok (.call .and
      [.call .eq [.column 2 .integer,.literal (.integer 1)] .boolean,
        .call .gt [.column 1 .integer,.literal (.integer 3)] .boolean,
        .call .gt [.column 1 .integer,.literal (.integer 9)] .boolean] .boolean) := by decide +kernel
  refine ⟨hagg,hplain,?_,?_⟩
  · exact (hexact.2 _ _ ⟨totalKeys,[]⟩ hplain (by decide +kernel)).2.2 counting.semantics
      counting.semantics_associative
  · exact (groupedExpr_exact overOrders totalKeys .having sumExceeds).2 _ ⟨totalKeys,[]⟩ _
      (by decide +kernel) _ le_rfl

end

end Binding
end QueryPlan
