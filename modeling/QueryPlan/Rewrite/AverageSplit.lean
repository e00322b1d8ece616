import QueryPlan.Rewrite.Rule

/-! # AVG as a quotient of SUM and COUNT -/
namespace QueryPlan.AverageSplit

/-- Adds a call behind the others unless one of them computes the same value. A call
without a name is named by its output position. -/
def place (groups : Nat) (calls : List AggregateCall) (c : AggregateCall) :
    List AggregateCall × Nat :=
  match calls.findIdx? (·.sameComputation c) with
  | some k => (calls,k)
  | none =>
    let name := if c.name == "" then "$f" ++ toString (groups+calls.length) else c.name
    (calls ++ [{ c with name }],calls.length)

/-- The calls that serve `c` and the expression over them that gives its value. An average
is divided, and cast back where the quotient has another type. -/
def splitCall (groups : Nat) (calls : List AggregateCall) (c : AggregateCall) :
    Except QueryError (List AggregateCall × Expr) :=
  if c.function ≠ .avg then
    let (calls,k) := place groups calls c
    .ok (calls,.column (groups+k) c.type)
  else do
    let (calls,s) := place groups calls { c with function := .sum,name := "" }
    let (calls,n) := place groups calls { c with function := .count,type := .bigInt,name := "" }
    let quotient ← Expr.ofCall .divide [.column (groups+s) c.type,.column (groups+n) .bigInt]
    return (calls,if quotient.type = c.type then quotient else quotient.cast c.type)

def splitCalls (groups : Nat) (placed : List AggregateCall) :
    List AggregateCall → Except QueryError (List AggregateCall × List Expr)
  | [] => .ok (placed,[])
  | c :: cs => do
    let (placed,e) ← splitCall groups placed c
    let (placed,es) ← splitCalls groups placed cs
    return (placed,e :: es)

/-- An aggregate without averages and, above it, a projection back to the old columns. -/
def apply : Plan → Except QueryError (Option Plan)
  | .aggregate input groups calls =>
    if calls.any (·.function == .avg) then do
      let old := (Plan.aggregate input groups calls).fields
      let keys := (List.range groups.length).map fun i =>
        Expr.column i (((old[i]?).map Field.type).getD .null)
      let (placed,values) ← splitCalls groups.length [] calls
      return some (.project (.aggregate input groups placed) (keys ++ values) (old.map Field.name))
    else .ok none
  | _ => .ok none

private theorem place_no_avg {g : Nat} {calls : List AggregateCall} {c : AggregateCall}
    (hc : c.function ≠ .avg) (h : ∀ d ∈ calls, d.function ≠ .avg) :
    ∀ d ∈ (place g calls c).1, d.function ≠ .avg := by
  unfold place
  split
  · exact h
  · intro d hd
    rcases List.mem_append.1 hd with hd | hd
    · exact h d hd
    · simp only [List.mem_singleton] at hd
      subst hd
      exact hc

private theorem splitCall_no_avg {g : Nat} {calls placed : List AggregateCall} {c : AggregateCall}
    {e : Expr} (h : ∀ d ∈ calls, d.function ≠ .avg) (hs : splitCall g calls c = .ok (placed,e)) :
    ∀ d ∈ placed, d.function ≠ .avg := by
  unfold splitCall at hs
  split at hs
  · rename_i hc
    simp only [Except.ok.injEq,Prod.mk.injEq] at hs
    rw [← hs.1]
    exact place_no_avg hc h
  · simp only [bind,Except.bind,pure,Except.pure] at hs
    split at hs
    · cases hs
    · simp only [Except.ok.injEq,Prod.mk.injEq] at hs
      rw [← hs.1]
      exact place_no_avg (by simp) (place_no_avg (by simp) h)

/-- No average is left among the calls. -/
theorem splitCalls_no_avg {g : Nat} {cs placed out : List AggregateCall} {es : List Expr}
    (h : ∀ d ∈ placed, d.function ≠ .avg) (hs : splitCalls g placed cs = .ok (out,es)) :
    ∀ d ∈ out, d.function ≠ .avg := by
  induction cs generalizing placed out es with
  | nil =>
    simp only [splitCalls,Except.ok.injEq,Prod.mk.injEq] at hs
    rw [← hs.1]
    exact h
  | cons c cs ih =>
    simp only [splitCalls,bind,Except.bind,pure,Except.pure] at hs
    split at hs
    · cases hs
    · rename_i r hr
      split at hs
      · cases hs
      · rename_i r' hr'
        simp only [Except.ok.injEq,Prod.mk.injEq] at hs
        rw [← hs.1]
        exact ih (splitCall_no_avg h hr) (show _ = Except.ok (r'.1,r'.2) from hr')

private theorem rank_apply (p r : Plan) (h : apply p = .ok (some r)) :
    ∀ q ∈ r.inputs, q.rank < p.rank := by
  cases p <;> simp only [apply] at h <;> try cases h
  rename_i input groups calls
  split at h
  · rename_i hc
    simp only [bind,Except.bind,pure,Except.pure] at h
    split at h
    · cases h
    · rename_i s hs
      simp only [Except.ok.injEq,Option.some.injEq] at h
      subst h
      simp only [Plan.inputs,List.mem_singleton,forall_eq]
      have hn : s.1.any (·.function == .avg) = false := by
        simpa using splitCalls_no_avg (by simp) hs
      simp only [Plan.rank,Plan.isRipe,Plan.height,hn,hc]
      simp
  · cases h

def rule : RewriteRule where
  name := "AggregateReduceFunctions"
  apply := apply
  rank_apply := rank_apply

end QueryPlan.AverageSplit
