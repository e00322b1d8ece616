import QueryPlan.Proofs.Expr.Calls
import QueryPlan.Proofs.Meaning.Picking
import QueryPlan.Proofs.Rewrite.Rows
import Mathlib.Data.List.GetD

/-! # Split averages keep columns and rows

Calls placed once are never moved, so an expression over them stays right while more calls are placed. -/
namespace QueryPlan.AverageSplit
open Plan

/-- At a place among the calls stands one that computes the same value. -/
def Held (calls : List AggregateCall) (c : AggregateCall) (k : Nat) : Prop :=
  ∃ d, calls[k]? = some d ∧ d.function = c.function ∧ d.distinct = c.distinct ∧ d.args = c.args

/-- The quotient that an average is replaced by, for a sum and a count at given columns. -/
def quotient (type : SqlType) (sum count : Nat) (t : SqlType) : Expr :=
  .call .divide [.column sum type,.column count .bigInt] t

/-- An expression over keys and calls has the value of a call of the old aggregate. -/
def Serves (groups : Nat) (calls : List AggregateCall) (c : AggregateCall) (e : Expr) : Prop :=
  if c.function ≠ .avg then ∃ k, Held calls c k ∧ e = .column (groups+k) c.type
  else ∃ s n t, Held calls { c with function := .sum } s ∧
    Held calls { c with function := .count,type := .bigInt } n ∧
    Operator.divide.resultType? [c.type,.bigInt] = some t ∧
    e = if t = c.type then quotient c.type (groups+s) (groups+n) t
      else (quotient c.type (groups+s) (groups+n) t).cast c.type

theorem Held.mono {calls calls' : List AggregateCall} {c : AggregateCall} {k : Nat}
    (h : Held calls c k) (hp : calls <+: calls') : Held calls' c k := by
  obtain ⟨d,hd,hc⟩ := h
  obtain ⟨rest,rfl⟩ := hp
  refine ⟨d,?_,hc⟩
  rwa [List.getElem?_append_left (List.getElem?_eq_some_iff.1 hd).1]

theorem Serves.mono {groups : Nat} {calls calls' : List AggregateCall} {c : AggregateCall} {e : Expr}
    (h : Serves groups calls c e) (hp : calls <+: calls') : Serves groups calls' c e := by
  unfold Serves at h ⊢
  split at h
  · rename_i hc
    obtain ⟨k,hk,rfl⟩ := h
    rw [if_pos hc]
    exact ⟨k,hk.mono hp,rfl⟩
  · rename_i hc
    obtain ⟨s,n,t,hs,hn,ht,rfl⟩ := h
    rw [if_neg hc]
    exact ⟨s,n,t,hs.mono hp,hn.mono hp,ht,rfl⟩

/-! ## Placing calls -/

variable {groups k : Nat} {calls placed : List AggregateCall} {c : AggregateCall} {types : List SqlType}

theorem place_spec (h : place groups calls c = (placed,k)) :
    calls <+: placed ∧ Held placed c k ∧
      ∀ d ∈ placed, d ∈ calls ∨ d = { c with name := d.name } := by
  unfold place at h
  split at h
  · rename_i i hi
    cases h
    obtain ⟨hlt,hsame,-⟩ := List.findIdx?_eq_some_iff_getElem.1 hi
    simp only [AggregateCall.sameComputation,Bool.and_eq_true,beq_iff_eq] at hsame
    exact ⟨List.prefix_refl _,⟨_,List.getElem?_eq_getElem hlt,hsame.1.1,hsame.1.2,hsame.2⟩,
      fun d hd => .inl hd⟩
  · cases h
    refine ⟨List.prefix_append _ _,⟨_,List.getElem?_concat_length,rfl,rfl,rfl⟩,fun d hd => ?_⟩
    rcases List.mem_append.1 hd with hd|hd
    · exact .inl hd
    · rw [List.mem_singleton.1 hd]
      exact .inr rfl

/-- A property of calls that hangs on no name and goes over to the sum and the count of an average. -/
structure SplitsInto (P : AggregateCall → Prop) : Prop where
  name : ∀ c name, P c → P { c with name }
  sum : ∀ c, c.function = .avg → P c → P { c with function := .sum }
  count : ∀ c, P c → P { c with function := .count,type := .bigInt }

theorem SplitsInto.place {P : AggregateCall → Prop} (hP : SplitsInto P)
    (h : place groups calls c = (placed,k)) (hcalls : ∀ d ∈ calls, P d) (hc : P c) :
    ∀ d ∈ placed, P d := by
  intro d hd
  rcases (place_spec h).2.2 d hd with hd|hd
  · exact hcalls d hd
  · rw [hd]
    exact hP.name c d.name hc

theorem splitCall_spec {e : Expr} (h : splitCall groups calls c = .ok (placed,e)) :
    calls <+: placed ∧ Serves groups placed c e := by
  unfold splitCall at h
  split at h
  · rename_i hc
    obtain ⟨hp,hk,-⟩ := place_spec (show place groups calls c = (_,_) from rfl)
    cases h
    exact ⟨hp,by rw [Serves,if_pos hc]; exact ⟨_,hk,rfl⟩⟩
  · rename_i hc
    obtain ⟨hp,hs,-⟩ := place_spec
      (show place groups calls { c with function := .sum,name := "" } = (_,_) from rfl)
    obtain ⟨hp',hn,-⟩ := place_spec
      (show place groups (place groups calls { c with function := .sum,name := "" }).1
        { c with function := .count,type := .bigInt,name := "" } = (_,_) from rfl)
    obtain ⟨q,hq,h⟩ := bind_eq_ok_iff.1 h
    obtain ⟨t,ht,rfl⟩ := Expr.ofCall_eq_ok_iff.1 hq
    cases h
    refine ⟨hp.trans hp',?_⟩
    rw [Serves,if_neg hc]
    exact ⟨_,_,t,hs.mono hp',hn,ht,rfl⟩

theorem SplitsInto.splitCall {P : AggregateCall → Prop} (hP : SplitsInto P) {e : Expr}
    (h : splitCall groups calls c = .ok (placed,e)) (hcalls : ∀ d ∈ calls, P d) (hc : P c) :
    ∀ d ∈ placed, P d := by
  unfold AverageSplit.splitCall at h
  split at h
  · cases h
    exact hP.place rfl hcalls hc
  · rename_i havg
    obtain ⟨q,-,h⟩ := bind_eq_ok_iff.1 h
    cases h
    have hsum := hP.name _ "" (hP.sum c (not_not.1 havg) hc)
    exact hP.place rfl (hP.place rfl hcalls hsum) (hP.name _ "" (hP.count c hc))

theorem splitCalls_spec {cs out : List AggregateCall} {es : List Expr}
    (h : splitCalls groups placed cs = .ok (out,es)) :
    placed <+: out ∧ cs.Forall₂ (Serves groups out) es := by
  induction cs generalizing placed es with
  | nil =>
    cases h
    exact ⟨List.prefix_refl _,.nil⟩
  | cons c cs ih =>
    obtain ⟨⟨calls,e⟩,hc,h⟩ := bind_eq_ok_iff.1 h
    obtain ⟨⟨calls',es'⟩,hcs,h⟩ := bind_eq_ok_iff.1 h
    cases h
    obtain ⟨hp,he⟩ := splitCall_spec hc
    obtain ⟨hp',hes⟩ := ih hcs
    exact ⟨hp.trans hp',.cons (he.mono hp') hes⟩

/-- What the old calls have, all calls placed for them have. -/
theorem SplitsInto.splitCalls {P : AggregateCall → Prop} (hP : SplitsInto P)
    {cs out : List AggregateCall} {es : List Expr} (h : splitCalls groups placed cs = .ok (out,es))
    (hplaced : ∀ d ∈ placed, P d) (hcs : ∀ c ∈ cs, P c) : ∀ d ∈ out, P d := by
  induction cs generalizing placed es with
  | nil =>
    cases h
    exact hplaced
  | cons c cs ih =>
    obtain ⟨⟨calls,e⟩,hc,h⟩ := bind_eq_ok_iff.1 h
    obtain ⟨⟨calls',es'⟩,hrest,h⟩ := bind_eq_ok_iff.1 h
    cases h
    obtain ⟨hP',hcs⟩ := List.forall_mem_cons.1 hcs
    exact ih hrest (hP.splitCall hc hplaced hP') hcs

theorem splitsInto_fits (types : List SqlType) : SplitsInto fun c => c.Fits types where
  name _ _ hc := hc
  sum c havg hc := by
    obtain ⟨ha,ht⟩ := hc
    rw [havg] at ht
    exact ⟨ha,by rw [ht]; cases c.args.head?.bind fun a => types[a]? <;> rfl⟩
  count c hc := ⟨hc.1,by cases c.args.head?.bind fun a => types[a]? <;> rfl⟩

/-! ## Columns -/

/-- A call held at a place has the type of the call asked for. -/
theorem Held.type_eq (h : Held calls c k) (hcalls : ∀ d ∈ calls, d.Fits types)
    (hc : c.Fits types) : (calls.map AggregateCall.type)[k]? = some c.type := by
  obtain ⟨d,hd,hf,-,ha⟩ := h
  have hd' := (hcalls d (List.mem_of_getElem? hd)).2
  rw [hf,ha,← hc.2] at hd'
  rw [List.getElem?_map,hd,← hd']
  rfl

theorem Serves.type_eq {e : Expr} (h : Serves groups calls c e) : e.type = c.type := by
  unfold Serves at h
  split at h
  · obtain ⟨k,-,rfl⟩ := h
    rfl
  · obtain ⟨s,n,t,-,-,-,rfl⟩ := h
    split
    · rename_i ht
      exact ht
    · rfl

theorem Serves.fits {e : Expr} {keys : List SqlType} (h : Serves keys.length calls c e)
    (hcalls : ∀ d ∈ calls, d.Fits types) (hc : c.Fits types) :
    e.Fits (keys ++ calls.map AggregateCall.type) := by
  have hcolumn : ∀ d k, Held calls d k → d.Fits types →
      (Expr.column (keys.length+k) d.type).Fits (keys ++ calls.map AggregateCall.type) := by
    intro d k hk hd
    rw [Expr.fits_column,List.getElem?_append_right (by omega),Nat.add_sub_cancel_left]
    exact hk.type_eq hcalls hd
  unfold Serves at h
  split at h
  · obtain ⟨k,hk,rfl⟩ := h
    exact hcolumn c k hk hc
  · rename_i havg
    obtain ⟨s,n,t,hs,hn,-,rfl⟩ := h
    have hsum := hcolumn _ s hs ((splitsInto_fits types).sum c (not_not.1 havg) hc)
    have hcount := hcolumn _ n hn ((splitsInto_fits types).count c hc)
    have hquotient : (quotient c.type (keys.length+s) (keys.length+n) t).Fits
        (keys ++ calls.map AggregateCall.type) := by
      simp only [quotient,Expr.fits_call,List.forall_mem_cons]
      exact ⟨hsum,hcount,by simp⟩
    split
    · exact hquotient
    · simpa [Expr.cast] using hquotient

/-- What the rule makes of an aggregate with averages. -/
theorem apply_eq_some {p q : Plan} (h : apply p = .ok (some q)) :
    ∃ input groups calls placed values, p = .aggregate input groups calls ∧
      splitCalls groups.length [] calls = .ok (placed,values) ∧
      q = .project (.aggregate input groups placed)
        (((List.range groups.length).map fun i => Expr.column i
          ((((Plan.aggregate input groups calls).fields[i]?).map Field.type).getD .null)) ++ values)
        ((Plan.aggregate input groups calls).fields.map Field.name) := by
  unfold apply at h
  split at h
  · rename_i input groups calls
    split at h
    · obtain ⟨⟨placed,values⟩,hs,h⟩ := bind_eq_ok_iff.1 h
      cases h
      exact ⟨input,groups,calls,placed,values,rfl,hs,rfl⟩
    · cases h
  · cases h

/-- The keys of a group, in order. -/
def keys (old : List SqlType) (groups : Nat) : List Expr :=
  (List.range groups).map fun i => .column i ((old[i]?).getD .null)

theorem type_keys (old rest : List SqlType) :
    (keys (old ++ rest) old.length).map Expr.type = old := by
  refine List.ext_getElem (by simp [keys]) fun k hk hk' => ?_
  simp [keys,Expr.type,List.getElem?_append_left hk',hk']

theorem fits_keys (old rest rest' : List SqlType) :
    ∀ e ∈ keys (old ++ rest) old.length, e.Fits (old ++ rest') := by
  simp only [keys,List.forall_mem_map,List.mem_range]
  intro i hi
  simp [List.getElem?_append_left hi,hi]

theorem values_type {values : List Expr} {cs : List AggregateCall}
    (h : cs.Forall₂ (Serves groups calls) values) :
    values.map Expr.type = cs.map AggregateCall.type := by
  induction h with
  | nil => rfl
  | cons hc _ ih => rw [List.map_cons,List.map_cons,hc.type_eq,ih]

theorem values_fits {values : List Expr} {cs : List AggregateCall} {keys : List SqlType}
    (h : cs.Forall₂ (Serves keys.length calls) values) (hcalls : ∀ d ∈ calls, d.Fits types)
    (hcs : ∀ c ∈ cs, c.Fits types) :
    ∀ e ∈ values, e.Fits (keys ++ calls.map AggregateCall.type) := by
  induction h with
  | nil => simp
  | cons hc _ ih =>
    obtain ⟨hfits,hcs⟩ := List.forall_mem_cons.1 hcs
    exact List.forall_mem_cons.2 ⟨hc.fits hcalls hfits,ih hcs⟩

theorem apply_keepsShape {p q : Plan} (h : apply p = .ok (some q)) : KeepsShape p q := by
  obtain ⟨input,groups,calls,placed,values,rfl,hs,rfl⟩ := apply_eq_some h
  intro hp
  obtain ⟨⟨hg,hc⟩,hi⟩ := wellPlaced_aggregate.1 hp
  obtain ⟨-,hserves⟩ := splitCalls_spec hs
  have hplaced := (splitsInto_fits input.types).splitCalls hs (by simp) hc
  have hlen : (groups.filterMap (input.types[·]?)).length = groups.length :=
    length_filterMap_getElem? (by rwa [hi.length_types])
  have hkeys : ((List.range groups.length).map fun i => Expr.column i
      ((((Plan.aggregate input groups calls).fields[i]?).map Field.type).getD .null))
      = keys (groups.filterMap (input.types[·]?) ++ calls.map AggregateCall.type)
        (groups.filterMap (input.types[·]?)).length := by
    simp only [hp.getElem?_fields,keys,hlen,types]
  rw [← hlen] at hserves
  rw [hkeys]
  refine ⟨wellPlaced_project.2 ⟨?_,?_,wellPlaced_aggregate.2 ⟨⟨hg,hplaced⟩,hi⟩⟩,?_,rfl⟩
  · intro e he
    rcases List.mem_append.1 he with he|he
    · exact fits_keys _ _ _ e he
    · exact values_fits hserves hplaced hc e he
  · rw [List.length_map,hp.length_fields]
    simp [keys,width,hlen,← hserves.length_eq]
  · simp only [types,List.map_append,type_keys,values_type hserves]

theorem Serves.typed {e : Expr} (h : Serves groups calls c e) : e.Typed := by
  unfold Serves at h
  split at h
  · obtain ⟨k,-,rfl⟩ := h
    exact Expr.typed_column
  · obtain ⟨s,n,t,-,-,ht,rfl⟩ := h
    have hquotient : (quotient c.type (groups+s) (groups+n) t).Typed :=
      Expr.typed_call.2 ⟨.inr ht,by simp⟩
    split
    · exact hquotient
    · exact Expr.typed_call.2 ⟨.inl rfl,by simpa using hquotient⟩

theorem values_typed {values : List Expr} {cs : List AggregateCall}
    (h : cs.Forall₂ (Serves groups calls) values) : ∀ e ∈ values, e.Typed := by
  induction h with
  | nil => simp
  | cons hc _ ih => exact List.forall_mem_cons.2 ⟨hc.typed,ih⟩

theorem apply_keepsSound {conditions : Prop} {p q : Plan} (h : apply p = .ok (some q)) :
    KeepsSound conditions p q := by
  obtain ⟨input,groups,calls,placed,values,rfl,hs,rfl⟩ := apply_eq_some h
  intro hp
  refine everywhere_project.2 ⟨sound_project.2 (List.forall_mem_append.2 ⟨?_,?_⟩),
    everywhere_aggregate.2 ⟨sound_aggregate,(everywhere_aggregate.1 hp).2⟩⟩
  · exact List.forall_mem_map.2 fun _ _ => Expr.typed_column
  · exact values_typed (splitCalls_spec hs).2

/-- A projection takes the names it is given, so it has old columns again if it has their types. -/
theorem zipWith_names {exprs : List Expr} {old : List Field}
    (h : exprs.map Expr.type = old.map Field.type) :
    exprs.zipWith (fun e n => (⟨n,e.type⟩ : Field)) (old.map Field.name) = old := by
  induction exprs generalizing old with
  | nil => simpa using h
  | cons e es ih =>
    cases old with
    | nil => simp at h
    | cons f fs =>
      simp only [List.map_cons,List.cons.injEq] at h
      rw [List.map_cons,List.zipWith_cons_cons,ih h.2,h.1]

theorem apply_keepsFields {p q : Plan} (h : apply p = .ok (some q)) : KeepsFields p q := by
  refine ⟨apply_keepsShape h,fun hp => ?_⟩
  have htypes := (apply_keepsShape h hp).2.1
  obtain ⟨input,groups,calls,placed,values,rfl,-,rfl⟩ := apply_eq_some h
  refine zipWith_names ?_
  rw [map_type_fields hp.names]
  exact htypes

/-! ## Rows -/

variable {α : Type} {I : Interpretation α}

theorem Held.callValue_eq (h : Held calls c k) (hc : c.function ≠ .avg) (rows : Multiset (Row α)) :
    (calls.map (I.callValue rows))[k]? = some (I.callValue rows c) := by
  obtain ⟨d,hd,hf,hdistinct,ha⟩ := h
  rw [List.getElem?_map,hd]
  simp only [Option.map_some,Interpretation.callValue,hf,hdistinct,ha,if_neg hc]

/-- The expression that serves a call has its value over the keys and calls of any group. -/
theorem Serves.eval {e : Expr} {key : Row α} (h : Serves key.length calls c e)
    (rows : Multiset (Row α)) :
    I.eval (key ++ calls.map (I.callValue rows)) e = I.callValue rows c := by
  have hcolumn : ∀ d k, Held calls d k → d.function ≠ .avg →
      (key ++ calls.map (I.callValue rows)).getD (key.length+k) .null = I.callValue rows d := by
    intro d k hk hd
    rw [List.getD_append_right _ _ _ _ (by omega),Nat.add_sub_cancel_left,
      List.getD_eq_getElem?_getD,hk.callValue_eq hd]
    rfl
  unfold Serves at h
  split at h
  · rename_i hc
    obtain ⟨k,hk,rfl⟩ := h
    exact hcolumn c k hk hc
  · rename_i havg
    rw [ne_eq,not_not] at havg
    obtain ⟨s,n,t,hs,hn,ht,rfl⟩ := h
    have hsum := hcolumn _ s hs (by simp)
    have hcount := hcolumn _ n hn (by simp)
    have hquotient : I.eval (key ++ calls.map (I.callValue rows))
        (quotient c.type (key.length+s) (key.length+n) t)
        = I.operator .divide t [I.aggregate .sum c.distinct (rows.map (Row.pick c.args)),
          I.aggregate .count c.distinct (rows.map (Row.pick c.args))] := by
      rw [quotient,Interpretation.eval_call,List.map_cons,List.map_cons,List.map_nil,
        Interpretation.eval_column,Interpretation.eval_column,hsum,hcount]
      simp [Interpretation.callValue,Interpretation.call]
    rw [Interpretation.callValue,if_pos havg,ht,Option.getD_some]
    dsimp only
    split
    · exact hquotient
    · rw [Expr.cast,Interpretation.eval_call,List.map_cons,List.map_nil,hquotient]
      simp [Interpretation.call]

theorem eval_keys (old : List SqlType) (key rest : Row α) :
    (keys old key.length).map (I.eval (key ++ rest)) = key := by
  refine List.ext_getElem (by simp [keys]) fun k hk hk' => ?_
  simp [keys,List.getD_eq_getElem?_getD,List.getElem?_append_left hk',hk']

theorem values_eval {values : List Expr} {cs : List AggregateCall} {key : Row α}
    (h : cs.Forall₂ (Serves key.length calls) values) (rows : Multiset (Row α)) :
    values.map (I.eval (key ++ calls.map (I.callValue rows))) = cs.map (I.callValue rows) := by
  induction h with
  | nil => rfl
  | cons hc _ ih => rw [List.map_cons,List.map_cons,hc.eval,ih]

variable [DecidableEq α] {db : Database α}

/-- Rows of groups mapped one by one are those of groups with other outputs. -/
theorem map_groupRows {groups : List Nat} {outputs outputs' : Multiset (Row α) → Row α}
    {f : Row α → Row α} (h : ∀ key rows, key.length = groups.length →
      f (key ++ outputs rows) = key ++ outputs' rows) (rows : Multiset (Row α)) :
    (groupRows groups outputs rows).map f = groupRows groups outputs' rows := by
  unfold groupRows
  split
  · rename_i hg
    rw [Multiset.map_singleton]
    exact congrArg _ (h [] rows (by rw [hg]; rfl))
  · rw [Multiset.map_map]
    refine Multiset.map_congr rfl fun key hkey => h key _ ?_
    obtain ⟨r,-,rfl⟩ := Multiset.mem_map.1 (Multiset.mem_dedup.1 hkey)
    exact Row.length_pick groups r

theorem apply_keepsRows {p q : Plan} (h : apply p = .ok (some q)) : KeepsRows I db p q := by
  refine ⟨apply_keepsShape h,fun hp => ?_⟩
  obtain ⟨input,groups,calls,placed,values,rfl,hs,rfl⟩ := apply_eq_some h
  obtain ⟨-,hserves⟩ := splitCalls_spec hs
  refine map_groupRows (fun key rs hkey => ?_) _
  rw [← hkey] at hserves
  simp only [hp.getElem?_fields,← hkey,List.map_append]
  rw [values_eval hserves]
  exact congrArg (· ++ _) (eval_keys _ key _)

end QueryPlan.AverageSplit
