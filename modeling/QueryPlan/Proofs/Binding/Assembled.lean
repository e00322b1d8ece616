import QueryPlan.Proofs.Binding.Parts
import QueryPlan.Proofs.Except
import QueryPlan.Proofs.Meaning.Algebra

/-! # Expressions assembled from parts that stand for others

A bound expression over the rows of an aggregate is compared with the binding of the same text over
the rows of the FROM clause: where the parts have the same values, so has what is assembled from
them. -/
namespace QueryPlan.Binding

variable {n : Names} {keys : List Expr}

/-- The binding `b` over the row of the group keys stands for the binding `p` over a FROM row. -/
structure Stands (keys : List Expr) (p b : Expr) : Prop where
  type : b.type = p.type
  literal : ∀ v, b = .literal v → p = .literal v
  connected : p.Connected ∧ b.Connected
  eval : ∀ {V : Type} (S : Semantics V), S.Associative →
    ∀ row, S.eval (keys.map (S.eval row)) b = S.eval row p

namespace Stands
variable {p b : Expr} {ps bs : List Expr}

theorem constant (hp : p.Connected) (hc : p.columns = []) : Stands keys p p where
  type := rfl
  literal _ h := h
  connected := ⟨hp,hp⟩
  eval _ _ _ := Semantics.eval_of_columns_eq_nil hc

theorem key {i : Nat} (hp : p.Connected) (h : keys.idxOf? p = some i) :
    Stands keys p (.column i p.type) where
  type := rfl
  literal _ h := nomatch h
  connected := ⟨hp,trivial⟩
  eval S _ row := by
    obtain ⟨hlt,heq,-⟩ := List.findIdx?_eq_some_iff_getElem.1 h
    simp [Semantics.eval,hlt,eq_of_beq heq]

theorem map_eq {β : Type} {f g : Expr → β} (h : ps.Forall₂ (Stands keys) bs)
    (hfg : ∀ p b, Stands keys p b → g b = f p) : bs.map g = ps.map f := by
  induction h with
  | nil => rfl
  | cons h _ ih => rw [List.map_cons,List.map_cons,hfg _ _ h,ih]

theorem connected_all (h : ps.Forall₂ (Stands keys) bs) :
    (∀ p ∈ ps, p.Connected) ∧ ∀ b ∈ bs, b.Connected := by
  induction h with
  | nil => exact ⟨by simp,by simp⟩
  | cons h _ ih =>
    exact ⟨List.forall_mem_cons.2 ⟨h.connected.1,ih.1⟩,List.forall_mem_cons.2 ⟨h.connected.2,ih.2⟩⟩

/-- A call of operands that stand for others stands for the call of these. -/
theorem ofCall {op : Operator} (h : ps.Forall₂ (Stands keys) bs) (hp : Expr.ofCall op ps = .ok p) :
    ∃ b, Expr.ofCall op bs = .ok b ∧ Stands keys p b := by
  have htypes : bs.map Expr.type = ps.map Expr.type := map_eq h fun _ _ h => h.type
  obtain ⟨t,ht,heq⟩ := Expr.ofCall_eq_ok_iff.1 hp
  have hb : Expr.ofCall op bs
      = .ok (.call op (if op.isConnective then Expr.flatOperands op bs else bs) t) :=
    Expr.ofCall_eq_ok_iff.2 ⟨t,htypes ▸ ht,rfl⟩
  obtain ⟨hps,hbs⟩ := connected_all h
  have htype : p.type = t := by rw [heq]; rfl
  refine ⟨_,hb,?_,nofun,⟨.ofCall hps hp,.ofCall hbs hb⟩,fun S hS row => ?_⟩
  · rw [htype]
    rfl
  · rw [Semantics.eval_ofCall hS hbs hb,Semantics.eval_ofCall hS hps hp,htype,
      map_eq h fun _ _ h => h.eval S hS row]
    rfl

variable {v v' low low' high high' : Expr}

theorem negated (h : Stands keys p b) (hp : ∀ v, p ≠ .literal v) {p' : Expr}
    (hneg : negated p = .ok p') : ∃ b', Binding.negated b = .ok b' ∧ Stands keys p' b' := by
  have hb (v : Literal) : b ≠ .literal v := fun hb => hp v (h.literal v hb)
  have hnegated (e : Expr) (he : ∀ v, e ≠ .literal v) :
      Binding.negated e = Expr.ofCall .negate [e] := by
    unfold Binding.negated
    split
    · exact absurd rfl (he _)
    · rfl
  rw [hnegated p hp] at hneg
  rw [hnegated b hb]
  exact ofCall (.cons h .nil) hneg

theorem unary {op : Sql.UnaryOp} (h : Stands keys p b) (hp : ∀ v, p ≠ .literal v) {p' : Expr}
    (hunary : unary op p = .ok p') : ∃ b', Binding.unary op b = .ok b' ∧ Stands keys p' b' := by
  cases op with
  | plus =>
    cases hunary
    exact ⟨b,rfl,h⟩
  | minus => exact h.negated hp hunary
  | not => exact ofCall (.cons h .nil) hunary
  | factorial => cases hunary

theorem between {outside : Bool} (hv : Stands keys v v') (hlow : Stands keys low low')
    (hhigh : Stands keys high high') (hp : between outside v low high = .ok p) :
    ∃ b, Binding.between outside v' low' high' = .ok b ∧ Stands keys p b := by
  unfold Binding.between at hp ⊢
  split at hp
  · rename_i hout
    rw [if_pos hout]
    obtain ⟨below,hbelow,hp⟩ := bind_eq_ok_iff.1 hp
    obtain ⟨above,habove,hp⟩ := bind_eq_ok_iff.1 hp
    obtain ⟨below',hbelow',hb⟩ := ofCall (.cons hv (.cons hlow .nil)) hbelow
    obtain ⟨above',habove',ha⟩ := ofCall (.cons hv (.cons hhigh .nil)) habove
    obtain ⟨b,hb,hstands⟩ := ofCall (.cons hb (.cons ha .nil)) hp
    exact ⟨b,bind_eq_ok_iff.2 ⟨below',hbelow',bind_eq_ok_iff.2 ⟨above',habove',hb⟩⟩,hstands⟩
  · rename_i hout
    rw [if_neg hout]
    obtain ⟨above,habove,hp⟩ := bind_eq_ok_iff.1 hp
    obtain ⟨below,hbelow,hp⟩ := bind_eq_ok_iff.1 hp
    obtain ⟨above',habove',ha⟩ := ofCall (.cons hv (.cons hlow .nil)) habove
    obtain ⟨below',hbelow',hb⟩ := ofCall (.cons hv (.cons hhigh .nil)) hbelow
    obtain ⟨b,hb,hstands⟩ := ofCall (.cons ha (.cons hb .nil)) hp
    exact ⟨b,bind_eq_ok_iff.2 ⟨above',habove',bind_eq_ok_iff.2 ⟨below',hbelow',hb⟩⟩,hstands⟩

theorem like {absent : Bool} (hv : Stands keys v v') (hlow : Stands keys low low')
    (hp : like absent v low = .ok p) :
    ∃ b, Binding.like absent v' low' = .ok b ∧ Stands keys p b := by
  unfold Binding.like at hp ⊢
  obtain ⟨e,he,hp⟩ := bind_eq_ok_iff.1 hp
  obtain ⟨e',he',hstands⟩ := ofCall (.cons hv (.cons hlow .nil)) he
  split at hp
  · rename_i habsent
    obtain ⟨b,hb,hstands⟩ := ofCall (.cons hstands .nil) hp
    exact ⟨b,bind_eq_ok_iff.2 ⟨e',he',by rw [if_pos habsent,hb]⟩,hstands⟩
  · rename_i habsent
    cases hp
    exact ⟨e',bind_eq_ok_iff.2 ⟨e',he',by rw [if_neg habsent]; rfl⟩,hstands⟩

theorem cast {t : Sql.DataType} (h : Stands keys v v') (hp : cast v t = .ok p) :
    ∃ b, Binding.cast v' t = .ok b ∧ Stands keys p b := by
  unfold Binding.cast at hp ⊢
  obtain ⟨target,htarget,hp⟩ := bind_eq_ok_iff.1 hp
  rw [← h.type] at hp
  split at hp
  · rename_i hcast
    cases hp
    refine ⟨v'.cast target,bind_eq_ok_iff.2 ⟨target,htarget,if_pos hcast⟩,?_⟩
    exact ⟨rfl,nofun,⟨nofun,nofun⟩,fun S hS row => by simp [Expr.cast,h.eval S hS row]⟩
  · cases hp

/-- Comparisons of what stands for a value with what stands for the members of a list. -/
theorem terms {op : Operator} {items items' ts : List Expr} (hv : Stands keys v v')
    (h : items.Forall₂ (Stands keys) items')
    (hts : items.mapM (fun item => Expr.ofCall op [v,item]) = .ok ts) :
    ∃ ts', items'.mapM (fun item => Expr.ofCall op [v',item]) = .ok ts' ∧
      ts.Forall₂ (Stands keys) ts' := by
  induction h generalizing ts with
  | nil =>
    cases hts
    exact ⟨[],rfl,.nil⟩
  | cons hitem _ ih =>
    rw [List.mapM_cons] at hts
    obtain ⟨t,ht,hts⟩ := bind_eq_ok_iff.1 hts
    obtain ⟨rest,hrest,hts⟩ := bind_eq_ok_iff.1 hts
    cases hts
    obtain ⟨t',ht',hstands⟩ := ofCall (.cons hv (.cons hitem .nil)) ht
    obtain ⟨rest',hrest',hall⟩ := ih hrest
    refine ⟨t' :: rest',?_,.cons hstands hall⟩
    rw [List.mapM_cons,ht',hrest']
    rfl

theorem inList {absent : Bool} {ts ts' : List Expr} (h : ts.Forall₂ (Stands keys) ts')
    (hp : inList absent ts = .ok p) : ∃ b, Binding.inList absent ts' = .ok b ∧ Stands keys p b := by
  cases h with
  | nil => cases hp
  | cons h hs =>
    cases hs with
    | nil =>
      cases hp
      exact ⟨_,rfl,h⟩
    | cons h' hs => exact ofCall (.cons h (.cons h' hs)) hp

end Stands

/-! ## Columns of assembled expressions -/

theorem occurrences_ofCall {op : Operator} {args : List Expr} {e : Expr}
    (h : Expr.ofCall op args = .ok e) : e.occurrences = args.flatMap Expr.occurrences := by
  obtain ⟨t,-,rfl⟩ := Expr.ofCall_eq_ok_iff.1 h
  rw [Expr.occurrences_call]
  split
  · rw [Expr.flatOperands,List.flatMap_assoc]
    refine List.flatMap_congr fun e _ => ?_
    cases e with
    | call inner nested t =>
      dsimp only
      split <;> simp
    | _ => simp
  · rfl

theorem mem_occurrences_ofCall {op : Operator} {args : List Expr} {e q : Expr} {i : Nat}
    (h : Expr.ofCall op args = .ok e) (hq : q ∈ args) (hi : i ∈ q.occurrences) :
    i ∈ e.occurrences := by
  rw [occurrences_ofCall h]
  exact List.mem_flatMap.2 ⟨q,hq,hi⟩

theorem mem_occurrences_unary {op : Sql.UnaryOp} {q p : Expr} {i : Nat} (h : unary op q = .ok p)
    (hi : i ∈ q.occurrences) : i ∈ p.occurrences := by
  unfold unary at h
  split at h
  · cases h
    exact hi
  · unfold negated at h
    split at h
    · cases hi
    · exact mem_occurrences_ofCall h (by simp) hi
  · exact mem_occurrences_ofCall h (by simp) hi
  · cases h

theorem mem_occurrences_between {outside : Bool} {v low high q p : Expr} {i : Nat}
    (h : between outside v low high = .ok p) (hq : q ∈ [v,low,high]) (hi : i ∈ q.occurrences) :
    i ∈ p.occurrences := by
  unfold between at h
  split at h
  all_goals
    obtain ⟨a,ha,h⟩ := bind_eq_ok_iff.1 h
    obtain ⟨b,hb,h⟩ := bind_eq_ok_iff.1 h
    rw [occurrences_ofCall h,List.flatMap_cons,List.flatMap_cons,occurrences_ofCall ha,
      occurrences_ofCall hb]
    simp only [List.mem_cons,List.not_mem_nil,or_false] at hq
    rcases hq with rfl|rfl|rfl <;> simp [hi]

theorem mem_occurrences_inList {absent : Bool} {v q p : Expr} {items ts : List Expr} {i : Nat}
    {op : Operator} (hts : items.mapM (fun item => Expr.ofCall op [v,item]) = .ok ts)
    (h : inList absent ts = .ok p) (hq : q ∈ v :: items) (hi : i ∈ q.occurrences) :
    i ∈ p.occurrences := by
  have hall : p.occurrences = ts.flatMap Expr.occurrences := by
    unfold inList at h
    split at h
    · cases h
    · cases h
      simp
    · exact occurrences_ofCall h
  have hrel := mapM_eq_ok_iff.1 hts
  rw [hall,List.mem_flatMap]
  rcases List.mem_cons.1 hq with rfl|hq
  · cases hrel with
    | nil => cases h
    | cons ht _ => exact ⟨_,List.mem_cons_self,mem_occurrences_ofCall ht (by simp) hi⟩
  · obtain ⟨t,ht,hcall⟩ := exists_of_forall₂ hrel hq
    exact ⟨t,ht,mem_occurrences_ofCall hcall (by simp) hi⟩

/-- Assembling loses no column of the parts. -/
theorem mem_occurrences_assemble {e : Sql.Expr} {ps : List Expr} {p q : Expr} {i : Nat}
    (hp : assemble n e ps = .ok p) (hq : q ∈ ps) (hi : i ∈ q.occurrences) : i ∈ p.occurrences := by
  unfold assemble at hp
  split at hp
  case h_5 =>
    cases hp
    cases List.mem_singleton.1 hq
    exact hi
  case h_6 =>
    obtain ⟨_,-,hp⟩ := bind_eq_ok_iff.1 hp
    exact mem_occurrences_ofCall hp hq hi
  case h_7 => exact mem_occurrences_unary hp (List.mem_singleton.1 hq ▸ hi)
  case h_8 => exact mem_occurrences_ofCall hp hq hi
  case h_9 => exact mem_occurrences_ofCall hp hq hi
  case h_10 => exact mem_occurrences_between hp hq hi
  case h_11 =>
    obtain ⟨ts,hts,hp⟩ := bind_eq_ok_iff.1 hp
    exact mem_occurrences_inList hts hp hq hi
  case h_12 =>
    obtain ⟨b,hb,hp⟩ := bind_eq_ok_iff.1 hp
    have := mem_occurrences_ofCall hb hq hi
    split at hp
    · exact mem_occurrences_ofCall hp List.mem_cons_self this
    · cases hp
      exact this
  case h_13 =>
    obtain ⟨_,-,hp⟩ := bind_eq_ok_iff.1 hp
    split at hp
    · cases hp
      cases List.mem_singleton.1 hq
      simpa [Expr.cast] using hi
    · cases hp
  case h_14 => cases hp
  all_goals cases hq

/-- An expression assembled from what stands for its parts stands for the one assembled from these,
as long as it is neither constant nor a column. -/
theorem Stands.assemble {e : Sql.Expr} {ps bs : List Expr} {p : Expr} (hname : isColumnName e = false)
    (h : ps.Forall₂ (Stands keys) bs) (hp : assemble n e ps = .ok p) (hc : p.columns ≠ []) :
    ∃ b, Binding.assemble n e bs = .ok b ∧ Stands keys p b := by
  have hconstant (hp : p.Bound []) : False := by
    obtain ⟨i,hi⟩ := List.exists_mem_of_ne_nil _ hc
    exact Nat.not_lt_zero i (hp.fits.lt i (Expr.mem_columns.1 hi))
  unfold Binding.assemble at hp
  split at hp
  case h_1 => cases hname
  case h_2 => cases hname
  case h_3 => exact (hconstant (value_bound hp)).elim
  case h_4 => exact (hconstant (typedString_bound hp)).elim
  case h_5 =>
    cases hp
    cases h with | cons h hs =>
    cases hs
    exact ⟨_,rfl,h⟩
  case h_6 =>
    obtain ⟨op,hop,hp⟩ := bind_eq_ok_iff.1 hp
    obtain ⟨b,hb,hstands⟩ := ofCall h hp
    cases h with | cons _ hs =>
    cases hs with | cons _ hs =>
    cases hs
    exact ⟨b,bind_eq_ok_iff.2 ⟨op,hop,hb⟩,hstands⟩
  case h_7 =>
    cases h with | cons h hs =>
    cases hs
    refine h.unary (fun v hv => hconstant ?_) hp
    subst hv
    exact unary_bound (.literal v) hp
  case h_8 | h_9 =>
    obtain ⟨b,hb,hstands⟩ := ofCall h hp
    cases h with | cons _ hs =>
    cases hs
    exact ⟨b,hb,hstands⟩
  case h_10 =>
    cases h with | cons hv hs =>
    cases hs with | cons hlow hs =>
    cases hs with | cons hhigh hs =>
    cases hs
    exact between hv hlow hhigh hp
  case h_11 =>
    obtain ⟨ts,hts,hp⟩ := bind_eq_ok_iff.1 hp
    cases h with | cons hv hs =>
    obtain ⟨ts',hts',hall⟩ := terms hv hs hts
    obtain ⟨b,hb,hstands⟩ := inList hall hp
    exact ⟨b,bind_eq_ok_iff.2 ⟨ts',hts',hb⟩,hstands⟩
  case h_12 =>
    cases h with | cons hv hs =>
    cases hs with | cons hpattern hs =>
    cases hs
    exact like hv hpattern hp
  case h_13 =>
    cases h with | cons h hs =>
    cases hs
    exact cast h hp
  case h_14 => cases hp

end QueryPlan.Binding
