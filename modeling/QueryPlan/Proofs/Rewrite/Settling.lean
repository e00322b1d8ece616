import QueryPlan.Proofs.Rewrite.ArrowScans
import QueryPlan.Proofs.Rewrite.AverageSplit
import QueryPlan.Proofs.Rewrite.ColumnPruning
import QueryPlan.Proofs.Rewrite.JoinSides
import QueryPlan.Proofs.Rewrite.Layers

/-! # Each rule comes to rest in one pass

Between two rules a plan keeps its layers, and the rules that have been run stay at rest. Each rule
is shown to hand such a plan on to the next one after a single pass. -/
namespace QueryPlan
open Plan

/-- The root is in its layer, and some rules do not match at it. -/
def Plan.QuietFor (rules : List RewriteRule) (p : Plan) : Prop :=
  p.Layered ∧ ∀ rule ∈ rules, rule.apply p = .ok none

theorem Plan.QuietFor.append {rules : List RewriteRule} {rule : RewriteRule} {p : Plan}
    (h : p.QuietFor rules) (hrule : rule.apply p = .ok none) : p.QuietFor (rules ++ [rule]) := by
  refine ⟨h.1,fun r hr => ?_⟩
  rcases List.mem_append.1 hr with hr|hr
  · exact h.2 r hr
  · rw [List.mem_singleton.1 hr]
    exact hrule

theorem Plan.QuietFor.mono {rules rules' : List RewriteRule} {p : Plan} (h : p.QuietFor rules')
    (hsub : rules ⊆ rules') : p.QuietFor rules :=
  ⟨h.1,fun rule hrule => h.2 rule (hsub hrule)⟩

namespace RewriteRule

/-- Where a rule does not match at an operator in its layer, it does not match once the inputs are
replaced. -/
def StaysQuiet (turns : Face → Face → Prop) (rule : RewriteRule) : Prop :=
  ∀ p q, p.Layered → p.Over (Replaces turns) q → rule.apply p = .ok none → rule.apply q = .ok none

theorem StaysQuiet.late {rule : RewriteRule} (h : rule.StaysQuiet Face.TurnsEarly) :
    rule.StaysQuiet Face.Turns :=
  fun p q hp hpq => h p q hp (hpq.imp fun _ _ _ => Replaces.early)

theorem quietFor_over {rules : List RewriteRule} {turns : Face → Face → Prop}
    (hrules : ∀ rule ∈ rules, rule.StaysQuiet turns) (hturns : ∀ c d, Replaces turns c d →
      Replaces Face.TurnsEarly c d) {p q : Plan} (hp : p.QuietFor rules)
    (h : p.Over (Replaces turns) q) : q.QuietFor rules :=
  ⟨hp.1.over (h.imp fun _ _ => hturns _),fun rule hrule =>
    hrules rule hrule p q hp.1 h (hp.2 rule hrule)⟩

/-- A late rule settles if what it makes of an operator is quiet for it and for the rules before. -/
theorem settles_late (rules : List RewriteRule) {rule : RewriteRule}
    (hquiet : ∀ r ∈ rules ++ [rule], r.StaysQuiet Face.Turns)
    (hrewrites : ∀ p r, p.Everywhere (QuietFor rules) → rule.apply p = .ok (some r) →
      r.Everywhere (QuietFor rules) ∧ rule.apply r = .ok none ∧ Replaces Face.Turns p r) :
    rule.Settles (Everywhere (QuietFor rules)) (QuietFor (rules ++ [rule])) (Replaces Face.Turns) where
  leaves p hp hnone := by
    obtain ⟨hroot,hinputs⟩ := everywhere_iff.1 hp
    exact ⟨hinputs,hroot.append hnone,.refl p⟩
  rewrites p r hp hsome := by
    obtain ⟨hr,hnone,hreplaces⟩ := hrewrites p r hp hsome
    obtain ⟨hroot,hinputs⟩ := everywhere_iff.1 hr
    exact ⟨hinputs,hroot.append hnone,hreplaces⟩
  post_over _ _ hp h := quietFor_over hquiet (fun _ _ => Replaces.early) hp h
  rel_over _ _ _ _ hpr h := hpr.trans (Over.replaces (h.imp fun _ _ _ => Replaces.early))

end RewriteRule

/-! ## Averages -/

namespace AverageSplit

theorem apply_eq_none {p : Plan} : rule.apply p = .ok none ↔ ∀ input groups calls,
    p = .aggregate input groups calls → ∀ c ∈ calls, c.function ≠ .avg := by
  change apply p = .ok none ↔ _
  cases p with
  | aggregate input groups calls =>
    simp only [apply]
    split
    case isTrue h =>
      obtain ⟨c,hc,havg⟩ := List.any_eq_true.1 h
      refine ⟨fun h => ?_,fun h => absurd (by simpa using havg) (h _ _ _ rfl c hc)⟩
      obtain ⟨_,-,h⟩ := bind_eq_ok_iff.1 h
      cases h
    case isFalse h =>
      refine ⟨fun _ input' groups' calls' he c hc havg => h ?_,fun _ => rfl⟩
      cases he
      exact List.any_eq_true.2 ⟨c,hc,by simpa using havg⟩
  | _ => simp [apply]

theorem exists_average {input q : Plan} {groups : List Nat} {calls : List AggregateCall}
    (h : rule.apply (.aggregate input groups calls) = .ok (some q)) :
    ∃ c ∈ calls, c.function = .avg := by
  by_contra hno
  have hnone : rule.apply (.aggregate input groups calls) = .ok none := by
    refine apply_eq_none.2 fun _ _ _ he c hc havg => hno ?_
    cases he
    exact ⟨c,hc,havg⟩
  rw [h] at hnone
  cases hnone

theorem staysQuiet : rule.StaysQuiet Face.TurnsEarly := by
  intro p q _ hpq hp
  refine apply_eq_none.2 fun input groups calls hq => ?_
  subst hq
  cases hpq with
  | aggregate _ _ _ => exact apply_eq_none.1 hp _ _ _ rfl

/-- The projection above a split average computes, so it is not the identity. -/
theorem not_isIdentity {calls placed : List AggregateCall} {keys values : List Expr} {width : Nat}
    (h : calls.Forall₂ (Serves keys.length placed) values) (havg : ∃ c ∈ calls, c.function = .avg) :
    ¬ Expr.isIdentity (keys ++ values) width := by
  intro hid
  obtain ⟨c,hc,havg⟩ := havg
  obtain ⟨k,hk,rfl⟩ := List.getElem_of_mem hc
  have hk' : k < values.length := by rwa [← h.length_eq]
  have hvalue : (keys ++ values)[keys.length+k]? = some values[k] := by
    rw [List.getElem?_append_right (by omega),Nat.add_sub_cancel_left,List.getElem?_eq_getElem hk']
  obtain ⟨t,ht⟩ := Expr.eq_column_of_isIdentity hid hvalue
  have hserves := h.get hk hk'
  simp only [List.get_eq_getElem,ht] at hserves
  rw [Serves,if_neg (by simpa using havg)] at hserves
  obtain ⟨s,n,u,-,-,-,he⟩ := hserves
  split at he <;> cases he

/-- Averages are split everywhere after one pass. -/
theorem settles : rule.Settles (Everywhere Unrewritten)
    (fun p => p.QuietFor [rule] ∧ p.JoinsOver Face.IsSource) (Replaces Face.TurnsEarly) where
  leaves p hp hnone := by
    obtain ⟨⟨hlayered,hjoins⟩,hinputs⟩ := everywhere_iff.1 hp
    exact ⟨hinputs,⟨⟨hlayered,by simpa using hnone⟩,hjoins⟩,(Replaces.refl p).early⟩
  rewrites p r hp hsome := by
    obtain ⟨input,groups,calls,placed,values,rfl,hs,rfl⟩ := apply_eq_some hsome
    have havg := exists_average hsome
    have hserves := (splitCalls_spec hs).2
    have hinput := (everywhere_aggregate.1 hp).2
    refine ⟨?_,⟨⟨by simp [Layered,face],?_⟩,trivial⟩,⟨?_,?_⟩⟩
    · simp only [inputs,List.mem_singleton,forall_eq]
      exact everywhere_aggregate.2 ⟨⟨trivial,trivial⟩,hinput⟩
    · simp [rule,apply]
    · simp [width,hserves.length_eq]
    · rw [face_project_eq_regrouped.2 ⟨rfl,?_⟩]
      · exact .split
      · exact not_isIdentity (by simpa using hserves) havg
  post_over p q hp h :=
    ⟨RewriteRule.quietFor_over (by simpa using staysQuiet) (fun _ _ h => h) hp.1 h,
      hp.2.over (fun _ _ => Face.TurnsEarly.isSource) h⟩
  rel_over _ _ _ _ hpr h := hpr.trans_late h.replaces

end AverageSplit

/-! ## Filters -/

namespace FilterPushing

theorem apply_eq_none {p : Plan} : rule.apply p = .ok none ↔ ∀ input condition,
    p = .filter input condition → ∀ lw rw on, input.face ≠ .join lw rw on .inner := by
  change apply p = .ok none ↔ _
  constructor
  · rintro h input condition rfl lw rw on hface
    obtain ⟨left,right,rfl,-,-⟩ := eq_join_of_face hface
    simp [apply] at h
  · intro h
    unfold apply
    split
    · exact absurd rfl (h _ _ rfl _ _ _)
    · rfl

theorem staysQuiet : rule.StaysQuiet Face.TurnsEarly := by
  intro p q hp hpq hnone
  refine apply_eq_none.2 fun input condition hq lw rw on hface => ?_
  subst hq
  cases hpq with
  | @filter input' _ c h =>
    have hinput := h.face
    rw [hface] at hinput
    exact apply_eq_none.1 hnone _ _ rfl _ _ _ (hinput.eq_join hp.1 hp.2)

theorem face_filtered {input : Plan} (es : List Expr) (h : input.face.IsSource) :
    (filtered input es).face.IsRows :=
  filtered_induction (.inl h) fun _ => .inr rfl

/-- What is asked for before a pass: the joins below the root, but not the root, are as they were
bound. -/
structure Ready (p : Plan) : Prop where
  quiet : p.QuietFor [AverageSplit.rule]
  joins : p.JoinsOver Face.IsRows
  below : ∀ c ∈ p.inputs, c.Everywhere fun n =>
    n.QuietFor [AverageSplit.rule] ∧ n.JoinsOver Face.IsSource

theorem Ready.of_everywhere {p : Plan}
    (h : p.Everywhere fun n => n.QuietFor [AverageSplit.rule] ∧ n.JoinsOver Face.IsSource) :
    Ready p where
  quiet := (everywhere_iff.1 h).1.1
  joins := by
    have hjoins := (everywhere_iff.1 h).1.2
    cases p with
    | join left right c k => exact ⟨.inl hjoins.1,.inl hjoins.2⟩
    | _ => trivial
  below := (everywhere_iff.1 h).2

theorem ready_filtered {input : Plan} (es : List Expr) (h : input.Everywhere fun n =>
      n.QuietFor [AverageSplit.rule] ∧ n.JoinsOver Face.IsSource) (hface : input.face.IsSource) :
    Ready (filtered input es) := by
  refine filtered_induction (.of_everywhere h) fun _ => ?_
  exact {
    quiet := ⟨⟨hface.ne_project,hface.ne_filter⟩,by simp [AverageSplit.rule,AverageSplit.apply]⟩
    joins := trivial
    below := by simpa [inputs] using h }

/-- Filters are pushed down all the way in one pass. -/
theorem settles : rule.Settles Ready
    (fun p => p.QuietFor [AverageSplit.rule,rule] ∧ p.JoinsOver Face.IsRows)
    (Replaces Face.TurnsEarly) where
  leaves p hp hnone :=
    ⟨fun c hc => .of_everywhere (hp.below c hc),⟨hp.quiet.append hnone,hp.joins⟩,
      (Replaces.refl p).early⟩
  rewrites p r hp hsome := by
    obtain ⟨left,right,on,condition,rfl,rfl⟩ := apply_eq_some hsome
    obtain ⟨⟨-,hl,hr⟩,hleft,hright⟩ := everywhere_join.1
      (hp.below (.join left right on .inner) (by simp [inputs]))
    refine ⟨?_,⟨⟨trivial,?_⟩,face_filtered _ hl,face_filtered _ hr⟩,⟨?_,.pushed _ _ _ _⟩⟩
    · simp only [inputs,List.forall_mem_cons]
      exact ⟨ready_filtered _ hleft hl,ready_filtered _ hright hr,by simp⟩
    · simp [rule,apply,AverageSplit.rule,AverageSplit.apply]
    · simp [width]
  post_over p q hp h := by
    refine ⟨RewriteRule.quietFor_over ?_ (fun _ _ h => h) hp.1 h,
      hp.2.over (fun _ _ => Face.TurnsEarly.isRows) h⟩
    simpa using ⟨AverageSplit.staysQuiet,staysQuiet⟩
  rel_over _ _ _ _ hpr h := hpr.trans_late h.replaces

end FilterPushing
end QueryPlan
