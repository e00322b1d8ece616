import QueryPlan.EnginePlan
import QueryPlan.Proofs.Except
import QueryPlan.Proofs.Relation.WellFormed

/-! # Plans the engine refuses

An operator is refused for what stands at it, whatever its inputs are, and it is looked at before
them. So the error of a plan is the one of the first operator that is refused, where an operator
comes before its inputs and a left input before a right one. -/
namespace QueryPlan

/-- An equality of two columns of one type. -/
def Expr.EquatesColumns (e : Expr) : Prop :=
  ∃ a b t u, e = .call .eq [.column a t,.column b t] u

/-- The engine does not execute the operator at the root: it scans a whole table, computes an
aggregate of distinct values, or is no inner join on two equal columns of one type. -/
def Plan.Offending : Plan → Prop
  | scan _ => True
  | aggregate _ _ calls => ∃ c ∈ calls, c.distinct
  | join _ _ condition kind => ¬ (kind = .inner ∧ condition.EquatesColumns)
  | arrowScan _ _ | filter _ _ | project _ _ _ => False

namespace EnginePlan
open Plan

/-- Why the operator at the root is refused. Of several reasons against a join the kind of the join
comes first, then the operator of its condition, then what the operator is applied to. -/
inductive Refused : Plan → EncodeError → Prop
  | scan (t : Table) : Refused (.scan t) (.plainScan t.name)
  | distinct {input : Plan} {groups : List Nat} {calls : List AggregateCall} {c : AggregateCall} :
      c ∈ calls → c.distinct → Refused (.aggregate input groups calls) .distinctAggregate
  | outer {left right : Plan} {condition : Expr} {kind : JoinKind} :
      kind ≠ .inner → Refused (.join left right condition kind) .outerJoin
  | notACall {left right : Plan} {condition : Expr} :
      (∀ op args t, condition ≠ .call op args t) →
      Refused (.join left right condition .inner) .joinNotACall
  | notEquality {left right : Plan} {op : Operator} {args : List Expr} {t : SqlType} :
      op ≠ .eq → Refused (.join left right (.call op args t) .inner) .joinNotEquality
  | operandCount {left right : Plan} {args : List Expr} {t : SqlType} :
      args.length ≠ 2 → Refused (.join left right (.call .eq args t) .inner) .joinOperandCount
  | notAColumn {left right : Plan} {x y : Expr} {t : SqlType} :
      (∃ e ∈ [x,y], ∀ i s, e ≠ .column i s) →
      Refused (.join left right (.call .eq [x,y] t) .inner) .joinOperandNotAColumn
  | types {left right : Plan} {a b : Nat} {s t u : SqlType} : s ≠ t →
      Refused (.join left right (.call .eq [.column a s,.column b t] u) .inner) (.joinTypes s t)

variable {p n left right : Plan} {condition : Expr} {kind : JoinKind} {e e' : EncodeError}
  {ns ms : List Plan}

/-! ## One operator -/

theorem equiColumns_isOk_iff :
    (∃ columns, equiColumns kind condition = .ok columns) ↔ kind = .inner ∧ condition.EquatesColumns := by
  constructor
  · rintro ⟨columns,h⟩
    unfold equiColumns at h
    split at h
    case isTrue => cases h
    case isFalse hkind =>
      split at h
      case h_2 => cases h
      case h_1 op args u =>
        split at h
        case isTrue => cases h
        case isFalse hop =>
          split at h
          case h_1 a s b t =>
            split at h
            case isTrue ht => exact ⟨not_not.1 hkind,a,b,s,u,by rw [not_not.1 hop,ht]⟩
            case isFalse => cases h
          all_goals cases h
  · rintro ⟨rfl,a,b,t,u,rfl⟩
    exact ⟨(min a b,max a b),by simp [equiColumns]⟩

theorem equiColumns_eq_error_iff :
    equiColumns kind condition = .error e ↔ Refused (.join left right condition kind) e := by
  constructor
  · intro h
    unfold equiColumns at h
    split at h
    case isTrue hkind =>
      cases h
      exact .outer hkind
    case isFalse hkind =>
      rw [ne_eq,not_not] at hkind
      subst hkind
      split at h
      case h_2 hcall =>
        cases h
        exact .notACall hcall
      case h_1 op args u =>
        split at h
        case isTrue hop =>
          cases h
          exact .notEquality hop
        case isFalse hop =>
          rw [ne_eq,not_not] at hop
          subst hop
          split at h
          case h_1 a s b t =>
            split at h
            case isTrue => cases h
            case isFalse ht =>
              cases h
              exact .types ht
          case h_2 x y hcolumns =>
            cases h
            refine .notAColumn ?_
            by_contra hall
            simp only [List.mem_cons,List.not_mem_nil,or_false,exists_eq_or_imp,exists_eq_left,
              not_or,not_forall,not_not] at hall
            obtain ⟨⟨a,s,rfl⟩,b,t,rfl⟩ := hall
            exact hcolumns a s b t rfl rfl
          case h_3 hcount hcount' =>
            cases h
            refine .operandCount fun hlength => ?_
            obtain ⟨x,y,rfl⟩ := List.length_eq_two.1 hlength
            exact hcount' x y rfl
  · intro h
    cases h with
    | outer hkind => exact if_pos hkind
    | notACall hcall =>
      cases condition with
      | call op args t => exact absurd rfl (hcall op args t)
      | _ => rfl
    | notEquality hop => simp [equiColumns,hop]
    | @operandCount _ _ args t hlength =>
      match args with
      | [] => rfl
      | [_] => simp [equiColumns]
      | [_,_] => exact absurd rfl hlength
      | _ :: _ :: _ :: _ => simp [equiColumns]
    | @notAColumn _ _ x y t hcolumn =>
      cases x with
      | column a s =>
        cases y with
        | column b t => simp at hcolumn
        | _ => rfl
      | _ => rfl
    | types ht => simp [equiColumns,ht]

theorem exists_refused_iff : (∃ e, Refused n e) ↔ n.Offending := by
  cases n with
  | scan t => exact iff_of_true ⟨_,.scan t⟩ trivial
  | arrowScan t cols => exact iff_of_false nofun id
  | filter input c => exact iff_of_false nofun id
  | project input es ns => exact iff_of_false nofun id
  | aggregate input groups calls =>
    constructor
    · rintro ⟨_,_|⟨hc,hdistinct⟩⟩
      exact ⟨_,hc,hdistinct⟩
    · rintro ⟨c,hc,hdistinct⟩
      exact ⟨_,.distinct hc hdistinct⟩
  | join left right condition kind =>
    simp only [← equiColumns_eq_error_iff,Offending,← equiColumns_isOk_iff]
    cases equiColumns kind condition <;> simp

/-- An operator is refused for one reason only. -/
theorem Refused.unique (h : Refused n e) (h' : Refused n e') : e = e' := by
  cases n with
  | join left right condition kind =>
    exact Except.error.inj ((equiColumns_eq_error_iff.2 h).symm.trans (equiColumns_eq_error_iff.2 h'))
  | scan t =>
    cases h
    cases h'
    rfl
  | aggregate input groups calls =>
    cases h
    cases h'
    rfl
  | _ => cases h

/-! ## The first of several operators -/

/-- The first offending operator of a list is refused for the reason. -/
def FirstRefused (ns : List Plan) (e : EncodeError) : Prop :=
  ∃ before n after, ns = before ++ n :: after ∧ (∀ m ∈ before, ¬ m.Offending) ∧ Refused n e

@[simp] theorem not_firstRefused_nil : ¬ FirstRefused [] e := by
  rintro ⟨before,n,after,h,-⟩
  simp at h

theorem firstRefused_cons : FirstRefused (n :: ns) e ↔ Refused n e ∨ ¬ n.Offending ∧ FirstRefused ns e := by
  constructor
  · rintro ⟨before,m,after,h,hbefore,hm⟩
    cases before with
    | nil =>
      cases h
      exact .inl hm
    | cons b before =>
      cases h
      obtain ⟨hb,hbefore⟩ := List.forall_mem_cons.1 hbefore
      exact .inr ⟨hb,before,m,after,rfl,hbefore,hm⟩
  · rintro (h|⟨hn,before,m,after,rfl,hbefore,hm⟩)
    · exact ⟨[],n,ns,rfl,by simp,h⟩
    · exact ⟨n :: before,m,after,rfl,List.forall_mem_cons.2 ⟨hn,hbefore⟩,hm⟩

theorem firstRefused_append : FirstRefused (ns ++ ms) e ↔
    FirstRefused ns e ∨ (∀ n ∈ ns, ¬ n.Offending) ∧ FirstRefused ms e := by
  induction ns with
  | nil => simp
  | cons n ns ih =>
    rw [List.cons_append,firstRefused_cons,firstRefused_cons,ih,List.forall_mem_cons]
    tauto

theorem exists_firstRefused_iff : (∃ e, FirstRefused ns e) ↔ ∃ n ∈ ns, n.Offending := by
  induction ns with
  | nil => simp
  | cons n ns ih =>
    simp only [firstRefused_cons,exists_or,exists_and_left,exists_refused_iff,ih,List.mem_cons,
      exists_eq_or_imp]
    tauto

/-- A computation that fails with the reason of the first offending operator ends in a value if there
is no such operator. -/
theorem exists_ok_iff {x : Except EncodeError (List String)}
    (h : ∀ e, x = .error e ↔ FirstRefused ns e) : (∃ lines, x = .ok lines) ↔ ∀ n ∈ ns, ¬ n.Offending := by
  have herror : (∃ e, x = .error e) ↔ ∃ n ∈ ns, n.Offending := by
    rw [← exists_firstRefused_iff]
    exact exists_congr h
  rw [← not_iff_not]
  push Not
  rw [← herror]
  cases x <;> simp

/-- Whatever is written already, the error is that of the first offending operator. -/
theorem encodeAfter_eq_error_iff {written : List String} :
    encodeAfter written p = .error e ↔ FirstRefused p.operators e := by
  induction p generalizing written e with
  | scan t =>
    rw [operators,firstRefused_cons]
    constructor
    · intro h
      cases h
      exact .inl (.scan t)
    · rintro (h|⟨-,h⟩)
      · cases h
        rfl
      · exact absurd h not_firstRefused_nil
  | arrowScan t cols =>
    rw [operators,firstRefused_cons]
    constructor
    · intro h
      cases h
    · rintro (h|⟨-,h⟩)
      · cases h
      · exact absurd h not_firstRefused_nil
  | filter input c ih | project input es ns ih =>
    rw [operators,firstRefused_cons,encodeAfter,bind_eq_error_iff,ih]
    constructor
    · rintro (h|⟨_,-,h⟩)
      · exact .inr ⟨id,h⟩
      · cases h
    · rintro (h|⟨-,h⟩)
      · cases h
      · exact .inl h
  | aggregate input groups calls ih =>
    rw [operators,firstRefused_cons,encodeAfter]
    split
    case isTrue hdistinct =>
      obtain ⟨c,hc,hdistinct⟩ := List.any_eq_true.1 hdistinct
      constructor
      · intro h
        cases h
        exact .inl (.distinct hc hdistinct)
      · rintro (h|⟨hn,-⟩)
        · cases h
          rfl
        · exact absurd ⟨c,hc,hdistinct⟩ hn
    case isFalse hplain =>
      have hn : ¬ (Plan.aggregate input groups calls).Offending :=
        fun hoffending => hplain (List.any_eq_true.2 hoffending)
      rw [bind_eq_error_iff,ih]
      constructor
      · rintro (h|⟨_,-,h⟩)
        · exact .inr ⟨hn,h⟩
        · cases h
      · rintro (h|⟨-,h⟩)
        · exact absurd (exists_refused_iff.1 ⟨e,h⟩) hn
        · exact .inl h
  | join left right condition kind ihl ihr =>
    have hroot : (∃ columns, equiColumns kind condition = .ok columns) ↔
        ¬ (Plan.join left right condition kind).Offending := equiColumns_isOk_iff.trans not_not.symm
    have hleft : (∃ lines, encodeAfter written left = .ok lines) ↔ ∀ n ∈ left.operators, ¬ n.Offending :=
      exists_ok_iff fun _ => ihl
    rw [operators,firstRefused_cons,firstRefused_append,encodeAfter]
    constructor
    · intro h
      obtain h|⟨columns,hcolumns,h⟩ := bind_eq_error_iff.1 h
      · exact .inl (equiColumns_eq_error_iff.1 h)
      have hn := hroot.1 ⟨columns,hcolumns⟩
      obtain h|⟨first,hfirst,h⟩ := bind_eq_error_iff.1 h
      · exact .inr ⟨hn,.inl (ihl.1 h)⟩
      obtain h|⟨_,-,h⟩ := bind_eq_error_iff.1 h
      · exact .inr ⟨hn,.inr ⟨hleft.1 ⟨first,hfirst⟩,ihr.1 h⟩⟩
      · cases h
    · rintro (h|⟨hn,h⟩)
      · exact bind_eq_error_iff.2 (.inl (equiColumns_eq_error_iff.2 h))
      obtain ⟨columns,hcolumns⟩ := hroot.2 hn
      refine bind_eq_error_iff.2 (.inr ⟨columns,hcolumns,?_⟩)
      rcases h with h|⟨hl,h⟩
      · exact bind_eq_error_iff.2 (.inl (ihl.2 h))
      · obtain ⟨first,hfirst⟩ := hleft.2 hl
        exact bind_eq_error_iff.2 (.inr ⟨first,hfirst,bind_eq_error_iff.2 (.inl (ihr.2 h))⟩)

/-- A plan is encoded just if none of its operators is offending. Each offending operator is refused
for exactly one reason, and the error of a plan is the reason of the first one. -/
theorem encode_blames_first (p : Plan) :
    ((∃ text, encode p = .ok text) ↔ ∀ n ∈ p.operators, ¬ n.Offending) ∧
      (∀ n, n.Offending ↔ ∃! e, Refused n e) ∧
      ∀ e, encode p = .error e ↔ FirstRefused p.operators e := by
  have herror (e : EncodeError) : encodeLines p = .error e ↔ FirstRefused p.operators e :=
    encodeAfter_eq_error_iff
  refine ⟨?_,fun n => ?_,fun e => map_eq_error_iff.trans (herror e)⟩
  · rw [← exists_ok_iff herror]
    simp only [encode,map_eq_ok_iff]
    constructor
    · rintro ⟨_,lines,hlines,-⟩
      exact ⟨lines,hlines⟩
    · rintro ⟨lines,hlines⟩
      exact ⟨_,lines,hlines,rfl⟩
  · rw [← exists_refused_iff]
    exact ⟨fun ⟨e,he⟩ => ⟨e,he,fun _ he' => he'.unique he⟩,ExistsUnique.exists⟩

/-- The join is in order, and its left input comes before its right one. -/
example : encode (.join (.aggregate (.scan orders) [] [⟨.count,true,[0],.bigInt,"n"⟩]) (.scan customers)
    (.call .eq [.column 0 .bigInt,.column 1 .bigInt] .boolean) .inner) = .error .distinctAggregate := rfl

end EnginePlan
end QueryPlan
