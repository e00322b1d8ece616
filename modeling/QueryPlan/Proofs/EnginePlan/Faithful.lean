import QueryPlan.Proofs.EnginePlan.Lines
import QueryPlan.Proofs.Except
import QueryPlan.Proofs.Rewrite.Meaning

/-! # Engine plans are faithful

Each line is read with the plans of the lines before at hand, so a plan is read back line by line in
the order of its writing. -/
namespace QueryPlan

namespace Plan

@[simp] theorem types_canonical (p : Plan) : p.canonical.types = p.types := by
  induction p with
  | scan t => rfl
  | arrowScan t cols => rfl
  | filter input condition ih => exact ih
  | project input es ns ih => rfl
  | join left right condition kind ihl ihr => simp only [canonical,types,ihl,ihr]
  | aggregate input groups calls ih =>
    simp [canonical,types,ih,AggregateCall.unnamed,Function.comp_def]

end Plan

namespace EnginePlan

/-- Plans over the tables of a catalog that are used by position and type as their inputs have them,
with calls of the types that their operands give them and literals as the binder makes them. -/
structure Readable (c : Catalog) (p : Plan) : Prop where
  columns : p.Everywhere Plan.ColumnsFit
  calls : p.Everywhere Plan.CallsTyped
  literals : p.Everywhere fun q => ∀ e ∈ q.exprs, e.Spelled
  tables : ∀ t ∈ p.scans, t ∈ c.tables
  names : ∀ t ∈ p.scans, '\n' ∉ t.name.toList

theorem Readable.exprs {c : Catalog} {p : Plan} (hp : Readable c p) :
    ∀ e ∈ p.exprs, e.Readable p.inputTypes := fun e he =>
  ⟨(Plan.everywhere_iff.1 hp.columns).1.1 e he,(Plan.everywhere_iff.1 hp.calls).1 e he,
    (Plan.everywhere_iff.1 hp.literals).1 e he⟩

theorem Readable.input {c : Catalog} {p q : Plan} (hp : Readable c p) (hq : q ∈ p.inputs) :
    Readable c q := by
  have hscans : ∀ t ∈ q.scans, t ∈ p.scans := by
    cases p <;> simp_all [Plan.inputs,Plan.scans]
    rcases hq with rfl | rfl <;> simp_all
  exact {
    columns := (Plan.everywhere_iff.1 hp.columns).2 q hq
    calls := (Plan.everywhere_iff.1 hp.calls).2 q hq
    literals := (Plan.everywhere_iff.1 hp.literals).2 q hq
    tables := fun t ht => hp.tables t (hscans t ht)
    names := fun t ht => hp.names t (hscans t ht) }

/-- The characters of lines, each with the line break at its end. -/
def ofLines (lines : List String) : List Char := lines.flatMap fun l => l.toList ++ ['\n']

/-- Lines that read back, behind those of given plans, as some more plans and one last. -/
structure ReadBack (c : Catalog) (plans : List Plan) (written : List String) (more : List Plan)
    (last : Plan) : Prop where
  length : written.length = more.length + 1
  read (n : Nat) (rest : List Char) :
    Reading.lines c (written.length + n) plans (ofLines written ++ rest) =
      Reading.lines c n (plans ++ more ++ [last]) rest

namespace ReadBack

variable {c : Catalog} {plans more more' : List Plan} {before written written' : List String}
  {p q : Plan} {l : String}

theorem single (h : ∀ rest, Reading.line c plans (l.toList ++ '\n' :: rest) = some (p,rest)) :
    ReadBack c plans [l] [] p where
  length := rfl
  read n rest := by
    obtain ⟨d,ds,htext⟩ : ∃ d ds, l.toList ++ '\n' :: rest = d :: ds :=
      List.exists_cons_of_ne_nil (by simp)
    have hline := h rest
    rw [List.length_singleton,Nat.add_comm 1 n,ofLines,List.flatMap_singleton,List.append_assoc,
      List.singleton_append]
    rw [htext] at hline ⊢
    simp [Reading.lines,hline]

theorem append (hp : ReadBack c plans written more p)
    (hq : ReadBack c (plans ++ more ++ [p]) written' more' q) :
    ReadBack c plans (written ++ written') (more ++ [p] ++ more') q where
  length := by
    have := hp.length
    have := hq.length
    simp
    omega
  read n rest := by
    have htext : ofLines (written ++ written') = ofLines written ++ ofLines written' :=
      List.flatMap_append
    rw [List.length_append,Nat.add_assoc,htext,List.append_assoc,hp.read,hq.read]
    simp

theorem snoc (hp : ReadBack c plans written more p)
    (h : ∀ rest, Reading.line c (plans ++ more ++ [p]) (l.toList ++ '\n' :: rest) = some (q,rest)) :
    ReadBack c plans (written ++ [l]) (more ++ [p]) q := by
  simpa using hp.append (single h)

/-- Behind as many plans as lines, the plan of the last line has the number of that line. -/
theorem getElem?_last (hp : ReadBack c plans written more p)
    (hbefore : plans.length = before.length) :
    (plans ++ more ++ [p])[(before ++ written).length-1]? = some p := by
  have := hp.length
  have hindex : (before ++ written).length - 1 = (plans ++ more).length := by
    simp only [List.length_append]
    omega
  rw [hindex]
  exact List.getElem?_concat_length

/-- It still has it when more lines have been read. -/
theorem getElem?_first (hp : ReadBack c plans written more p)
    (hbefore : plans.length = before.length) (more' : List Plan) (q : Plan) :
    (plans ++ (more ++ [p] ++ more') ++ [q])[(before ++ written).length-1]? = some p := by
  have hlast := hp.getElem?_last hbefore
  have hmore : plans ++ (more ++ [p] ++ more') ++ [q] = plans ++ more ++ [p] ++ (more' ++ [q]) := by
    simp
  rw [hmore,List.getElem?_append_left (List.getElem?_eq_some_iff.1 hlast).1]
  exact hlast

end ReadBack

/-- An equi-join compares two columns of one type. -/
theorem equiColumns_eq_ok {kind : JoinKind} {condition : Expr} {lower higher : Nat}
    (h : equiColumns kind condition = .ok (lower,higher)) : kind = .inner ∧
      ∃ a b s t, condition = .call .eq [.column a s,.column b s] t ∧
        lower = min a b ∧ higher = max a b := by
  unfold equiColumns at h
  split at h
  case isTrue => cases h
  case isFalse hkind =>
    refine ⟨not_not.1 hkind,?_⟩
    split at h
    case h_2 => cases h
    case h_1 op args t =>
      split at h
      case isTrue => cases h
      case isFalse hop =>
        obtain rfl : op = .eq := not_not.1 hop
        split at h
        case h_1 a s b s' =>
          split at h
          case isFalse => cases h
          case isTrue hs =>
            cases h
            exact ⟨a,b,s,t,by rw [hs],rfl,rfl⟩
        case h_2 => cases h
        case h_3 => cases h

theorem lowerFirst_eq (a b : Nat) (s t : SqlType) :
    (Expr.call .eq [.column a s,.column b s] t).lowerFirst =
      .call .eq [.column (min a b) s,.column (max a b) s] t := by
  rw [Expr.lowerFirst]
  split
  case isTrue h => rw [Nat.min_eq_left h,Nat.max_eq_right h]
  case isFalse h => rw [Nat.min_eq_right (by omega),Nat.max_eq_left (by omega)]

/-- The lower and the higher of two columns of one type have it too. -/
theorem getElem?_min_max {types : List SqlType} {a b : Nat} {s : SqlType}
    (ha : types[a]? = some s) (hb : types[b]? = some s) :
    types[min a b]? = some s ∧ types[max a b]? = some s := by
  obtain h | h := Nat.le_total a b
  · rw [Nat.min_eq_left h,Nat.max_eq_right h]
    exact ⟨ha,hb⟩
  · rw [Nat.min_eq_right h,Nat.max_eq_left h]
    exact ⟨hb,ha⟩

theorem boolean_of_eq_typed {e e' : Expr} {t : SqlType} (h : (Expr.call .eq [e,e'] t).Typed) :
    t = .boolean := by
  have := (Expr.typed_call.1 h).1.resolve_left (by simp)
  simp [Operator.resultType?] at this
  exact this.2.symm

/-- The lines of a plan are read back, whatever lines stand before. -/
theorem encodeAfter_readBack {c : Catalog} (hc : c.tableNames.Nodup) {p : Plan} (hp : Readable c p)
    {before lines : List String} (h : encodeAfter before p = .ok lines) {plans : List Plan}
    (hplans : plans.length = before.length) :
    ∃ written more, lines = before ++ written ∧ ReadBack c plans written more p.canonical := by
  induction p generalizing before lines plans with
  | scan t => cases h
  | arrowScan t cols =>
    cases h
    refine ⟨_,_,rfl,.single fun rest => Reading.line_scan hc ?_ ?_ ?_ rest⟩
    · exact hp.tables t (by simp [Plan.scans])
    · exact hp.names t (by simp [Plan.scans])
    · split <;> simp
  | filter input condition ih =>
    obtain ⟨inner,hinner,h⟩ := bind_eq_ok_iff.1 h
    cases h
    obtain ⟨written,more,rfl,hread⟩ := ih (hp.input (by simp [Plan.inputs])) hinner hplans
    have hcondition : condition.Readable input.canonical.types := by
      simpa [Plan.exprs,Plan.inputTypes,Plan.inputs] using hp.exprs
    exact ⟨written ++ [_],_,List.append_assoc _ _ _,hread.snoc fun rest =>
      Reading.line_filter (hread.getElem?_last hplans) hcondition rest⟩
  | project input es ns ih =>
    obtain ⟨inner,hinner,h⟩ := bind_eq_ok_iff.1 h
    cases h
    obtain ⟨written,more,rfl,hread⟩ := ih (hp.input (by simp [Plan.inputs])) hinner hplans
    have hes : ∀ e ∈ es, e.Readable input.canonical.types := by
      simpa [Plan.exprs,Plan.inputTypes,Plan.inputs] using hp.exprs
    exact ⟨written ++ [_],_,List.append_assoc _ _ _,hread.snoc fun rest =>
      Reading.line_project (hread.getElem?_last hplans) hes rest⟩
  | join left right condition kind ihl ihr =>
    obtain ⟨⟨lower,higher⟩,hequi,h⟩ := bind_eq_ok_iff.1 h
    obtain ⟨first,hfirst,h⟩ := bind_eq_ok_iff.1 h
    obtain ⟨both,hboth,h⟩ := bind_eq_ok_iff.1 h
    cases h
    obtain ⟨writtenL,moreL,rfl,hreadL⟩ := ihl (hp.input (by simp [Plan.inputs])) hfirst hplans
    have hplansR : (plans ++ moreL ++ [left.canonical]).length = (before ++ writtenL).length := by
      have := hreadL.length
      simp
      omega
    obtain ⟨writtenR,moreR,rfl,hreadR⟩ := ihr (hp.input (by simp [Plan.inputs])) hboth hplansR
    obtain ⟨rfl,a,b,s,t,rfl,rfl,rfl⟩ := equiColumns_eq_ok hequi
    have hcondition : (Expr.call .eq [.column a s,.column b s] t).Readable
        (left.canonical.types ++ right.canonical.types) := by
      simpa [Plan.exprs,Plan.inputTypes,Plan.inputs] using hp.exprs
    obtain rfl : t = .boolean := boolean_of_eq_typed hcondition.typed
    have ha : (left.canonical.types ++ right.canonical.types)[a]? = some s :=
      Expr.fits_column.1 (hcondition.operand (by simp)).fits
    have hb : (left.canonical.types ++ right.canonical.types)[b]? = some s :=
      Expr.fits_column.1 (hcondition.operand (by simp)).fits
    obtain ⟨hlower,hhigher⟩ := getElem?_min_max ha hb
    have hleft := hreadL.getElem?_first hplans moreR right.canonical
    have hright := hreadR.getElem?_last hplansR
    rw [Plan.canonical,lowerFirst_eq]
    have hassoc (l : String) :
        before ++ writtenL ++ writtenR ++ [l] = before ++ (writtenL ++ writtenR ++ [l]) := by simp
    exact ⟨_,_,hassoc _,(hreadL.append hreadR).snoc fun rest =>
      Reading.line_join hleft (by simpa using hright) hlower hhigher rest⟩
  | aggregate input groups calls ih =>
    rw [encodeAfter] at h
    split at h
    case isTrue => cases h
    case isFalse hdistinct =>
      obtain ⟨inner,hinner,h⟩ := bind_eq_ok_iff.1 h
      cases h
      obtain ⟨written,more,rfl,hread⟩ := ih (hp.input (by simp [Plan.inputs])) hinner hplans
      have hcalls : ∀ call ∈ calls, call.Fits input.canonical.types := by
        rw [Plan.types_canonical]
        exact (Plan.columnsFit_aggregate.1 (Plan.everywhere_aggregate.1 hp.columns).1).2
      exact ⟨written ++ [_],_,List.append_assoc _ _ _,hread.snoc fun rest =>
        Reading.line_aggregate (hread.getElem?_last hplans) hcalls (by simpa using hdistinct) rest⟩

theorem lines_nil (c : Catalog) (n : Nat) (plans : List Plan) :
    Reading.lines c n plans [] = some plans := by
  cases n <;> rfl

theorem toList_join_map (lines : List String) :
    (String.join (lines.map (· ++ "\n"))).toList = ofLines lines := by
  simp [ofLines,List.flatMap_map]

theorem length_le_length_ofLines (lines : List String) : lines.length ≤ (ofLines lines).length := by
  induction lines with
  | nil => simp
  | cons l lines ih =>
    have htext : ofLines (l :: lines) = l.toList ++ ['\n'] ++ ofLines lines := List.flatMap_cons
    simp only [htext,List.length_append,List.length_cons,List.length_nil]
    omega

/-- A plan is read back from its text, but for what the text leaves out. -/
theorem decode_of_encode {c : Catalog} (hc : c.tableNames.Nodup) {p : Plan} (hp : Readable c p)
    {text : String} (h : encode p = .ok text) : decode c text = some p.canonical := by
  obtain ⟨lines,hlines,rfl⟩ := map_eq_ok_iff.1 h
  obtain ⟨written,more,hwritten,hread⟩ := encodeAfter_readBack hc hp hlines List.length_nil
  obtain rfl : lines = written := by simpa using hwritten
  obtain ⟨n,hn⟩ := Nat.exists_eq_add_of_le (length_le_length_ofLines lines)
  have := hread.read n []
  rw [List.append_nil,lines_nil,← hn] at this
  rw [decode,← String.length_toList,toList_join_map,this]
  simp

/-- Engine plans are faithful. Over a catalog whose tables have names of their own, the text of a
plan that can be read gives back the plan, so that plans of one text differ in the names of projected
and aggregated columns and in the order of the operands of join equalities only. Over rows of one
kind, the printed form of an expression is that of no other. -/
theorem encode_faithful (c : Catalog) (hc : c.tableNames.Nodup) :
    (∀ p text, Readable c p → encode p = .ok text → decode c text = some p.canonical) ∧
    (∀ p q text, Readable c p → Readable c q → encode p = .ok text → encode q = .ok text →
      p.canonical = q.canonical) ∧
    ∀ (types : List SqlType) (e e' : Expr), e.Readable types → e'.Readable types →
      e.text = e'.text → e = e' := by
  refine ⟨fun p text hp h => decode_of_encode hc hp h,fun p q text hp hq h h' => ?_,?_⟩
  · have hpread := decode_of_encode hc hp h
    have hqread := decode_of_encode hc hq h'
    exact Option.some.inj (hpread.symm.trans hqread)
  · exact fun types e e' he he' htext => Reading.eq_of_text_eq he he' htext

def averagePerCityText : String :=
  "S;orders;false;0,1,2\nF;0;>($1, 10)\nS;customers;false;0,1\nJ;1;2;2;3\n" ++
  "A;3;4;SUM($1),COUNT($1)\nP;4;[$0, CAST(/($1, $2)):INTEGER]\n"

/-- The same plan under other names, joined from the other side of the equality. -/
def averagePerTown : Plan :=
  .project (.aggregate (.join
      (.filter (.arrowScan orders [0,1,2]) (.call .gt [.column 1 .integer,.literal (.integer 10)] .boolean))
      (.arrowScan customers [0,1]) (.call .eq [.column 3 .integer,.column 2 .integer] .boolean) .inner)
    [4] [⟨.sum,false,[1],.integer,"sum"⟩,⟨.count,false,[1],.bigInt,"count"⟩])
  [.column 0 .varchar,.cast (.call .divide [.column 1 .integer,.column 2 .bigInt] .bigInt) .integer]
  ["town","average"]

theorem readable_averages {p : Plan} (hp : p = averagePerCityOptimised ∨ p = averagePerTown) :
    Readable shop p where
  columns := by
    rcases hp with rfl | rfl <;>
      simp [averagePerCityOptimised,averagePerTown,orders,customers,Plan.types,Plan.width,Table.width,
        AggregateCall.Fits,AggregateFunction.resultType,Expr.cast]
  calls := by
    have htype : SqlType.divisive .integer .bigInt = some .bigInt := by decide
    rcases hp with rfl | rfl <;>
      simp [averagePerCityOptimised,averagePerTown,Plan.CallsTyped,Plan.exprs,Expr.cast,Expr.type,
        Literal.type,Operator.resultType?,Operator.isComparison,SqlType.comparableWith,htype]
  literals := by
    rcases hp with rfl | rfl <;>
      simp [averagePerCityOptimised,averagePerTown,Plan.exprs,Expr.cast,Literal.Spelled]
  tables := by rcases hp with rfl | rfl <;> decide
  names := by rcases hp with rfl | rfl <;> decide

theorem encode_faithful_averagePerCity :
    shop.tableNames.Nodup ∧ Readable shop averagePerCityOptimised ∧ Readable shop averagePerTown ∧
    encode averagePerCityOptimised = .ok averagePerCityText ∧
    encode averagePerTown = .ok averagePerCityText ∧
    decode shop averagePerCityText = some averagePerCityOptimised.canonical ∧
    averagePerCityOptimised.canonical = averagePerTown.canonical ∧
    (Expr.call .minus [.column 0 .integer,.column 1 .integer] .integer).text ≠
      (Expr.call .negate [.column 0 .integer] .integer).text := by
  have hnames : shop.tableNames.Nodup := by decide
  have hreadCity := readable_averages (.inl rfl)
  have hreadTown := readable_averages (.inr rfl)
  have hcity : encode averagePerCityOptimised = .ok averagePerCityText := by decide +kernel
  have htown : encode averagePerTown = .ok averagePerCityText := by decide +kernel
  have hminus : (Expr.call .minus [.column 0 .integer,.column 1 .integer] .integer).Readable
      [.integer,.integer] := by
    have htype : Operator.minus.resultType? [.integer,.integer] = some .integer := by decide
    exact ⟨by simp,by simp [Expr.type,htype],by simp⟩
  have hnegate : (Expr.call .negate [.column 0 .integer] .integer).Readable [.integer,.integer] := by
    have htype : Operator.negate.resultType? [.integer] = some .integer := by decide
    exact ⟨by simp,by simp [Expr.type,htype],by simp⟩
  obtain ⟨hdecode,hsame,hexpr⟩ := encode_faithful shop hnames
  refine ⟨hnames,hreadCity,hreadTown,hcity,htown,hdecode _ _ hreadCity hcity,
    hsame _ _ _ hreadCity hreadTown hcity htown,fun htext => ?_⟩
  cases hexpr _ _ _ hminus hnegate htext

end EnginePlan
end QueryPlan
