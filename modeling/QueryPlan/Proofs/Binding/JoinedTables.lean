import QueryPlan.Proofs.Binding.Resolution
import QueryPlan.Proofs.Meaning.Plan
import QueryPlan.Proofs.Relation.WellFormed

/-! # The tables of a FROM clause

Tables lie side by side in the order of the text, in the rows of the bound plan as in its scope.
Commas and joins of any kind put what follows behind what was there, so names mean the columns of
the tables they say, in conditions of joins as above the FROM clause. -/
namespace QueryPlan

/-! ## Names of joined columns -/

/-- A field of a plan is a column in scope, with a longer name where joining had to make it new. -/
def ScopeColumn.IsField (col : ScopeColumn) (f : Field) : Prop :=
  f.type = col.type ∧ ∃ suffix, f.name = col.name ++ suffix

theorem freeName_extends (placed : List String) (name : String) :
    ∃ suffix, freeName placed name = name ++ suffix := by
  have hself : ∃ suffix, name = name ++ suffix := ⟨"",by simp⟩
  unfold freeName
  split
  · cases hfind : ((List.range placed.length).map fun k => name ++ toString k).find?
        fun c => !nameTaken placed c with
    | none => exact hself
    | some c =>
      obtain ⟨k,-,rfl⟩ := List.mem_map.1 (List.mem_of_find?_eq_some hfind)
      exact ⟨toString k,rfl⟩
  · exact hself

theorem uniquify_extends (names : List String) :
    names.Forall₂ (fun name longer => ∃ suffix, longer = name ++ suffix) (uniquify names) := by
  have hfold (placed : List String) : ∃ longer,
      names.foldl (fun placed name => placed ++ [freeName placed name]) placed = placed ++ longer ∧
        names.Forall₂ (fun name longer => ∃ suffix, longer = name ++ suffix) longer := by
    induction names generalizing placed with
    | nil => exact ⟨[],(List.append_nil _).symm,.nil⟩
    | cons name names ih =>
      obtain ⟨longer,hfold,hall⟩ := ih (placed ++ [freeName placed name])
      refine ⟨freeName placed name :: longer,?_,.cons (freeName_extends placed name) hall⟩
      rw [List.foldl_cons,hfold,List.append_assoc]
      rfl
  obtain ⟨longer,hfold,hall⟩ := hfold []
  rw [uniquify,hfold]
  exact hall

theorem isField_zipWith {cols : List ScopeColumn} {fs : List Field} {names : List String}
    (hfields : cols.Forall₂ ScopeColumn.IsField fs)
    (hnames : (fs.map Field.name).Forall₂ (fun name longer => ∃ suffix, longer = name ++ suffix) names) :
    cols.Forall₂ ScopeColumn.IsField (fs.zipWith (fun f name => ⟨name,f.type⟩) names) := by
  induction hfields generalizing names with
  | nil => exact .nil
  | @cons col f _ _ hfield _ ih =>
    obtain ⟨longer,rest,⟨suffix,rfl⟩,hrest,rfl⟩ := List.forall₂_cons_left_iff.1 hnames
    obtain ⟨htype,before,hname⟩ := hfield
    refine .cons ⟨htype,before ++ suffix,?_⟩ (ih hrest)
    rw [hname,String.append_assoc]

/-! ## Rows of joined tables -/

section
variable {α : Type} {db : Database α} {rels rels' : List NamedTable} {row row' : Row α}

/-- A row of each table, or NULLs for all its columns, side by side. -/
def SideBySide (db : Database α) (rels : List NamedTable) (row : Row α) : Prop :=
  ∃ parts, rels.Forall₂ (fun r part => part ∈ db.rows r.table ∨ part = Row.nulls r.table.width) parts ∧
    row = parts.flatten

theorem SideBySide.append (h : SideBySide db rels row) (h' : SideBySide db rels' row') :
    SideBySide db (rels ++ rels') (row ++ row') := by
  obtain ⟨parts,hparts,rfl⟩ := h
  obtain ⟨parts',hparts',rfl⟩ := h'
  exact ⟨parts ++ parts',List.rel_append hparts hparts',List.flatten_append.symm⟩

theorem sideBySide_nulls (rels : List NamedTable) :
    SideBySide db rels (Row.nulls (rels.flatMap NamedTable.columns).length) := by
  induction rels with
  | nil => exact ⟨[],.nil,rfl⟩
  | cons r rels ih =>
    obtain ⟨parts,hparts,hrow⟩ := ih
    refine ⟨Row.nulls r.table.width :: parts,.cons (.inr rfl) hparts,?_⟩
    rw [List.flatMap_cons,List.length_append,r.length_columns,Row.nulls,List.replicate_add,
      List.flatten_cons,← hrow]
    rfl

end

/-! ## FROM clauses -/

/-- The tables that are joined, in the order of the text. -/
def Sql.TableWithJoins.factors (t : Sql.TableWithJoins) : List Sql.TableFactor :=
  t.first :: t.joins.map Sql.Join.factor

namespace Binding

/-- The tables of a bound FROM clause lie side by side: in its scope under different names, in its
plan from left to right, and so in the fields and the rows of the plan. -/
structure LaidOut (cs : Bool) (rels : List NamedTable) (bound : Plan × Scope) : Prop where
  spans : Spans ⟨bound.2,cs⟩ rels
  scans : bound.1.scans = rels.map NamedTable.table
  fields : bound.2.columns.Forall₂ ScopeColumn.IsField bound.1.fields
  width : bound.1.width = bound.2.columns.length
  rows : ∀ {α : Type} [DecidableEq α] (I : Interpretation α) (db : Database α),
    ∀ row ∈ bound.1.rows I db, SideBySide db rels row

variable {c : Catalog} {bound bound' left right : Plan × Scope} {rels rels' : List NamedTable}
  {cs : Bool} {s : Scope}

theorem Spans.beside (hl : Spans ⟨left.2,cs⟩ rels) (hr : Spans ⟨right.2,cs⟩ rels')
    (hs : left.2.beside cs right.2 = .ok s) : Spans ⟨s,cs⟩ (rels ++ rels') := by
  obtain ⟨hnew,rfl⟩ := Scope.beside_eq_ok hs
  refine ⟨List.pairwise_append.2 ⟨hl.distinct,hr.distinct,fun a ha b hb => ?_⟩,?_,?_⟩
  · have hmissing := hnew b.relation (hr.relations ▸ List.mem_map_of_mem hb)
    rw [Scope.hasRelation,hl.relations,List.any_map,List.any_eq_false] at hmissing
    simpa using hmissing a ha
  · rw [List.map_append,← hl.relations,← hr.relations]
  · rw [List.flatMap_append,← hl.columns,← hr.columns]

/-- Joined tables lie behind those they are joined to. -/
theorem LaidOut.beside {on : Expr} {kind : JoinKind} (hl : LaidOut cs rels left)
    (hr : LaidOut cs rels' right) (hs : left.2.beside cs right.2 = .ok s) :
    LaidOut cs (rels ++ rels') (.join left.1 right.1 on kind,s) := by
  have hspans := hl.spans.beside hr.spans hs
  obtain ⟨-,rfl⟩ := Scope.beside_eq_ok hs
  refine ⟨hspans,?_,isField_zipWith (List.rel_append hl.fields hr.fields) (uniquify_extends _),?_,
    fun I db row hrow => ?_⟩
  · rw [List.map_append,← hl.scans,← hr.scans]
    rfl
  · rw [Plan.width,hl.width,hr.width,List.length_append]
  · have hpart {b : Plan × Scope} {rels : List NamedTable} (hb : LaidOut cs rels b) {part : Row _}
        (hpart : part ∈ b.1.rows I db ∨ part = Row.nulls b.1.width) : SideBySide db rels part := by
      rcases hpart with hmem|rfl
      · exact hb.rows I db part hmem
      · rw [hb.width,hb.spans.columns]
        exact sideBySide_nulls rels
    obtain ⟨l,r,rfl,hleft,hright⟩ := Plan.mem_rows_join hrow
    exact (hpart hl hleft).append (hpart hr hright)

theorem scan_laidOut (r : NamedTable) :
    LaidOut cs [r] (.scan r.table,.ofTable r.relation r.table) where
  spans := ⟨List.pairwise_singleton _ _,rfl,(List.flatMap_singleton _ _).symm⟩
  scans := rfl
  fields := List.forall₂_map_left_iff.2 (List.forall₂_map_right_iff.2 (List.forall₂_same.2
    fun _ _ => ⟨rfl,"",(String.append_empty).symm⟩))
  width := r.length_columns.symm
  rows _ _ row hrow := ⟨[row],.cons (.inl hrow) .nil,(List.append_nil row).symm⟩

theorem table_laidOut {factor : Sql.TableFactor} (h : table c factor = .ok bound) :
    ∃ r, NamedTable.ofFactor? c factor = some r ∧ LaidOut c.caseSensitive [r] bound := by
  unfold table at h
  split at h
  · split at h
    · cases h
    · rename_i t hlookup
      split at h
      · cases h
        exact ⟨⟨t.name,t⟩,by rw [NamedTable.ofFactor?,hlookup]; rfl,scan_laidOut _⟩
      · rename_i label
        split at h
        · cases h
          exact ⟨⟨label.name.value,t⟩,by rw [NamedTable.ofFactor?,hlookup]; rfl,scan_laidOut _⟩
        · cases h
  all_goals cases h

/-- The tables that items of a FROM clause name. -/
def Denote (c : Catalog) (factors : List Sql.TableFactor) (rels : List NamedTable) : Prop :=
  factors.Forall₂ (fun factor r => NamedTable.ofFactor? c factor = some r) rels

/-- Where each step lays its tables behind those before, so do all steps. -/
theorem foldlM_laidOut {τ : Type} {step : Plan × Scope → τ → Except QueryError (Plan × Scope)}
    (factors : τ → List Sql.TableFactor) (hstep : ∀ b x b' rels, LaidOut cs rels b →
      step b x = .ok b' → ∃ rels', Denote c (factors x) rels' ∧ LaidOut cs (rels ++ rels') b')
    {xs : List τ} (hb : LaidOut cs rels bound) (h : xs.foldlM step bound = .ok bound') :
    ∃ rels', Denote c (xs.flatMap factors) rels' ∧ LaidOut cs (rels ++ rels') bound' := by
  induction xs generalizing bound rels with
  | nil =>
    cases h
    exact ⟨[],.nil,(List.append_nil rels).symm ▸ hb⟩
  | cons x xs ih =>
    rw [List.foldlM_cons] at h
    obtain ⟨b,hx,h⟩ := bind_eq_ok_iff.1 h
    obtain ⟨first,hfirst,hlaid⟩ := hstep bound x b rels hb hx
    obtain ⟨rest,hrest,hlaid⟩ := ih hlaid h
    rw [List.append_assoc] at hlaid
    exact ⟨first ++ rest,List.rel_append hfirst hrest,hlaid⟩

theorem tableWithJoins_laidOut {t : Sql.TableWithJoins} (h : tableWithJoins c t = .ok bound) :
    ∃ rels, Denote c t.factors rels ∧ LaidOut c.caseSensitive rels bound := by
  obtain ⟨first,hfirst,h⟩ := bind_eq_ok_iff.1 h
  obtain ⟨r,hr,hlaid⟩ := table_laidOut hfirst
  obtain ⟨rels,hrels,hlaid⟩ := foldlM_laidOut (c := c) (fun j => [j.factor])
    (fun b j b' rels hb hj => by
      obtain ⟨right,s,on,kind,constrained,hright,hs,-,-,rfl⟩ := join_eq_ok hj
      obtain ⟨r,hr,hlaid⟩ := table_laidOut hright
      exact ⟨[r],.cons hr .nil,hb.beside hlaid hs⟩) hlaid h
  rw [← List.map_eq_flatMap] at hrels
  exact ⟨r :: rels,.cons hr hrels,hlaid⟩

theorem fromClause_laidOut {ts : List Sql.TableWithJoins} (h : fromClause c ts = .ok bound) :
    ∃ rels, Denote c (ts.flatMap Sql.TableWithJoins.factors) rels ∧
      LaidOut c.caseSensitive rels bound := by
  unfold fromClause at h
  split at h
  · cases h
  · obtain ⟨first,hfirst,h⟩ := bind_eq_ok_iff.1 h
    obtain ⟨rels,hrels,hlaid⟩ := tableWithJoins_laidOut hfirst
    obtain ⟨rest,hrest,hlaid⟩ := foldlM_laidOut (c := c) Sql.TableWithJoins.factors
      (fun b t b' rels hb ht => by
        obtain ⟨right,hright,ht⟩ := bind_eq_ok_iff.1 ht
        obtain ⟨s,hs,ht⟩ := bind_eq_ok_iff.1 ht
        cases ht
        obtain ⟨rels',hrels',hlaid⟩ := tableWithJoins_laidOut hright
        exact ⟨rels',hrels',hb.beside hlaid hs⟩) hlaid h
    exact ⟨rels ++ rest,List.rel_append hrels hrest,hlaid⟩

/-! ## Conditions of joins -/

theorem join_on {j : Sql.Join} {e : Sql.Expr} (h : join c bound j = .ok bound')
    (hform : j.form ≠ .cross) (hon : j.constraint = .on e) : ∃ right on kind,
      bound'.1 = .join bound.1 right on kind ∧ condition ⟨bound'.2,c.caseSensitive⟩ .on e = .ok on := by
  obtain ⟨right,s,on,kind,constrained,-,-,hkind,hcondition,rfl⟩ := join_eq_ok h
  have hconstrained : constrained = true := by
    unfold joinKind at hkind
    split at hkind <;> cases hkind <;> first | rfl | exact absurd ‹_› hform
  refine ⟨right.1,on,kind,rfl,?_⟩
  rw [hconstrained,hon] at hcondition
  exact hcondition

/-- A join stays in the plan while more is joined to it. -/
theorem mem_operators_of_foldlM {τ : Type} {step : Plan × Scope → τ → Except QueryError (Plan × Scope)}
    (hstep : ∀ b x b', step b x = .ok b' → ∃ right on kind, b'.1 = .join b.1 right on kind)
    {xs : List τ} {p : Plan} (hp : p ∈ bound.1.operators) (h : xs.foldlM step bound = .ok bound') :
    p ∈ bound'.1.operators := by
  refine foldlM_induction (P := fun b => p ∈ b.1.operators) (fun b x b' hb hx => ?_) hp h
  obtain ⟨right,on,kind,heq⟩ := hstep b x b' hx
  rw [heq,Plan.operators]
  exact List.mem_cons_of_mem _ (List.mem_append_left _ hb)

theorem join_isJoin {j : Sql.Join} (h : join c bound j = .ok bound') :
    ∃ right on kind, bound'.1 = .join bound.1 right on kind := by
  obtain ⟨right,s,on,kind,-,-,-,-,-,rfl⟩ := join_eq_ok h
  exact ⟨right.1,on,kind,rfl⟩

/-- The condition of a join is bound over the tables up to this join. -/
theorem tableWithJoins_on {t : Sql.TableWithJoins} {joins rest : List Sql.Join} {j : Sql.Join}
    {e : Sql.Expr} (h : tableWithJoins c t = .ok bound) (hjoins : t.joins = joins ++ j :: rest)
    (hform : j.form ≠ .cross) (hon : j.constraint = .on e) : ∃ left right on kind s,
      tableWithJoins c ⟨t.first,joins ++ [j]⟩ = .ok (.join left right on kind,s) ∧
      .join left right on kind ∈ bound.1.operators ∧ condition ⟨s,c.caseSensitive⟩ .on e = .ok on := by
  obtain ⟨first,hfirst,h⟩ := bind_eq_ok_iff.1 h
  rw [hjoins,List.foldlM_append] at h
  obtain ⟨before,hbefore,h⟩ := bind_eq_ok_iff.1 h
  rw [List.foldlM_cons] at h
  obtain ⟨⟨p,s⟩,hj,h⟩ := bind_eq_ok_iff.1 h
  obtain ⟨right,on,kind,rfl,hcondition⟩ := join_on hj hform hon
  refine ⟨before.1,right,on,kind,s,bind_eq_ok_iff.2 ⟨first,hfirst,?_⟩,?_,hcondition⟩
  · rw [List.foldlM_append,hbefore]
    exact bind_eq_ok_iff.2 ⟨before,rfl,bind_eq_ok_iff.2 ⟨_,hj,rfl⟩⟩
  · exact mem_operators_of_foldlM (fun _ _ _ => join_isJoin) List.mem_cons_self h

/-- What is joined item by item stays in the plan. -/
theorem mem_operators_of_items {step : Plan × Scope → Sql.TableWithJoins → Except QueryError (Plan × Scope)}
    (hstep : ∀ b t b', step b t = .ok b' → ∃ item on kind, tableWithJoins c t = .ok item ∧
      b'.1 = .join b.1 item.1 on kind)
    {ts : List Sql.TableWithJoins} (h : ts.foldlM step bound = .ok bound') :
    (∀ p ∈ bound.1.operators, p ∈ bound'.1.operators) ∧
      ∀ t ∈ ts, ∃ item, tableWithJoins c t = .ok item ∧
        ∀ p ∈ item.1.operators, p ∈ bound'.1.operators := by
  induction ts generalizing bound with
  | nil =>
    cases h
    exact ⟨fun _ hp => hp,by simp⟩
  | cons t ts ih =>
    rw [List.foldlM_cons] at h
    obtain ⟨b,ht,h⟩ := bind_eq_ok_iff.1 h
    obtain ⟨hkept,hitems⟩ := ih h
    obtain ⟨item,on,kind,hitem,heq⟩ := hstep bound t b ht
    rw [heq,Plan.operators] at hkept
    refine ⟨fun p hp => hkept p ?_,List.forall_mem_cons.2 ⟨⟨item,hitem,fun p hp => hkept p ?_⟩,hitems⟩⟩
    · exact List.mem_cons_of_mem _ (List.mem_append_left _ hp)
    · exact List.mem_cons_of_mem _ (List.mem_append_right _ hp)

/-- Every item between commas is bound by itself, and stays in the plan. -/
theorem fromClause_item {ts : List Sql.TableWithJoins} (h : fromClause c ts = .ok bound)
    {t : Sql.TableWithJoins} (ht : t ∈ ts) : ∃ item, tableWithJoins c t = .ok item ∧
      ∀ p ∈ item.1.operators, p ∈ bound.1.operators := by
  unfold fromClause at h
  split at h
  · cases h
  · obtain ⟨first,hfirst,h⟩ := bind_eq_ok_iff.1 h
    obtain ⟨hkept,hitems⟩ := mem_operators_of_items (fun b t b' hstep => by
      obtain ⟨item,hitem,hstep⟩ := bind_eq_ok_iff.1 hstep
      obtain ⟨s,-,hstep⟩ := bind_eq_ok_iff.1 hstep
      cases hstep
      exact ⟨item,_,_,hitem,rfl⟩) h
    rcases List.mem_cons.1 ht with rfl|ht
    · exact ⟨first,hfirst,hkept⟩
    · exact hitems t ht

/-- Names are resolved to the right columns. The tables that the items of a FROM clause name lie side
by side in the order of the text, in the scope and in the bound plan, and names and wildcards mean
columns by their positions in this order. So they do in the condition of a join, over the tables up to
this join. -/
theorem fromClause_resolves {ts : List Sql.TableWithJoins} (h : fromClause c ts = .ok bound) :
    ∃ rels, Denote c (ts.flatMap Sql.TableWithJoins.factors) rels ∧
      LaidOut c.caseSensitive rels bound ∧ Resolves ⟨bound.2,c.caseSensitive⟩ rels ∧
      ∀ t ∈ ts, ∀ joins j rest e, t.joins = joins ++ j :: rest → j.form ≠ .cross →
        j.constraint = .on e → ∃ left right on kind s inner,
          .join left right on kind ∈ bound.1.operators ∧
          condition ⟨s,c.caseSensitive⟩ .on e = .ok on ∧
          Denote c (Sql.TableWithJoins.factors ⟨t.first,joins ++ [j]⟩) inner ∧
          LaidOut c.caseSensitive inner (.join left right on kind,s) ∧
          Resolves ⟨s,c.caseSensitive⟩ inner := by
  obtain ⟨rels,hrels,hlaid⟩ := fromClause_laidOut h
  refine ⟨rels,hrels,hlaid,hlaid.spans.resolves,fun t ht joins j rest e hjoins hform hon => ?_⟩
  obtain ⟨item,hitem,hmem⟩ := fromClause_item h ht
  obtain ⟨left,right,on,kind,s,hupto,hjoin,hcondition⟩ := tableWithJoins_on hitem hjoins hform hon
  obtain ⟨inner,hinner,hlaid⟩ := tableWithJoins_laidOut hupto
  exact ⟨left,right,on,kind,s,inner,hmem _ hjoin,hcondition,hinner,hlaid,hlaid.spans.resolves⟩

section

private def namedAs (table label : String) : Sql.TableFactor :=
  .table [⟨table,none⟩] (some ⟨⟨label,none⟩,[]⟩) none [] []

private def dotted (relation name : String) : Sql.Expr := .compound [⟨relation,none⟩,⟨name,none⟩]

/-- `orders AS o LEFT JOIN customers AS c ON o.customer = c.id, orders AS p` -/
def ordersBesideOrders : List Sql.TableWithJoins :=
  [⟨namedAs "orders" "o",[⟨.left,namedAs "customers" "c",
      .on (.binary (dotted "o" "customer") .eq (dotted "c" "id"))⟩]⟩,
    ⟨namedAs "orders" "p",[]⟩]

def ordersBesideOrdersScope : Scope :=
  ⟨[⟨"o","id",.integer⟩,⟨"o","total",.integer⟩,⟨"o","customer",.integer⟩,⟨"c","id",.integer⟩,
    ⟨"c","city",.varchar⟩,⟨"p","id",.integer⟩,⟨"p","total",.integer⟩,⟨"p","customer",.integer⟩],
    ["o","c","p"]⟩

def ordersBesideOrdersPlan : Plan :=
  .join (.join (.scan orders) (.scan customers)
    (.call .eq [.column 2 .integer,.column 3 .integer] .boolean) .left) (.scan orders) .true .inner

/-- The columns of a table that is joined twice are told apart, and `city` needs no qualifier. -/
theorem fromClause_resolves_ordersBesideOrders :
    fromClause shop ordersBesideOrders = .ok (ordersBesideOrdersPlan,ordersBesideOrdersScope) ∧
    (∃ rels, Denote shop (ordersBesideOrders.flatMap Sql.TableWithJoins.factors) rels ∧
      LaidOut true rels (ordersBesideOrdersPlan,ordersBesideOrdersScope) ∧
      Resolves ⟨ordersBesideOrdersScope,true⟩ rels) ∧
    expr ⟨ordersBesideOrdersScope,true⟩ .select (dotted "p" "total") = .ok (.column 6 .integer) ∧
    expr ⟨ordersBesideOrdersScope,true⟩ .select (.identifier ⟨"city",none⟩) = .ok (.column 4 .varchar) ∧
    expr ⟨ordersBesideOrdersScope,true⟩ .select (.identifier ⟨"total",none⟩)
      = .error (.ambiguousColumn "total") := by
  have hbound : fromClause shop ordersBesideOrders
      = .ok (ordersBesideOrdersPlan,ordersBesideOrdersScope) := by decide +kernel
  obtain ⟨rels,hrels,hlaid,hresolves,-⟩ := fromClause_resolves hbound
  exact ⟨hbound,⟨rels,hrels,hlaid,hresolves⟩,by decide +kernel,by decide +kernel,by decide +kernel⟩

end

end Binding
end QueryPlan
