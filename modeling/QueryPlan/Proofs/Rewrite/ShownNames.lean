import QueryPlan.Proofs.Binding.IgnoredClauses
import QueryPlan.Proofs.Relation.Names
import QueryPlan.Proofs.Rewrite.Fixpoint
import QueryPlan.Proofs.Rewrite.Reading

/-! # Names of output columns

The select list of a query is a projection to distinct names. Rules that drop a projection do not
ask for its names, so the optimised plan shows what stands below: columns of one table, or the row of
an aggregate, whose calls are named without a look at its keys. -/
namespace QueryPlan

/-- Of each position no more than one element is picked. -/
theorem subperm_picked {α : Type} {is : List Nat} {xs : List α} (h : is.Nodup)
    (hlt : ∀ i ∈ is, i < xs.length) : (is.filterMap (xs[·]?)).Subperm xs := by
  obtain ⟨js,hperm,hsub⟩ := List.subperm_of_subset h fun i hi => List.mem_range.2 (hlt i hi)
  have hxs : (List.range xs.length).filterMap (xs[·]?) = xs := by
    simpa using Plan.filterMap_getElem?_range xs []
  have hpicked := hsub.filterMap (xs[·]?)
  rw [hxs] at hpicked
  exact ⟨_,hperm.filterMap _,hpicked⟩

theorem Unambiguous.subperm {names names' : List String} (h : Unambiguous names)
    (hsub : names'.Subperm names) : Unambiguous names' := by
  obtain ⟨l,hperm,hsub⟩ := hsub
  have hsymm : ∀ {a b : String}, sameIgnoringCase a b = false → sameIgnoringCase b a = false := by
    intro a b hab
    rwa [sameIgnoringCase,BEq.comm] at hab
  exact (hperm.pairwise_iff hsymm).1 (h.sublist hsub)

/-- Distinct names, or names of different columns of one table. -/
def OwnNames (tables : List Table) (names : List String) : Prop :=
  Unambiguous names ∨ ∃ t ∈ tables, names.Subperm (t.columns.map Column.name)

theorem OwnNames.subperm {tables : List Table} {names names' : List String}
    (h : OwnNames tables names) (hsub : names'.Subperm names) : OwnNames tables names' :=
  h.imp (·.subperm hsub) fun ⟨t,ht,hnames⟩ => ⟨t,ht,hsub.trans hnames⟩

/-- Distinct names or names from one table, and behind them the shown ones or none. -/
def Named (tables : List Table) (shown names : List String) : Prop :=
  ∃ keys, OwnNames tables keys ∧ (names = keys ∨ names = keys ++ shown)

theorem named_nil {tables : List Table} {names : List String} :
    Named tables [] names ↔ OwnNames tables names := by
  simp [Named]

theorem named_uniquify {tables : List Table} {shown : List String} (names : List String) :
    Named tables shown (uniquify names) :=
  ⟨_,.inl (unambiguous_uniquify names),.inl rfl⟩

namespace Plan

/-- Names of the output columns. -/
def names (p : Plan) : List String := p.fields.map Field.name

/-- The rows are those of an aggregate with these calls, perhaps not all of them and each once:
nothing else is computed and no column left out. -/
inductive HandsOn (calls : List AggregateCall) : Plan → Prop
  | groups {input : Plan} {groups : List Nat} : HandsOn calls (aggregate input groups calls)
  | having {p : Plan} {condition : Expr} : HandsOn calls p → HandsOn calls (filter p condition)
  | select {p : Plan} {es : List Expr} {ns : List String} :
    HandsOn calls p → Expr.isIdentity es p.width → HandsOn calls (project p es ns)
  | distinct {p : Plan} : HandsOn calls p → HandsOn calls (aggregate p (List.range p.width) [])

/-- Whichever projections are dropped, the names of the output columns end in the given ones or in
none, and the ones before are distinct or a table's own. -/
def Shows : Plan → List String → Prop
  | scan _,_ | join _ _ _ _,_ => True
  | arrowScan _ cols,_ => cols.Nodup
  | filter input _,shown => input.Shows shown
  | project input es ns,shown =>
    Named input.scans shown ns ∧ (Expr.isIdentity es input.width → input.Shows shown)
  | aggregate input groups calls,shown => groups.Nodup ∧
    (calls.map AggregateCall.name = shown ∧ input.Shows [] ∨
      calls = [] ∧ groups = List.range input.width ∧ input.Shows shown)

theorem map_name_zipWith {α : Type} (type : α → SqlType) {xs : List α} {ns : List String}
    (h : xs.length = ns.length) :
    (xs.zipWith (fun x n => (⟨n,type x⟩ : Field)) ns).map Field.name = ns := by
  rw [List.map_zipWith,← List.map_uncurry_zip_eq_zipWith]
  exact List.map_snd_zip h.ge

section
variable {t : Table} {cols groups : List Nat} {input left right : Plan} {condition : Expr}
  {es : List Expr} {ns : List String} {kind : JoinKind} {calls : List AggregateCall}

@[simp] theorem names_scan : (scan t).names = t.columns.map Column.name := by
  simp [names,fields,tableFields]

@[simp] theorem names_arrowScan : (arrowScan t cols).names =
    cols.filterMap ((t.columns.map Column.name)[·]?) := by
  simp [names,fields,tableFields,List.map_filterMap,Function.comp_def]

@[simp] theorem names_filter : (filter input condition).names = input.names := rfl

theorem names_project (h : es.length = ns.length) : (project input es ns).names = ns :=
  map_name_zipWith Expr.type h

@[simp] theorem names_join : (join left right condition kind).names =
    uniquify (left.names ++ right.names) := by
  rw [names,names,names,← List.map_append]
  exact map_name_zipWith Field.type (by simp [uniquify_length])

@[simp] theorem names_aggregate : (aggregate input groups calls).names =
    groups.filterMap (input.names[·]?) ++ calls.map AggregateCall.name := by
  simp [names,fields,List.map_filterMap,Function.comp_def]

end

theorem WellPlaced.length_names {p : Plan} (h : p.WellPlaced) : p.names.length = p.width := by
  rw [Plan.names,List.length_map,h.length_fields]

/-- What may be shown is what the output columns are called as long as nothing is dropped. -/
theorem named_names {p : Plan} {shown : List String} (hp : p.WellPlaced) (h : p.Shows shown) :
    Named p.scans shown p.names := by
  induction p generalizing shown with
  | scan t =>
    rw [names_scan]
    exact ⟨_,.inr ⟨t,List.mem_singleton_self t,.refl _⟩,.inl rfl⟩
  | arrowScan t cols =>
    have hlt : ∀ i ∈ cols, i < (t.columns.map Column.name).length := by
      simpa [Table.width] using wellPlaced_arrowScan.1 hp
    rw [names_arrowScan]
    exact ⟨_,.inr ⟨t,List.mem_singleton_self t,subperm_picked h hlt⟩,.inl rfl⟩
  | filter input condition ih =>
    rw [names_filter]
    exact ih (wellPlaced_filter.1 hp).2 h
  | project input es ns ih =>
    rw [names_project (wellPlaced_project.1 hp).2.1]
    exact h.1
  | join left right condition kind ihl ihr =>
    rw [names_join]
    exact named_uniquify _
  | aggregate input groups calls ih =>
    obtain ⟨⟨hlt,-⟩,hi⟩ := wellPlaced_aggregate.1 hp
    rw [← hi.length_names] at hlt
    rw [names_aggregate]
    obtain ⟨hgroups,⟨rfl,hinput⟩|⟨rfl,rfl,hinput⟩⟩ := h
    · exact ⟨_,(named_nil.1 (ih hi hinput)).subperm (subperm_picked hgroups hlt),.inr rfl⟩
    · have hall := filterMap_getElem?_range input.names []
      rw [List.append_nil,hi.length_names] at hall
      rw [hall,List.map_nil,List.append_nil]
      exact ih hi hinput

/-- A plan that is well placed becomes another one that shows no other names. -/
def KeepsShown (p q : Plan) : Prop :=
  KeepsShape p q ∧ (p.WellPlaced → ∀ shown, p.Shows shown → q.Shows shown)

theorem keepsShown_compatible : Compatible KeepsShown where
  refl p := ⟨keepsShape_compatible.refl p,fun _ _ h => h⟩
  trans p q r := by
    rintro ⟨hpq,hs⟩ ⟨hqr,hs'⟩
    exact ⟨keepsShape_compatible.trans p q r hpq hqr,
      fun h shown hp => hs' (hpq h).1 shown (hs h shown hp)⟩
  filter p q c := by
    rintro ⟨hpq,hs⟩
    exact ⟨keepsShape_compatible.filter p q c hpq,fun h => hs (wellPlaced_filter.1 h).2⟩
  project p q es ns := by
    rintro ⟨hpq,hs⟩
    refine ⟨keepsShape_compatible.project p q es ns hpq,fun h shown hp => ?_⟩
    have hi := (wellPlaced_project.1 h).2.2
    rw [Shows,(hpq hi).2.2,hpq.width_eq hi]
    exact ⟨hp.1,fun hid => hs hi shown (hp.2 hid)⟩
  join p q p' q' c k := by
    rintro ⟨hpq,-⟩ ⟨hpq',-⟩
    exact ⟨keepsShape_compatible.join p q p' q' c k hpq hpq',fun _ _ _ => trivial⟩
  aggregate p q gs cs := by
    rintro ⟨hpq,hs⟩
    refine ⟨keepsShape_compatible.aggregate p q gs cs hpq,fun h shown hp => ?_⟩
    have hi := (wellPlaced_aggregate.1 h).2
    rw [Shows,hpq.width_eq hi]
    exact ⟨hp.1,hp.2.imp (And.imp_right (hs hi _)) (And.imp_right (And.imp_right (hs hi _)))⟩

end Plan

open Plan

variable {p q : Plan}

/-! ## Rules -/

theorem AverageSplit.apply_keepsShown (h : rule.apply p = .ok (some q)) : KeepsShown p q := by
  refine ⟨apply_keepsShape h,fun hp shown hshows => ?_⟩
  have hnamed := named_names hp hshows
  obtain ⟨input,groups,calls,placed,values,rfl,hs,rfl⟩ := apply_eq_some h
  refine ⟨hnamed,fun hid => absurd hid ?_⟩
  exact not_isIdentity (by simpa using (splitCalls_spec hs).2) (exists_average h)

theorem FilterPushing.apply_keepsShown (h : rule.apply p = .ok (some q)) : KeepsShown p q := by
  refine ⟨apply_keepsShape h,fun _ _ _ => ?_⟩
  obtain ⟨left,right,on,condition,rfl,rfl⟩ := apply_eq_some h
  trivial

theorem ColumnPruning.apply_keepsShown (h : rule.apply p = .ok (some q)) : KeepsShown p q := by
  have hshape := apply_keepsShape h
  refine ⟨hshape,fun hp shown hshows => ?_⟩
  have hscans := (hshape hp).2.2
  obtain ⟨left,right,on,kind,es,ns,rfl,rfl⟩ := apply_eq_some h
  have hnamed : Named (join left right on kind).scans shown ns := hshows.1
  exact ⟨hscans ▸ hnamed,fun _ => trivial⟩

theorem IdentityProject.apply_keepsShown (h : rule.apply p = .ok (some q)) : KeepsShown p q := by
  refine ⟨apply_keepsShape h,fun _ shown hshows => ?_⟩
  obtain ⟨es,ns,rfl,hid⟩ := apply_eq_some h
  exact hshows.2 hid

namespace ArrowScans

/-- Whether or not a projection of a table is left above the columns read, these are a table's own. -/
theorem shows_unlessIdentity {input : Plan} {es : List Expr} {ns shown : List String}
    (hnamed : Named input.scans shown ns) (hinput : input.Shows shown) :
    (projectUnlessIdentity input es ns).Shows shown :=
  projectUnlessIdentity_induction (fun _ => hinput) fun _ => ⟨hnamed,fun _ => hinput⟩

theorem projectScan_keepsShown (h : projectScanRule.apply p = .ok (some q)) : KeepsShown p q := by
  refine ⟨projectScan_keepsShape h,fun _ shown hshows => ?_⟩
  obtain ⟨t,es,ns,rfl,rfl⟩ := projectScan_eq_some h
  exact shows_unlessIdentity hshows.1 (nodup_orFirst (Expr.nodup_addColumnsOf List.nodup_nil es))

theorem wholeScan_keepsShown (h : wholeScanRule.apply p = .ok (some q)) : KeepsShown p q := by
  refine ⟨wholeScan_keepsShape h,fun _ _ _ => ?_⟩
  obtain ⟨t,rfl,rfl⟩ := wholeScan_eq_some h
  exact List.nodup_range

theorem filterScan_keepsShown (h : filterScanRule.apply p = .ok (some q)) : KeepsShown p q := by
  refine ⟨filterScan_keepsShape h,fun _ shown hshows => ?_⟩
  obtain ⟨t,condition,es,ns,rfl,rfl⟩ := filterScan_eq_some h
  exact shows_unlessIdentity hshows.1
    (nodup_orFirst ((Expr.pairwise_mergeSort_addColumns es condition).imp Nat.ne_of_lt))

end ArrowScans

theorem apply_keepsShown {rule : RewriteRule} (hrule : rule ∈ defaultRules)
    (h : rule.apply p = .ok (some q)) : KeepsShown p q := by
  simp only [defaultRules,List.mem_cons,List.not_mem_nil,or_false] at hrule
  rcases hrule with rfl|rfl|rfl|rfl|rfl|rfl|rfl
  · exact AverageSplit.apply_keepsShown h
  · exact FilterPushing.apply_keepsShown h
  · exact ColumnPruning.apply_keepsShown h
  · exact IdentityProject.apply_keepsShown h
  · exact ArrowScans.projectScan_keepsShown h
  · exact ArrowScans.wholeScan_keepsShown h
  · exact ArrowScans.filterScan_keepsShown h

/-! ## Queries -/

namespace Binding
variable {c : Catalog} {bound : Plan × Scope} {n : Names} {input : Plan} {es : List Expr}

theorem filtered_shows {selection : Option Sql.Expr} (hi : ∀ shown, input.Shows shown)
    (h : filtered n input selection = .ok p) (shown : List String) : p.Shows shown := by
  obtain rfl|⟨_,_,-,-,-,rfl⟩ := filtered_eq_ok h
  · exact hi shown
  · exact hi shown

theorem projectDerived_shows (hi : ∀ shown, input.Shows shown) (es : List Expr) (shown : List String) :
    (input.projectDerived es).Shows shown :=
  ⟨named_uniquify _,fun _ => hi shown⟩

theorem aggregation_shows {groupBy : List Sql.Expr} {ts : List Target} {names : List String}
    {having : Option Sql.Expr} (hi : ∀ shown, input.Shows shown)
    (h : aggregation n input groupBy ts names having = .ok (p,es)) :
    ∃ calls, p.Shows (calls.map AggregateCall.name) ∧ p.HandsOn calls := by
  obtain ⟨inputs,keyCount,calls,hp⟩ := aggregation_eq_ok h
  have hgroups : (aggregate (input.projectDerived inputs) (List.range keyCount) calls).Shows
      (calls.map AggregateCall.name) :=
    ⟨List.nodup_range,.inl ⟨rfl,projectDerived_shows hi inputs []⟩⟩
  obtain rfl|⟨e,rfl⟩ := hp
  · exact ⟨calls,hgroups,.groups⟩
  · exact ⟨calls,hgroups,.having .groups⟩

/-- A plan that shows the names of calls only if it hands on their aggregate. -/
def ShowsCalls (p : Plan) : Prop :=
  ∃ calls, p.Shows (calls.map AggregateCall.name) ∧ (calls = [] ∨ p.HandsOn calls)

theorem project_showsCalls (names : List String) (h : ShowsCalls p) :
    ShowsCalls (.project p es (uniquify names)) := by
  obtain ⟨calls,hshows,hcalls⟩ := h
  by_cases hid : Expr.isIdentity es p.width
  · exact ⟨calls,⟨named_uniquify _,fun _ => hshows⟩,hcalls.imp_right (.select · hid)⟩
  · exact ⟨[],⟨named_uniquify _,fun h => absurd h hid⟩,.inl rfl⟩

theorem distinct_showsCalls {d : Option Sql.Distinct} (hp : ShowsCalls p) (h : distinct p d = .ok q) :
    ShowsCalls q := by
  obtain rfl|rfl := distinct_eq_ok h
  · exact hp
  · obtain ⟨calls,hshows,hcalls⟩ := hp
    exact ⟨calls,⟨List.nodup_range,.inr ⟨rfl,rfl,hshows⟩⟩,hcalls.imp_right .distinct⟩

theorem select_showsCalls {s : Sql.Select} (h : select c s = .ok p) : ShowsCalls p := by
  obtain ⟨tables,scope,input,ts,plan,es,htables,hinput,-,hplan,hp⟩ := select_eq_ok h
  have hrows : ∀ shown, tables.Shows shown :=
    fromClause_induction (P := fun p => ∀ shown, p.Shows shown) (fun _ _ _ => trivial)
      (fun _ _ _ _ _ _ _ => trivial) htables
  have hi := filtered_shows hrows hinput
  refine distinct_showsCalls (project_showsCalls _ ?_) hp
  obtain ⟨rfl,-⟩|⟨groupBy,hagg⟩ := hplan
  · exact ⟨[],hi _,.inl rfl⟩
  · obtain ⟨calls,hshows,hhands⟩ := aggregation_shows hi hagg
    exact ⟨calls,hshows,.inr hhands⟩

theorem distinct_names {d : Option Sql.Distinct} (hp : p.WellPlaced) (h : distinct p d = .ok q) :
    q.names = p.names := by
  obtain rfl|rfl := distinct_eq_ok h
  · rfl
  · have hall := filterMap_getElem?_range p.names []
    rw [List.append_nil,hp.length_names] at hall
    rw [names_aggregate,hall,List.map_nil,List.append_nil]

/-- A select list has distinct names. -/
theorem select_unambiguous {s : Sql.Select} (h : select c s = .ok p) : Unambiguous p.names := by
  have hbound := select_bound h
  obtain ⟨tables,scope,input,ts,plan,es,-,-,-,-,hp⟩ := select_eq_ok h
  have hplaced : (project plan es (targetNames ts)).WellPlaced := by
    obtain rfl|rfl := distinct_eq_ok hp
    · exact hbound.wellPlaced
    · exact (wellPlaced_aggregate.1 hbound.wellPlaced).2
  rw [distinct_names hplaced hp,names_project (wellPlaced_project.1 hplaced).2.1]
  exact unambiguous_uniquify _

end Binding

/-- The output columns of a bound query have distinct names. Those of the optimised plan begin with
distinct names or with names of different columns of one scanned table; names of calls stand behind
them only where the select list does no more than hand on an aggregate. So they are distinct, too,
where it does more and the columns of each table are. -/
theorem Catalog.names_optimise_bind {c : Catalog} {query : Sql.Query} {limit : Nat}
    (hp : c.bind query = .ok p) (hq : (optimise limit defaultRules p).1 = .ok q) :
    Unambiguous p.names ∧
      (∃ keys calls, q.names = keys ++ calls.map AggregateCall.name ∧ OwnNames p.scans keys ∧
        (calls = [] ∨ p.HandsOn calls)) ∧
      ((∀ t ∈ p.scans, Unambiguous (t.columns.map Column.name)) →
        (∀ calls, p.HandsOn calls → calls = []) → Unambiguous q.names) := by
  obtain ⟨s,-,hs⟩ := Binding.select_of_query hp
  have hplaced := (Binding.select_bound hs).wellPlaced
  obtain ⟨hshape,hkept⟩ : KeepsShown p q := optimise_induction keepsShown_compatible
    (fun _ hrule _ _ => apply_keepsShown hrule) hq
  obtain ⟨hplaced',-,hscans⟩ := hshape hplaced
  obtain ⟨shown,hshows,hcalls⟩ := Binding.select_showsCalls hs
  obtain ⟨keys,hkeys,hnames⟩ := named_names hplaced' (hkept hplaced _ hshows)
  rw [hscans] at hkeys
  have hsplit : ∃ calls, q.names = keys ++ calls.map AggregateCall.name ∧
      (calls = [] ∨ p.HandsOn calls) := by
    obtain hnames|hnames := hnames
    · exact ⟨[],by simpa using hnames,.inl rfl⟩
    · exact ⟨shown,hnames,hcalls⟩
  obtain ⟨calls,hnames,hcalls⟩ := hsplit
  refine ⟨Binding.select_unambiguous hs,⟨keys,calls,hnames,hkeys,hcalls⟩,fun htables hnone => ?_⟩
  obtain rfl := hcalls.elim id (hnone calls)
  rw [hnames,List.map_nil,List.append_nil]
  exact hkeys.elim id fun ⟨t,ht,hsub⟩ => (htables t ht).subperm hsub

/-- The query `SELECT * FROM customers`. -/
def allCustomers : Sql.Query :=
  .mk {} (.select { customerIds with items := [.wildcard []] })

def allCustomersPlan : Plan :=
  .project (.scan customers) [.column 0 .integer,.column 1 .varchar] ["id","city"]

/-- An aggregate whose rows are filtered, and a table whose rows are handed on. -/
theorem names_optimise_busyCities : (shop.bind busyCities = .ok busyCitiesPlan ∧
    (optimise 10 defaultRules busyCitiesPlan).1 = .ok busyCitiesOptimised ∧
    Unambiguous busyCitiesPlan.names ∧
      (∃ keys calls, busyCitiesOptimised.names = keys ++ calls.map AggregateCall.name ∧
        OwnNames busyCitiesPlan.scans keys ∧ (calls = [] ∨ busyCitiesPlan.HandsOn calls)) ∧
      ((∀ t ∈ busyCitiesPlan.scans, Unambiguous (t.columns.map Column.name)) →
        (∀ calls, busyCitiesPlan.HandsOn calls → calls = []) →
        Unambiguous busyCitiesOptimised.names)) ∧
    shop.bind allCustomers = .ok allCustomersPlan ∧
      (optimise 10 defaultRules allCustomersPlan).1 = .ok (.arrowScan customers [0,1]) ∧
      (∀ t ∈ allCustomersPlan.scans, Unambiguous (t.columns.map Column.name)) ∧
      (∀ calls, allCustomersPlan.HandsOn calls → calls = []) ∧
      Unambiguous (arrowScan customers [0,1]).names := by
  have hp : shop.bind busyCities = .ok busyCitiesPlan := by decide +kernel
  have hall : shop.bind allCustomers = .ok allCustomersPlan := by decide +kernel
  have hoptimise : (optimise 10 defaultRules allCustomersPlan).1 = .ok (.arrowScan customers [0,1]) := by
    decide +kernel
  have htables : ∀ t ∈ allCustomersPlan.scans, Unambiguous (t.columns.map Column.name) := by
    decide +kernel
  have hnone : ∀ calls, allCustomersPlan.HandsOn calls → calls = [] := by
    intro calls h
    cases h with
    | select hscan => cases hscan
  obtain ⟨-,-,hnames⟩ := Catalog.names_optimise_bind hall hoptimise
  exact ⟨⟨hp,optimise_busyCities,Catalog.names_optimise_bind hp optimise_busyCities⟩,hall,hoptimise,
    htables,hnone,hnames htables hnone⟩

/-- The query `SELECT city AS town, COUNT(*) AS city FROM customers GROUP BY city`. -/
def townsCounted : Sql.Query :=
  .mk {} (.select { customerIds with
    items := [.expr (.identifier ⟨"city",none⟩) (some ⟨"town",none⟩),
      .expr (.function [⟨"COUNT",none⟩] [.wildcard] none {}) (some ⟨"city",none⟩)]
    groupBy := .exprs [.identifier ⟨"city",none⟩] })

def townsCountedPlan : Plan :=
  .project (.aggregate (.project (.scan customers) [.column 1 .varchar] ["city"]) [0]
    [⟨.count,false,[],.bigInt,"city"⟩]) [.column 0 .varchar,.column 1 .bigInt] ["town","city"]

def townsCountedOptimised : Plan :=
  .aggregate (.arrowScan customers [1]) [0] [⟨.count,false,[],.bigInt,"city"⟩]

/-- A table whose columns differ in case alone. -/
def grades : Table := ⟨"grades","grades.arrow",[⟨"a",.integer⟩,⟨"A",.integer⟩]⟩

def school : Catalog where
  root := "school"
  caseSensitive := true
  tables := [grades]

/-- The query `SELECT * FROM grades`. -/
def allGrades : Sql.Query :=
  .mk {} (.select { customerIds with
    items := [.wildcard []]
    tables := [⟨.table [⟨"grades",none⟩] none none [] [],[]⟩] })

def allGradesPlan : Plan :=
  .project (.scan grades) [.column 0 .integer,.column 1 .integer] ["a","A0"]

/-- Both the key and the count are called city, and both columns of the table have the same name up
to case. -/
theorem names_clash : shop.bind townsCounted = .ok townsCountedPlan ∧
    (optimise 10 defaultRules townsCountedPlan).1 = .ok townsCountedOptimised ∧
    ¬ Unambiguous townsCountedOptimised.names ∧
    school.bind allGrades = .ok allGradesPlan ∧
    (optimise 10 defaultRules allGradesPlan).1 = .ok (.arrowScan grades [0,1]) ∧
    ¬ Unambiguous (arrowScan grades [0,1]).names := by
  have hnames : (arrowScan grades [0,1]).names = ["a","A"] := by rw [names_arrowScan]; rfl
  have hsame : sameIgnoringCase "a" "A" = true := by cbv
  have hgrades : ¬ Unambiguous (arrowScan grades [0,1]).names := by
    rw [hnames]
    intro h
    have hdiffer := List.rel_of_pairwise_cons h (List.mem_singleton_self "A")
    rw [hsame] at hdiffer
    contradiction
  exact ⟨by decide +kernel,by decide +kernel,by decide +kernel,by cbv,by decide +kernel,hgrades⟩

end QueryPlan
