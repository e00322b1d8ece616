import Mathlib.Data.List.Nodup
import QueryPlan.Proofs.Binding.Inversion
import QueryPlan.Proofs.Catalog.Order

/-! # Tables looked up by their own names

A name may fit several tables of a catalog that ignores case, and it stands for the first of them.
The tables of a directory are in the order of their files, which is that of the names wherever names
differ in nothing but case. So a table is found under its own name unless a lesser name fits it. -/
namespace QueryPlan

/-! ## The first table that a name fits -/

/-- In a list of increasing keys the first element that is looked for is the one of the least key. -/
theorem find?_eq_some_iff_of_pairwise {α : Type} {key : α → String} {p : α → Bool} {xs : List α}
    (h : xs.Pairwise fun a b => key a < key b) {a : α} :
    xs.find? p = some a ↔ a ∈ xs ∧ p a ∧ ∀ b ∈ xs, p b → key a ≤ key b := by
  induction xs with
  | nil => simp
  | cons x xs ih =>
    obtain ⟨hx,hxs⟩ := List.pairwise_cons.1 h
    by_cases hp : p x
    · rw [List.find?_cons_of_pos hp,Option.some.injEq]
      constructor
      · rintro rfl
        exact ⟨List.mem_cons_self,hp,
          List.forall_mem_cons.2 ⟨fun _ => le_rfl,fun b hb _ => (hx b hb).le⟩⟩
      · rintro ⟨ha,-,hleast⟩
        rcases List.mem_cons.1 ha with rfl|ha
        · rfl
        · exact absurd (hx a ha) (not_lt.2 (hleast x List.mem_cons_self hp))
    · rw [List.find?_cons_of_neg hp,ih hxs,List.mem_cons,List.forall_mem_cons]
      constructor
      · rintro ⟨ha,hpa,hleast⟩
        exact ⟨.inr ha,hpa,fun hpx => absurd hpx hp,hleast⟩
      · rintro ⟨rfl|ha,hpa,-,hleast⟩
        · exact absurd hpa hp
        · exact ⟨ha,hpa,hleast⟩

theorem length_of_sameName {cs : Bool} {a b : String} (h : sameName cs a b) : a.length = b.length := by
  cases cs with
  | true => rw [show a = b by simpa [sameName] using h]
  | false =>
    have hlower : a.toLower = b.toLower := by simpa [sameName,sameIgnoringCase] using h
    change a.map Char.toLower = b.map Char.toLower at hlower
    simpa using congrArg String.length hlower

namespace Catalog

/-- Names that differ in nothing but case are in the order of their files, since neither of them
starts the other. -/
theorem name_le_of_fileNameOf_le {cs : Bool} {a b : Table} (hsame : sameName cs a.name b.name)
    (h : fileNameOf a ≤ fileNameOf b) : a.name ≤ b.name := by
  refine not_lt.1 fun hba => ?_
  rcases h.lt_or_eq with hlt|heq
  · obtain ⟨r,hr,hextension⟩ := String.exists_of_append_lt_append hlt hba
    have hlength := length_of_sameName hsame
    rw [hr,String.length_append] at hlength
    have hempty : r = "" := String.length_eq_zero_iff.1 (by omega)
    rw [hempty,String.empty_append] at hextension
    exact lt_irrefl _ hextension
  · exact hba.ne ((String.append_left_inj _).1 heq).symm

/-- A table of the catalog that a name fits, and whose name is the least of those that it fits. -/
structure IsFirst (c : Catalog) (name : String) (t : Table) : Prop where
  mem : t ∈ c.tables
  fits : sameName c.caseSensitive t.name name
  least : ∀ u ∈ c.tables, sameName c.caseSensitive u.name name → t.name ≤ u.name

section
variable {c : Catalog} {name : String} {t : Table}

theorem lookup_eq_some_iff (h : c.tables.Pairwise fun a b => fileNameOf a < fileNameOf b) :
    c.lookup name = some t ↔ c.IsFirst name t := by
  rw [lookup,find?_eq_some_iff_of_pairwise h]
  constructor
  · rintro ⟨ht,hfits,hleast⟩
    exact ⟨ht,hfits,fun u hu hfits' =>
      name_le_of_fileNameOf_le (sameName_of_common hfits hfits') (hleast u hu hfits')⟩
  · rintro ⟨ht,hfits,hleast⟩
    refine ⟨ht,hfits,fun u hu hfits' => not_lt.1 fun hlt => ?_⟩
    have hle : u.name ≤ t.name := name_le_of_fileNameOf_le (sameName_of_common hfits' hfits) hlt.le
    exact hlt.ne (congrArg (· ++ ".arrow") (le_antisymm hle (hleast u hu hfits')))

theorem exists_lookup_eq_some (ht : t ∈ c.tables) : ∃ s, c.lookup t.name = some s :=
  Option.isSome_iff_exists.1 (List.find?_isSome.2 ⟨t,ht,sameName_refl _ _⟩)

end

/-- A table of a directory is what the file of its name holds. -/
theorem exists_file_of_mem {read : Arrow.Reader} {path : String} {entries : List (String × FileNode)}
    {tables : List Table} {t : Table}
    (h : (tableFiles path entries).Forall₂ (fun e t => Table.ofFile read path e.1 e.2 = .ok t) tables)
    (ht : t ∈ tables) : t.file = Path.join path (fileNameOf t) ∧
      ∃ node, (fileNameOf t,node) ∈ entries ∧ Table.ofFile read path (fileNameOf t) node = .ok t := by
  obtain ⟨⟨name,node⟩,hmem,hread⟩ := exists_of_forall₂ h.flip ht
  obtain ⟨hentry,hfile⟩ := mem_tableFiles.1 hmem
  obtain rfl := fileNameOf_of_ofFile hfile hread
  obtain ⟨contents,fields,columns,-,-,-,ht⟩ := Table.ofFile_eq_ok_iff.1 hread
  exact ⟨congrArg Table.file ht,node,hentry,hread⟩

end Catalog

namespace Binding

variable {c : Catalog} {p : Plan}

/-- What a query reads is what its FROM clause names. -/
theorem scans_of_select {s : Sql.Select} (h : select c s = .ok p) :
    ∃ tables scope, fromClause c s.tables = .ok (tables,scope) ∧ p.scans = tables.scans := by
  obtain ⟨tables,scope,input,ts,plan,es,htables,hinput,-,hplan,hdistinct⟩ := select_eq_ok h
  refine ⟨tables,scope,htables,?_⟩
  have hinput : input.scans = tables.scans := by
    rcases filtered_eq_ok hinput with rfl|⟨e,bound,-,-,-,rfl⟩
    · rfl
    · rfl
  have hplan : plan.scans = input.scans := by
    rcases hplan with ⟨rfl,-⟩|⟨groupBy,haggregation⟩
    · rfl
    · obtain ⟨inputs,keyCount,calls,rfl|⟨e,rfl⟩⟩ := aggregation_eq_ok haggregation
      · rfl
      · rfl
  rw [← hinput,← hplan]
  rcases distinct_eq_ok hdistinct with rfl|rfl
  · rfl
  · rfl

/-- The item of a FROM clause that is a name alone, in whatever quotes. -/
def tableItem (name : String) (quote : Option Char) : Sql.TableWithJoins :=
  ⟨.table [⟨name,quote⟩] none none [] [],[]⟩

theorem fromClause_tableItem {name : String} {t : Table} (h : c.lookup name = some t)
    (quote : Option Char) : fromClause c [tableItem name quote] = .ok (.scan t,.ofTable t.name t) := by
  simp [fromClause,tableWithJoins,tableItem,table,h,bind,Except.bind,pure,Except.pure]

/-- A query over one name reads the table that is looked up by it, and nothing else. -/
theorem scans_of_tableItem {name : String} {t : Table} (h : c.lookup name = some t) {quote : Option Char}
    {q : Sql.Query} {s : Sql.Select} (hs : q.select? = some s) (htables : s.tables = [tableItem name quote])
    (hp : query c q = .ok p) : p.scans = [t] := by
  obtain ⟨s',hs',hselect⟩ := select_of_query hp
  obtain rfl := Option.some.inj (hs.symm.trans hs')
  obtain ⟨tables,scope,hfrom,hscans⟩ := scans_of_select hselect
  rw [htables,fromClause_tableItem h] at hfrom
  cases hfrom
  exact hscans

/-- The SELECT of all columns of what goes by a name. -/
def wholeTable (name : String) (quote : Option Char) : Sql.Select where
  distinct := none
  top := none
  items := [.wildcard []]
  into := none
  tables := [tableItem name quote]
  lateralViews := []
  selection := none
  groupBy := .exprs []
  clusterBy := []
  distributeBy := []
  sortBy := []
  having := none
  windows := []
  qualify := none

theorem select_wholeTable {name : String} {t : Table} (h : c.lookup name = some t)
    (quote : Option Char) :
    ∃ es names, select c (wholeTable name quote) = .ok (.project (.scan t) es names) := by
  let n : Names := ⟨.ofTable t.name t,c.caseSensitive⟩
  let ts : List Target := n.scope.places.map fun p => .column p.2 p.1
  have hts : targets n [.wildcard []] = .ok ts := by
    simp [targets,targetsOf,ts,bind,Except.bind,pure,Except.pure]
  obtain ⟨es,hes⟩ : ∃ es, ts.mapM (Target.bind n) = .ok es := by
    refine mapM_total fun target htarget => ?_
    obtain ⟨place,-,rfl⟩ := List.mem_map.1 htarget
    exact ⟨_,rfl⟩
  have hgrouped : ts.any Target.hasAggregate = false := by simp [ts,Target.hasAggregate]
  refine ⟨es,targetNames ts,?_⟩
  unfold select
  simp only [wholeTable,Option.isSome_none,Bool.false_eq_true,if_false,filtered,groupExprs,
    fromClause_tableItem h]
  refine bind_eq_ok_iff.2 ⟨_,rfl,bind_eq_ok_iff.2 ⟨_,rfl,bind_eq_ok_iff.2 ⟨_,rfl,
    bind_eq_ok_iff.2 ⟨ts,hts,?_⟩⟩⟩⟩
  rw [hgrouped]
  exact bind_eq_ok_iff.2 ⟨es,hes,rfl⟩

theorem bind_wholeTable {name : String} {t : Table} (h : c.lookup name = some t)
    (quote : Option Char) : ∃ es names, c.bind (.mk {} (.select (wholeTable name quote)))
      = .ok (.project (.scan t) es names) := by
  obtain ⟨es,names,hselect⟩ := select_wholeTable h quote
  refine ⟨es,names,?_⟩
  rw [Catalog.bind,query,body,hselect]
  rfl

end Binding

namespace Catalog

/-- Whatever table of a directory is looked up by its name, the one found is that of the least name
which fits, read from the file of its own name. It is the table itself where the catalog is
case-sensitive, and elsewhere too unless a lesser name differs in case only. All columns can be asked
for by the name, and any query over the name alone reads the table found and no other. -/
theorem ofDirectory_lookup {fs : FileSystem} {path : String} {entries : List (String × FileNode)}
    {caseSensitive : Bool} {c : Catalog} {t : Table} (hentries : fs.entries? path = some entries)
    (hnames : (entries.map Prod.fst).Nodup) (hc : ofDirectory fs path caseSensitive = .ok c)
    (ht : t ∈ c.tables) :
    ∃ s, c.lookup t.name = some s ∧ c.IsFirst t.name s ∧
      (s = t ↔ ∀ u ∈ c.tables, sameName caseSensitive u.name t.name → t.name ≤ u.name) ∧
      (caseSensitive = true → s = t) ∧
      (s.file = Path.join path (fileNameOf s) ∧
        ∃ node, (fileNameOf s,node) ∈ entries ∧
          Table.ofFile fs.reader path (fileNameOf s) node = .ok s) ∧
      ∀ quote, (∃ es names, c.bind (.mk {} (.select (Binding.wholeTable t.name quote)))
          = .ok (.project (.scan s) es names)) ∧
        ∀ q select p, q.select? = some select → select.tables = [Binding.tableItem t.name quote] →
          c.bind q = .ok p → p.scans = [s] := by
  obtain ⟨entries',tables,hentries',-,htables,hcatalog⟩ := ofDirectory_eq_ok_iff.1 hc
  obtain rfl := Option.some.inj (hentries.symm.trans hentries')
  obtain rfl : c.caseSensitive = caseSensitive := congrArg Catalog.caseSensitive hcatalog
  obtain rfl : c.tables = tables := congrArg Catalog.tables hcatalog
  have hfiles := pairwise_fileNameOf hnames htables
  obtain ⟨s,hs⟩ := exists_lookup_eq_some ht
  have hfirst : c.IsFirst t.name s := (lookup_eq_some_iff hfiles).1 hs
  have hself : s = t ↔ ∀ u ∈ c.tables, sameName c.caseSensitive u.name t.name → t.name ≤ u.name := by
    constructor
    · rintro rfl
      exact hfirst.least
    · intro hleast
      have ht : c.lookup t.name = some t :=
        (lookup_eq_some_iff hfiles).2 ⟨ht,sameName_refl _ _,hleast⟩
      exact Option.some.inj (hs.symm.trans ht)
  refine ⟨s,hs,hfirst,hself,fun hcase => hself.2 fun u _ hu => ?_,exists_file_of_mem htables hfirst.mem,
    fun quote => ⟨Binding.bind_wholeTable hs quote,fun q select p hq hselect hp =>
      Binding.scans_of_tableItem hs hq hselect hp⟩⟩
  have hname : u.name = t.name := by simpa [sameName,hcase] using hu
  exact hname.ge

def casedFiles : List (String × FileNode) :=
  [("T.arrow",columnlessFile),("t.arrow",columnlessFile)]

/-- A database of two tables whose names differ in case only. -/
def casedDatabase : FileSystem where
  root := .directory [("db",.directory casedFiles)]
  current := []
  reader := Arrow.reader fun _ => ""

/-- What the two files hold, in the order of their names. -/
def casedCatalog (caseSensitive : Bool) : Catalog :=
  ⟨"db",caseSensitive,[⟨"T","db/T.arrow",[]⟩,⟨"t","db/t.arrow",[]⟩]⟩

theorem ofDirectory_casedDatabase (caseSensitive : Bool) :
    ofDirectory casedDatabase "db" caseSensitive = .ok (casedCatalog caseSensitive) := by
  have hall : ∀ e ∈ casedFiles, isTableFile "db" e := by decide +kernel
  have hfiles : tableFiles "db" casedFiles = casedFiles :=
    tableFiles_eq_self hall (by decide +kernel)
  have hsome : tableFiles "db" casedFiles ≠ [] := by
    rw [hfiles]
    exact List.cons_ne_nil _ _
  refine ofDirectory_eq_ok_iff.2 ⟨casedFiles,_,rfl,hsome,?_,rfl⟩
  rw [hfiles]
  exact .cons (ofFile_columnlessFile _ "db" "T.arrow")
    (.cons (ofFile_columnlessFile _ "db" "t.arrow") .nil)

theorem ofDirectory_lookup_cased : casedDatabase.entries? "db" = some casedFiles ∧
    (casedFiles.map Prod.fst).Nodup ∧ ofDirectory casedDatabase "db" true = .ok (casedCatalog true) ∧
    (⟨"t","db/t.arrow",[]⟩ : Table) ∈ (casedCatalog true).tables ∧
    ∃ s, (casedCatalog true).lookup "t" = some s ∧ s = ⟨"t","db/t.arrow",[]⟩ := by
  have hentries : casedDatabase.entries? "db" = some casedFiles := rfl
  have hnames : (casedFiles.map Prod.fst).Nodup := by decide +kernel
  have hmem : (⟨"t","db/t.arrow",[]⟩ : Table) ∈ (casedCatalog true).tables := by simp [casedCatalog]
  obtain ⟨s,hs,-,-,hself,-⟩ :=
    ofDirectory_lookup hentries hnames (ofDirectory_casedDatabase true) hmem
  exact ⟨hentries,hnames,ofDirectory_casedDatabase true,hmem,s,hs,hself rfl⟩

/-- Ignoring case, a table is hidden behind another one whose name differs in case only. -/
theorem lookup_casedDatabase : ∃ c, ofDirectory casedDatabase "db" false = .ok c ∧
    ∃ t ∈ c.tables, t.name = "t" ∧ c.lookup t.name = some ⟨"T","db/T.arrow",[]⟩ ∧
      c.lookup t.name ≠ some t := by
  refine ⟨_,ofDirectory_casedDatabase false,⟨"t","db/t.arrow",[]⟩,by simp [casedCatalog],rfl,?_⟩
  have hupper : "T".toLower = "t" := by decide +kernel
  have hlower : "t".toLower = "t" := by decide +kernel
  have hsame : sameName false "T" "t" = true := by simp [sameName,sameIgnoringCase,hupper,hlower]
  have hlookup : (casedCatalog false).lookup "t" = some ⟨"T","db/T.arrow",[]⟩ :=
    List.find?_cons_of_pos hsame
  exact ⟨hlookup,by simp [hlookup]⟩

end Catalog

end QueryPlan
