import Mathlib.Data.List.Nodup
import Mathlib.Data.String.Basic
import QueryPlan.Arrow.Footer
import QueryPlan.Proofs.Catalog.Types
import QueryPlan.Proofs.Sorting

/-! # The order of the tables of a directory

A catalog that is read from a directory holds its tables in the order of their files' names, with the
extension, and one that is made of tables holds them in the order of the tables' names. The two
orders differ just where one table is named like another one followed by a text that sorts, with the
extension behind it, before the extension alone. -/
namespace QueryPlan

/-! ## Texts in front of an extension -/

/-- Texts in order stay so with more behind them, unless the first one starts the second one. -/
private theorem lt_append_of_lt {a b : List Char} (h : a < b) (x y : List Char) :
    (∃ r, b = a ++ r) ∨ a ++ x < b ++ y := by
  induction a generalizing b with
  | nil => exact .inl ⟨b,rfl⟩
  | cons c a ih =>
    cases b with
    | nil => exact absurd h (List.not_lt_nil _)
    | cons d b =>
      rw [List.cons_append,List.cons_append,List.cons_lt_cons_iff]
      rcases List.cons_lt_cons_iff.1 h with hcd|⟨rfl,hab⟩
      · exact .inr (.inl hcd)
      · rcases ih hab with ⟨r,rfl⟩|hlt
        · exact .inl ⟨r,rfl⟩
        · exact .inr (.inr ⟨rfl,hlt⟩)

theorem String.append_lt_append_left {a x y : String} : a ++ x < a ++ y ↔ x < y := by
  have hmono : StrictMono (a ++ ·) := fun x y h => by
    rw [String.lt_iff,String.toList_append,String.toList_append]
    exact List.append_left_lt h
  exact hmono.lt_iff_lt

theorem String.le_append_right {a r : String} : a ≤ a ++ r := by
  refine not_lt.1 fun h => ?_
  nth_rewrite 2 [← String.append_empty (s := a)] at h
  exact absurd (String.lt_iff.1 (String.append_lt_append_left.1 h)) (List.not_lt_nil _)

/-- Two names are in one order with an extension and in the other without only if the one starts the
other, and what it leaves sorts before the extension. -/
theorem String.exists_of_append_lt_append {a b extension : String}
    (h : a ++ extension < b ++ extension) (hba : b < a) :
    ∃ r, a = b ++ r ∧ r ++ extension < extension := by
  rcases lt_append_of_lt (String.lt_iff.1 hba) extension.toList extension.toList with ⟨r,hr⟩|hlt
  · have ha : a = b ++ String.ofList r := String.toList_injective (by simpa using hr)
    refine ⟨_,ha,?_⟩
    rw [ha,String.append_assoc] at h
    exact String.append_lt_append_left.1 h
  · rw [← String.toList_append,← String.toList_append] at hlt
    exact absurd (String.lt_iff.2 hlt) h.asymm

/-- A name is its stem and its extension, with a dot between them. -/
theorem Path.eq_append_of_splitName {name before extension : String}
    (h : splitName name = (before,some extension)) : name = before ++ "." ++ extension := by
  unfold splitName at h
  extract_lets reversed tail at h
  have hreversed : tail ++ reversed.dropWhile (· ≠ '.') = reversed := List.takeWhile_append_dropWhile
  have hrest : reversed.dropWhile (· ≠ '.') = reversed.drop tail.length := by
    simpa using congrArg (List.drop tail.length) hreversed
  split at h
  · cases h
  · rename_i dot rest hdrop
    rw [hdrop] at hrest
    split at h
    · cases h
    · cases h
      have hdot : dot = '.' := by
        have hhead := List.head?_dropWhile_not (· ≠ '.') reversed
        rw [hrest] at hhead
        simpa using hhead
      have hname : name.toList = (tail ++ dot :: rest).reverse := by
        rw [← hrest,hreversed,List.reverse_reverse]
      exact String.toList_injective (by simp [hname,hdot])

theorem Path.eq_stem_append {name extension : String} (h : extension? name = some extension) :
    name = stem name ++ "." ++ extension :=
  eq_append_of_splitName (Prod.ext rfl h)

private theorem exists_forall₂ {α β : Type} {R : α → β → Prop} {xs : List α}
    (h : ∀ x ∈ xs, ∃ y, R x y) : ∃ ys, xs.Forall₂ R ys := by
  induction xs with
  | nil => exact ⟨[],.nil⟩
  | cons x xs ih =>
    obtain ⟨⟨y,hy⟩,hxs⟩ := List.forall_mem_cons.1 h
    obtain ⟨ys,hys⟩ := ih hxs
    exact ⟨y :: ys,.cons hy hys⟩

namespace Catalog

/-- The name of the file that holds a table. -/
def fileNameOf (t : Table) : String := t.name ++ ".arrow"

theorem fileNameOf_of_ofFile {read : Arrow.Reader} {directory : String} {entry : String × FileNode}
    {t : Table} (hfile : isTableFile directory entry)
    (h : Table.ofFile read directory entry.1 entry.2 = .ok t) :
    fileNameOf t = entry.1 := by
  have hextension : Path.extension? entry.1 = some "arrow" := by
    simpa using (Bool.and_eq_true_iff.1 hfile).2
  obtain ⟨contents,fields,columns,-,-,-,rfl⟩ := Table.ofFile_eq_ok_iff.1 h
  rw [fileNameOf]
  conv_rhs => rw [Path.eq_stem_append hextension]
  rw [String.append_assoc]
  rfl

theorem tableFiles_perm (path : String) (entries : List (String × FileNode)) :
    (tableFiles path entries).Perm (entries.filter (isTableFile path)) := List.mergeSort_perm _ _

theorem mem_tableFiles {path : String} {entries : List (String × FileNode)}
    {entry : String × FileNode} :
    entry ∈ tableFiles path entries ↔ entry ∈ entries ∧ isTableFile path entry := by
  rw [(tableFiles_perm path entries).mem_iff,List.mem_filter]

/-- The files of a directory differ in their names, so they stand in strict order. -/
theorem pairwise_tableFiles {entries : List (String × FileNode)} (path : String)
    (hnames : (entries.map Prod.fst).Nodup) :
    (tableFiles path entries).Pairwise fun a b => a.1 < b.1 := by
  have hnodup : ((tableFiles path entries).map Prod.fst).Nodup :=
    ((tableFiles_perm path entries).map _).nodup_iff.2
      (hnames.sublist (List.filter_sublist.map Prod.fst))
  have hle : (tableFiles path entries).Pairwise fun a b => a.1 ≤ b.1 := pairwise_mergeSort_le Prod.fst _
  exact hle.imp₂ (fun a b hab hne => lt_of_le_of_ne hab hne) (List.pairwise_map.1 hnodup)

theorem tableFiles_eq_self {path : String} {entries : List (String × FileNode)}
    (hfiles : ∀ e ∈ entries, isTableFile path e) (h : entries.Pairwise fun a b => a.1 ≤ b.1) :
    tableFiles path entries = entries := by
  rw [tableFiles,List.filter_eq_self.2 hfiles]
  exact List.mergeSort_of_pairwise (by simpa using h)

/-- The tables of a directory stand in the order of the names of their files. -/
theorem pairwise_fileNameOf {read : Arrow.Reader} {path : String} {entries : List (String × FileNode)}
    {tables : List Table} (hnames : (entries.map Prod.fst).Nodup)
    (htables : (tableFiles path entries).Forall₂
      (fun e t => Table.ofFile read path e.1 e.2 = .ok t) tables) :
    tables.Pairwise fun a b => fileNameOf a < fileNameOf b := by
  have hkeys : tables.map fileNameOf = (tableFiles path entries).map Prod.fst := by
    refine List.ext_getElem (by simp [htables.length_eq]) fun i hi hi' => ?_
    rw [List.length_map] at hi hi'
    rw [List.getElem_map,List.getElem_map]
    exact fileNameOf_of_ofFile (mem_tableFiles.1 (List.getElem_mem hi')).2 (htables.get hi' hi)
  rw [← List.pairwise_map (f := fileNameOf),hkeys]
  exact List.pairwise_map.2 (pairwise_tableFiles path hnames)

/-- No table is named like another one followed by a text that sorts, with the extension behind it,
before the extension alone. -/
def ExtensionsAgree (tables : List Table) : Prop :=
  ∀ a ∈ tables, ∀ b ∈ tables, ∀ r, b.name = a.name ++ r → ¬ r ++ ".arrow" < ".arrow"

/-- The order of the file names is that of the tables' names just where the extensions agree. -/
theorem pairwise_name_iff {tables : List Table}
    (h : tables.Pairwise fun a b => fileNameOf a < fileNameOf b) :
    (tables.Pairwise fun a b => a.name ≤ b.name) ↔ ExtensionsAgree tables := by
  constructor
  · intro hnames a ha b hb r hr hlt
    have hfiles : fileNameOf b < fileNameOf a := by
      rw [fileNameOf,fileNameOf,hr,String.append_assoc]
      exact String.append_lt_append_left.2 hlt
    have hba : b.name ≤ a.name := by
      obtain ⟨i,hi,rfl⟩ := List.getElem_of_mem hb
      obtain ⟨j,hj,rfl⟩ := List.getElem_of_mem ha
      rcases lt_trichotomy i j with hij|rfl|hij
      · exact List.pairwise_iff_getElem.1 hnames i j hi hj hij
      · exact le_refl _
      · exact absurd hfiles (List.pairwise_iff_getElem.1 h j i hj hi hij).asymm
    have hab : a.name ≤ b.name := hr ▸ String.le_append_right
    exact hfiles.ne (congrArg (· ++ ".arrow") (le_antisymm hba hab))
  · intro hagree
    refine h.imp_of_mem fun {a b} ha hb hab => ?_
    by_contra hba
    obtain ⟨r,hr,hlt⟩ := String.exists_of_append_lt_append hab (not_le.1 hba)
    exact hagree b hb a ha r hr hlt

/-- Where the table files of a directory can be read, its catalog has one table for each of them, in
the order of the files' names. That is the order which the tables themselves are put in, however they
were given, just where the extensions agree. -/
theorem ofDirectory_tables {fs : FileSystem} {path : String} {entries : List (String × FileNode)}
    (caseSensitive : Bool) (hentries : fs.entries? path = some entries)
    (hnames : (entries.map Prod.fst).Nodup) (hsome : ∃ e ∈ entries, isTableFile path e)
    (hread : ∀ e ∈ entries, isTableFile path e → ∃ t, Table.ofFile fs.reader path e.1 e.2 = .ok t) :
    ∃ c, ofDirectory fs path caseSensitive = .ok c ∧
      (∀ t, t ∈ c.tables ↔
        ∃ e ∈ entries, isTableFile path e ∧ Table.ofFile fs.reader path e.1 e.2 = .ok t) ∧
      (c.tables.Pairwise fun a b => fileNameOf a < fileNameOf b) ∧
      ∀ given : List Table, given.Perm c.tables →
        (ofTables path given caseSensitive = c ↔ ExtensionsAgree c.tables) := by
  have htables : ∃ tables, (tableFiles path entries).Forall₂
      (fun e t => Table.ofFile fs.reader path e.1 e.2 = .ok t) tables :=
    exists_forall₂ fun e he => hread e (mem_tableFiles.1 he).1 (mem_tableFiles.1 he).2
  obtain ⟨tables,htables⟩ := htables
  have hfiles := pairwise_fileNameOf hnames htables
  have hne : tableFiles path entries ≠ [] := by
    obtain ⟨e,he,hfile⟩ := hsome
    exact List.ne_nil_of_mem (mem_tableFiles.2 ⟨he,hfile⟩)
  refine ⟨_,ofDirectory_eq_ok_iff.2 ⟨entries,tables,hentries,hne,htables,rfl⟩,fun t => ?_,hfiles,
    fun given hgiven => ?_⟩
  · have hmap : (tableFiles path entries).map (fun e => Table.ofFile fs.reader path e.1 e.2) =
        tables.map .ok := by
      rw [← List.forall₂_eq_eq_eq,List.forall₂_map_left_iff,List.forall₂_map_right_iff]
      exact htables
    rw [← List.mem_map_of_injective (f := @Except.ok (Stop CatalogError) Table) fun _ _ => Except.ok.inj,
      ← hmap,List.mem_map]
    simp only [mem_tableFiles,and_assoc]
  · have hsorted : (given.mergeSort fun a b => a.name ≤ b.name).Pairwise fun a b => a.name ≤ b.name :=
      pairwise_mergeSort_le Table.name given
    have hperm : (given.mergeSort fun a b => a.name ≤ b.name).Perm tables :=
      (List.mergeSort_perm _ _).trans hgiven
    rw [← pairwise_name_iff hfiles]
    constructor
    · intro he
      have htables : given.mergeSort (fun a b => a.name ≤ b.name) = tables := congrArg Catalog.tables he
      rwa [htables] at hsorted
    · intro hordered
      refine congrArg (Catalog.mk path caseSensitive) (hperm.eq_of_pairwise ?_ hsorted hordered)
      intro a b ha hb hab hba
      have hnodup : (tables.map fileNameOf).Nodup :=
        List.pairwise_map.2 (hfiles.imp fun {a b} h => h.ne)
      exact List.inj_on_of_nodup_map hnodup (hperm.mem_iff.1 ha) hb
        (congrArg (· ++ ".arrow") (le_antisymm hab hba))

/-- A table file without columns. -/
def columnlessFile : FileNode := .file ⟨(("ARROW1".toUTF8.toList ++ List.replicate 58 0) ++ [
    255,255,255,255,56,0,0,0,16,0,0,0,0,0,10,0,12,0,10,0,9,0,4,0,10,0,0,0,16,0,0,0,0,1,4,0,8,0,8,0,
    0,0,4,0,8,0,0,0,4,0,0,0,0,0,0,0,0,0,0,0,0,0,0,0,255,255,255,255,0,0,0,0,16,0,0,0,12,0,20,0,18,
    0,12,0,8,0,4,0,12,0,0,0,36,0,0,0,36,0,0,0,16,0,0,0,0,0,4,0,8,0,8,0,0,0,4,0,8,0,0,0,4,0,0,0,0,0,
    0,0,0,0,0,0,0,0,0,0,64,0,0,0,65,82,82,79,87,49]).toArray⟩

theorem ofFile_columnlessFile (refusal : ByteArray → String) (directory name : String) :
    Table.ofFile (Arrow.reader refusal) directory name columnlessFile
      = .ok ⟨Path.stem name,Path.join directory name,[]⟩ := by
  have hfields {contents : ByteArray} (h : columnlessFile = .file contents) :
      Arrow.reader refusal contents = .fields [] := by
    have hnone : ((Arrow.columnsOf contents).map List.length).toOption = some 0 := by
      cases h
      decide +kernel
    cases hcolumns : Arrow.columnsOf contents with
    | error stop =>
      rw [hcolumns] at hnone
      cases hnone
    | ok fields =>
      rw [hcolumns] at hnone
      rw [Arrow.reader,hcolumns,List.length_eq_zero_iff.1 (Option.some.inj hnone)]
  exact Table.ofFile_eq_ok_iff.2 ⟨_,[],[],rfl,hfields rfl,rfl,rfl⟩

def dashedFiles : List (String × FileNode) :=
  [("a-b.arrow",columnlessFile),("a.arrow",columnlessFile)]

/-- A database of two tables, the name of one of which starts that of the other. -/
def dashedDatabase : FileSystem where
  root := .directory [("db",.directory dashedFiles)]
  current := []
  reader := Arrow.reader fun _ => ""

theorem ofFile_dashedFiles : ∀ e ∈ dashedFiles, isTableFile "db" e ∧
    Table.ofFile dashedDatabase.reader "db" e.1 e.2
      = .ok ⟨Path.stem e.1,Path.join "db" e.1,[]⟩ := by
  have hfiles : ∀ e ∈ dashedFiles, isTableFile "db" e := by decide +kernel
  have hcolumnless : ∀ e ∈ dashedFiles, e.2 = columnlessFile := by simp [dashedFiles]
  refine fun e he => ⟨hfiles e he,?_⟩
  rw [hcolumnless e he,dashedDatabase,ofFile_columnlessFile]

theorem ofDirectory_tables_dashed :
    dashedDatabase.entries? "db" = some dashedFiles ∧ (dashedFiles.map Prod.fst).Nodup ∧
    ∃ c, ofDirectory dashedDatabase "db" true = .ok c ∧
      (∀ t, t ∈ c.tables ↔ ∃ e ∈ dashedFiles, isTableFile "db" e ∧
        Table.ofFile dashedDatabase.reader "db" e.1 e.2 = .ok t) ∧
      (c.tables.Pairwise fun a b => fileNameOf a < fileNameOf b) ∧
      ∀ given : List Table, given.Perm c.tables →
        (ofTables "db" given true = c ↔ ExtensionsAgree c.tables) := by
  have hentries : dashedDatabase.entries? "db" = some dashedFiles := rfl
  have hnames : (dashedFiles.map Prod.fst).Nodup := by decide +kernel
  exact ⟨hentries,hnames,ofDirectory_tables true hentries hnames
    ⟨_,List.mem_cons_self,(ofFile_dashedFiles _ List.mem_cons_self).1⟩
    fun e he _ => ⟨_,(ofFile_dashedFiles e he).2⟩⟩

/-- A dash sorts before the dot of an extension, but behind the end of a name. -/
theorem ofDirectory_dashedDatabase : ∃ c, ofDirectory dashedDatabase "db" true = .ok c ∧
    c.tableNames = ["a-b","a"] ∧ (ofTables "db" c.tables true).tableNames = ["a","a-b"] := by
  have hfiles : tableFiles "db" dashedFiles = dashedFiles :=
    tableFiles_eq_self (fun e he => (ofFile_dashedFiles e he).1) (by decide +kernel)
  have hsome : tableFiles "db" dashedFiles ≠ [] := by
    rw [hfiles]
    exact List.cons_ne_nil _ _
  refine ⟨⟨"db",true,dashedFiles.map fun e => ⟨Path.stem e.1,Path.join "db" e.1,[]⟩⟩,?_,rfl,?_⟩
  · refine ofDirectory_eq_ok_iff.2 ⟨dashedFiles,_,rfl,hsome,?_,rfl⟩
    rw [hfiles,List.forall₂_map_right_iff,List.forall₂_same]
    exact fun e he => (ofFile_dashedFiles e he).2
  · have hfirst : Path.stem "a-b.arrow" = "a-b" := by decide +kernel
    have hsecond : Path.stem "a.arrow" = "a" := by decide +kernel
    simp [tableNames,ofTables,dashedFiles,List.mergeSort,hfirst,hsecond]

end Catalog

end QueryPlan
