import QueryPlan.EnginePlan
import QueryPlan.Proofs.Catalog.Types
import QueryPlan.Proofs.Files.Spelling
import QueryPlan.Relation.Explain

/-! # Tables apart from their files

The path under which a directory is asked for shows in where its tables are said to be kept, and
nowhere else: not in the columns of a plan, in its explain text or in its engine plan. -/
namespace QueryPlan

/-- A table apart from the file it is kept in. -/
def Table.detached (t : Table) : Table := { t with file := "" }

/-- The tables of a catalog apart from where they are. -/
def Catalog.detached (c : Catalog) : Catalog :=
  { c with root := "",tables := c.tables.map Table.detached }

/-- A plan over tables apart from where they are. -/
def Plan.detached : Plan → Plan
  | scan t => scan t.detached
  | arrowScan t cols => arrowScan t.detached cols
  | filter input condition => filter input.detached condition
  | project input es ns => project input.detached es ns
  | join left right condition kind => join left.detached right.detached condition kind
  | aggregate input groups calls => aggregate input.detached groups calls

/-! ## Catalogs of one directory -/

theorem columnsOf_eq_ok {file file' : String} {fields : List Arrow.Field} {columns : List Column}
    (h : columnsOf file fields = .ok columns) : columnsOf file' fields = .ok columns := by
  induction fields generalizing columns with
  | nil => exact h
  | cons field fields ih =>
    rw [columnsOf] at h ⊢
    split at h
    · cases h
    · obtain ⟨rest,hrest,h⟩ := map_eq_ok_iff.1 h
      exact map_eq_ok_iff.2 ⟨rest,ih hrest,h⟩

theorem Table.ofFile_detached {read : Arrow.Reader} {directory name : String} {node : FileNode}
    {t : Table} (h : ofFile read directory name node = .ok t) (directory' : String) :
    ∃ t', ofFile read directory' name node = .ok t' ∧ t'.detached = t.detached := by
  obtain ⟨contents,fields,columns,rfl,hfields,hcolumns,rfl⟩ := ofFile_eq_ok_iff.1 h
  exact ⟨_,ofFile_eq_ok_iff.2 ⟨contents,fields,columns,rfl,hfields,columnsOf_eq_ok hcolumns,rfl⟩,rfl⟩

theorem Catalog.tableFiles_congr {path path' : String} {entries : List (String × FileNode)}
    (h : ∀ e ∈ entries, Path.fits (Path.join path e.1)) (h' : ∀ e ∈ entries, Path.fits (Path.join path' e.1)) :
    tableFiles path entries = tableFiles path' entries := by
  rw [tableFiles,tableFiles,List.filter_congr fun e he => ?_]
  rw [isTableFile,isTableFile,h e he,h' e he]

/-- A directory that gives a catalog under one spelling of its path gives the same one, apart from
where the tables are, under every other spelling, unless these are too long. -/
theorem Catalog.ofDirectory_detached {fs : FileSystem} {path path' : String} {caseSensitive : Bool}
    {c : Catalog} (hpath : Path.components path = Path.components path') (hspells : fs.Spells path)
    (hspells' : fs.Spells path') (h : ofDirectory fs path caseSensitive = .ok c) :
    ∃ c', ofDirectory fs path' caseSensitive = .ok c' ∧ c'.detached = c.detached := by
  have htables : ∀ {files : List (String × FileNode)} {ts : List Table},
      files.Forall₂ (fun f t => Table.ofFile fs.reader path f.1 f.2 = .ok t) ts →
      ∃ ts', files.Forall₂ (fun f t => Table.ofFile fs.reader path' f.1 f.2 = .ok t) ts' ∧
        ts'.map Table.detached = ts.map Table.detached := by
    intro files ts hfiles
    induction hfiles with
    | nil => exact ⟨[],.nil,rfl⟩
    | cons ht _ ih =>
      obtain ⟨t',ht',hdetached⟩ := Table.ofFile_detached ht path'
      obtain ⟨ts',hts',hrest⟩ := ih
      exact ⟨t' :: ts',.cons ht' hts',by rw [List.map_cons,List.map_cons,hdetached,hrest]⟩
  obtain ⟨entries,ts,hentries,hfiles,hts,rfl⟩ := ofDirectory_eq_ok_iff.1 h
  have hentries' : fs.entries? path' = some entries := by
    rw [← fs.entries?_eq_of_components_eq hspells.fits hspells'.fits hpath,hentries]
  rw [tableFiles_congr (hspells.entries _ hentries) (hspells'.entries _ hentries')] at hfiles hts
  obtain ⟨ts',hts',hdetached⟩ := htables hts
  refine ⟨_,ofDirectory_eq_ok_iff.2 ⟨entries,ts',hentries',hfiles,hts',rfl⟩,?_⟩
  simp only [detached,hdetached]

theorem Catalog.lookup_detached (c : Catalog) (name : String) :
    c.detached.lookup name = (c.lookup name).map Table.detached := by
  simp only [lookup,detached,List.find?_map]
  rfl

/-! ## Plans -/

namespace Plan

@[simp] theorem width_detached (p : Plan) : p.detached.width = p.width := by
  induction p with
  | join left right c k ihl ihr => simp only [detached,width,ihl,ihr]
  | filter input c ih => exact ih
  | _ => rfl

@[simp] theorem fields_detached (p : Plan) : p.detached.fields = p.fields := by
  induction p with
  | filter input c ih => exact ih
  | join left right c k ihl ihr => simp only [detached,fields,ihl,ihr]
  | aggregate input groups calls ih => simp only [detached,fields,ih]
  | _ => rfl

@[simp] theorem inputs_detached (p : Plan) : p.detached.inputs = p.inputs.map detached := by
  cases p <;> rfl

theorem scans_detached (p : Plan) : p.detached.scans = p.scans.map Table.detached := by
  induction p with
  | join left right c k ihl ihr => simp only [detached,scans,ihl,ihr,List.map_append]
  | scan t => rfl
  | arrowScan t cols => rfl
  | filter input c ih => exact ih
  | project input es ns ih => exact ih
  | aggregate input groups calls ih => exact ih

theorem tableNames_detached (p : Plan) : p.detached.tableNames = p.tableNames := by
  rw [tableNames,tableNames,scans_detached,List.map_map]
  rfl

theorem explainLines_detached (p : Plan) (depth : Nat) :
    p.detached.explainLines depth = p.explainLines depth := by
  induction p generalizing depth with
  | scan t => rfl
  | arrowScan t cols => rfl
  | filter input c ih => exact congrArg (List.cons _) (ih (depth+1))
  | project input es ns ih => exact congrArg (List.cons _) (ih (depth+1))
  | aggregate input groups calls ih => exact congrArg (List.cons _) (ih (depth+1))
  | join left right c k ihl ihr =>
    exact congrArg (List.cons _) (congrArg₂ List.append (ihl (depth+1)) (ihr (depth+1)))

theorem explain_detached (p : Plan) : p.detached.explain = p.explain := by
  rw [explain,explain,explainLines_detached]

theorem projectDerived_detached (p : Plan) (es : List Expr) :
    p.detached.projectDerived es = (p.projectDerived es).detached := by
  rw [projectDerived,projectDerived,fields_detached]
  rfl

end Plan

theorem EnginePlan.encodeAfter_detached (p : Plan) (written : List String) :
    encodeAfter written p.detached = encodeAfter written p := by
  induction p generalizing written with
  | scan t => rfl
  | arrowScan t cols => rfl
  | filter input c ih => simp only [Plan.detached,encodeAfter,ih]
  | project input es ns ih => simp only [Plan.detached,encodeAfter,ih]
  | aggregate input groups calls ih => simp only [Plan.detached,encodeAfter,ih]
  | join left right c k ihl ihr => simp only [Plan.detached,encodeAfter,ihl,ihr]

theorem EnginePlan.encode_detached (p : Plan) : encode p.detached = encode p := by
  rw [encode,encode,encodeLines,encodeLines,encodeAfter_detached]

end QueryPlan
