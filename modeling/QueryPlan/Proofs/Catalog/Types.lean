import QueryPlan.Catalog.Directory
import QueryPlan.Proofs.Except

/-! # Tables of a directory and the types of their columns

A directory gives a table for each of its table files. No file gives a column a type that conditions
have. -/
namespace QueryPlan

/-- No column has a type that conditions may have. -/
def Catalog.BooleanFree (c : Catalog) : Prop :=
  ∀ t ∈ c.tables, ∀ column ∈ t.columns, column.type ≠ .boolean ∧ column.type ≠ .null

instance (c : Catalog) : Decidable c.BooleanFree :=
  inferInstanceAs (Decidable (∀ t ∈ c.tables, ∀ column ∈ t.columns,
    column.type ≠ .boolean ∧ column.type ≠ .null))

theorem Arrow.DataType.ne_of_sqlType? {type : DataType} {t : SqlType} (h : type.sqlType? = some t) :
    t ≠ .boolean ∧ t ≠ .null := by
  unfold sqlType? at h
  split at h <;> cases h <;> exact ⟨nofun,nofun⟩

theorem columnsOf_booleanFree {file : String} {fields : List Arrow.Field} {columns : List Column}
    (h : columnsOf file fields = .ok columns) :
    ∀ column ∈ columns, column.type ≠ .boolean ∧ column.type ≠ .null := by
  induction fields generalizing columns with
  | nil =>
    cases h
    simp
  | cons field fields ih =>
    rw [columnsOf] at h
    split at h
    · cases h
    · rename_i column hcolumn
      obtain ⟨rest,hrest,rfl⟩ := map_eq_ok_iff.1 h
      obtain ⟨t,ht,rfl⟩ := Option.map_eq_some_iff.1 hcolumn
      exact List.forall_mem_cons.2 ⟨Arrow.DataType.ne_of_sqlType? ht,ih hrest⟩

/-- A table is read from a file all of whose columns have types that tables can have. It is named after
the file. -/
theorem Table.ofFile_eq_ok_iff {read : Arrow.Reader} {directory name : String} {node : FileNode}
    {t : Table} : ofFile read directory name node = .ok t ↔
      ∃ contents fields columns, node = .file contents ∧ read contents = .fields fields ∧
        columnsOf (Path.join directory name) fields = .ok columns ∧
        t = ⟨Path.stem name,Path.join directory name,columns⟩ := by
  constructor
  · intro h
    cases node with
    | directory entries => cases h
    | unlisted reason entries => cases h
    | unreadable reason => cases h
    | file contents =>
      simp only [ofFile] at h
      split at h
      · cases h
      · cases h
      · rename_i fields hfields
        split at h
        · cases h
        · rename_i columns hcolumns
          cases h
          exact ⟨contents,fields,columns,rfl,hfields,hcolumns,rfl⟩
  · rintro ⟨contents,fields,columns,rfl,hfields,hcolumns,rfl⟩
    simp only [ofFile,hfields,hcolumns]

theorem Table.ofFile_booleanFree {read : Arrow.Reader} {directory name : String} {node : FileNode}
    {t : Table} (h : ofFile read directory name node = .ok t) :
    ∀ column ∈ t.columns, column.type ≠ .boolean ∧ column.type ≠ .null := by
  obtain ⟨contents,fields,columns,-,-,hcolumns,rfl⟩ := ofFile_eq_ok_iff.1 h
  exact columnsOf_booleanFree hcolumns

theorem Table.exists_panicked {read : Arrow.Reader} {directory name : String} {node : FileNode}
    (h : ofFile read directory name node = .error .panicked) : ∃ contents, read contents = .panicked := by
  cases node with
  | directory entries => cases h
  | unlisted reason entries => cases h
  | unreadable reason => cases h
  | file contents =>
    simp only [ofFile] at h
    split at h
    · rename_i hpanicked
      exact ⟨contents,hpanicked⟩
    · cases h
    · split at h <;> cases h

theorem FileSystem.entries?_eq_some_iff {fs : FileSystem} {path : String}
    {entries : List (String × FileNode)} :
    fs.entries? path = some entries ↔ fs.find path = .ok (.directory entries) := by
  unfold entries?
  constructor
  · intro h
    split at h
    · rename_i hfind
      cases h
      exact hfind
    · cases h
  · intro h
    rw [h]

/-- A directory with table files gives their tables, in the order of the files, if all can be read. -/
theorem Catalog.ofDirectory_eq_ok_iff {fs : FileSystem} {path : String} {caseSensitive : Bool}
    {c : Catalog} : ofDirectory fs path caseSensitive = .ok c ↔
      ∃ entries tables, fs.entries? path = some entries ∧ tableFiles path entries ≠ [] ∧
        (tableFiles path entries).Forall₂
          (fun e t => Table.ofFile fs.reader path e.1 e.2 = .ok t) tables ∧
        c = ⟨path,caseSensitive,tables⟩ := by
  unfold ofDirectory
  constructor
  · intro h
    split at h
    · rename_i entries hentries
      split at h
      · cases h
      · rename_i hfiles
        obtain ⟨tables,htables,h⟩ := bind_eq_ok_iff.1 h
        cases h
        exact ⟨entries,tables,FileSystem.entries?_eq_some_iff.2 hentries,hfiles,
          mapM_eq_ok_iff.1 htables,rfl⟩
    · cases h
    · cases h
  · rintro ⟨entries,tables,hentries,hfiles,htables,rfl⟩
    rw [FileSystem.entries?_eq_some_iff.1 hentries]
    dsimp only
    split
    · rename_i hnil
      exact absurd hnil hfiles
    · exact bind_eq_ok_iff.2 ⟨tables,mapM_eq_ok_iff.2 htables,rfl⟩

/-- The reading of a directory panics only if the reader of its table files does. -/
theorem Catalog.exists_panicked {fs : FileSystem} {path : String} {caseSensitive : Bool}
    (h : ofDirectory fs path caseSensitive = .error .panicked) :
    ∃ contents, fs.reader contents = .panicked := by
  unfold ofDirectory at h
  split at h
  · split at h
    · cases h
    · rcases bind_eq_error_iff.1 h with htables|⟨tables,-,hcatalog⟩
      · obtain ⟨⟨name,node⟩,-,hfile⟩ := exists_of_mapM_error htables
        exact Table.exists_panicked hfile
      · cases hcatalog
  · cases h
  · cases h

theorem Catalog.ofDirectory_booleanFree {fs : FileSystem} {path : String} {caseSensitive : Bool}
    {c : Catalog} (h : ofDirectory fs path caseSensitive = .ok c) : c.BooleanFree := by
  obtain ⟨entries,tables,-,-,htables,rfl⟩ := ofDirectory_eq_ok_iff.1 h
  intro t ht
  obtain ⟨file,-,hfile⟩ := exists_of_forall₂ htables.flip ht
  exact Table.ofFile_booleanFree hfile

end QueryPlan
