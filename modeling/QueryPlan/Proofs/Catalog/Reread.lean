import QueryPlan.Proofs.Catalog.Types

/-! # Files that are read again

A reader hands out the maps of a table file in another order at each reading. The order shows in the
words in which a column or a whole file is refused, and nowhere in a catalog. -/
namespace QueryPlan

/-! ## Maps in some order -/

namespace Arrow

mutual

/-- A type with all maps in the order of their keys. -/
def DataType.ordered : DataType → DataType
  | .list item => .list item.ordered
  | .largeList item => .largeList item.ordered
  | .listView item => .listView item.ordered
  | .largeListView item => .largeListView item.ordered
  | .fixedSizeList item size => .fixedSizeList item.ordered size
  | .struct fields => .struct (orderedFields fields)
  | .union members dense => .union (orderedMembers members) dense
  | .map entries sorted => .map entries.ordered sorted
  | .dictionary index value => .dictionary index.ordered value.ordered
  | .runEndEncoded ends values => .runEndEncoded ends.ordered values.ordered
  | type => type

def Field.ordered : Field → Field
  | .mk name type nullable dictionary ordered metadata =>
    .mk name type.ordered nullable dictionary ordered (metadata.mergeSort fun a b => a.1 ≤ b.1)

def orderedFields : List Field → List Field
  | [] => []
  | field :: fields => field.ordered :: orderedFields fields

def orderedMembers : List (Int8 × Field) → List (Int8 × Field)
  | [] => []
  | (id,field) :: members => (id,field.ordered) :: orderedMembers members

end

theorem DataType.sqlType?_ordered (type : DataType) : type.ordered.sqlType? = type.sqlType? := by
  cases type <;> simp [ordered,sqlType?]

theorem Field.name_ordered (field : Field) : field.ordered.name = field.name := by
  cases field
  rw [ordered]
  rfl

theorem Field.type_ordered (field : Field) : field.ordered.type = field.type.ordered := by
  cases field
  rw [ordered]
  rfl

/-- One file at two readings. They find the same columns but for the order of maps, and may refuse the
file in other words. -/
inductive Reading.Alike : Reading → Reading → Prop
  | fields {fields fields' : List Field} (h : fields.map Field.ordered = fields'.map Field.ordered) :
    Alike (.fields fields) (.fields fields')
  | unreadable (reason reason' : String) : Alike (.unreadable reason) (.unreadable reason')
  | panicked : Alike .panicked .panicked

end Arrow

/-- The same files, read again. -/
structure FileSystem.Rereads (fs fs' : FileSystem) : Prop where
  root : fs.root = fs'.root
  current : fs.current = fs'.current
  reader : ∀ contents, (fs.reader contents).Alike (fs'.reader contents)

/-- One failure in the words of two readings. -/
inductive CatalogError.Reworded (read read' : Arrow.Reader) : CatalogError → CatalogError → Prop
  | unsupportedType (file column : String) {type type' : Arrow.DataType} (h : type.ordered = type'.ordered) :
    Reworded read read' (.unsupportedType file column type.text) (.unsupportedType file column type'.text)
  | unreadable (file : String) {contents : ByteArray} {reason reason' : String}
    (h : read contents = .unreadable reason) (h' : read' contents = .unreadable reason') :
    Reworded read read' (.unreadable file reason) (.unreadable file reason')

/-- Two readings stop the same work: in the same way, or for one failure in the words of each. `told`
makes an error of the failure. -/
inductive Stop.Reworded {ε : Type} (read read' : Arrow.Reader) (told : CatalogError → ε) :
    Stop ε → Stop ε → Prop
  | same (stop : Stop ε) : Reworded read read' told stop stop
  | failed {e e' : CatalogError} (h : e.Reworded read read' e') :
    Reworded read read' told (.failed (told e)) (.failed (told e'))

/-- Work comes to the same at two readings, but for the words in which a table file is refused. -/
abbrev ReadsAlike {ε α : Type} (read read' : Arrow.Reader) (told : CatalogError → ε) :
    Except (Stop ε) α → Except (Stop ε) α → Prop :=
  LiftRel (Stop.Reworded read read' told) (· = ·)

section
variable {read read' : Arrow.Reader} {fs fs' : FileSystem}

theorem ReadsAlike.refl {ε α : Type} (told : CatalogError → ε) (x : Except (Stop ε) α) :
    ReadsAlike read read' told x x := LiftRel.refl .same (fun _ => rfl) x

/-- Columns are described in the same way at both readings, or the same one is refused. -/
theorem columnsOf_reread (file : String) {fields fields' : List Arrow.Field}
    (h : fields.map Arrow.Field.ordered = fields'.map Arrow.Field.ordered) :
    columnsOf file fields = columnsOf file fields' ∨
      ∃ column type type', Arrow.DataType.ordered type = Arrow.DataType.ordered type' ∧
        columnsOf file fields = .error (.unsupportedType file column type.text) ∧
        columnsOf file fields' = .error (.unsupportedType file column type'.text) := by
  induction fields generalizing fields' with
  | nil =>
    obtain rfl := List.map_eq_nil_iff.1 h.symm
    exact .inl rfl
  | cons field fields ih =>
    cases fields' with
    | nil => cases h
    | cons field' fields' =>
      rw [List.map_cons,List.map_cons,List.cons.injEq] at h
      have hname : field.name = field'.name := by rw [← field.name_ordered,h.1,field'.name_ordered]
      have htype : field.type.ordered = field'.type.ordered := by
        rw [← field.type_ordered,h.1,field'.type_ordered]
      have hsql : field.type.sqlType? = field'.type.sqlType? := by
        rw [← field.type.sqlType?_ordered,htype,field'.type.sqlType?_ordered]
      have hcolumn : Column.ofField? field = Column.ofField? field' := by
        rw [Column.ofField?,Column.ofField?,hname,hsql]
      rw [columnsOf,columnsOf,hcolumn]
      cases Column.ofField? field' with
      | none => exact .inr ⟨field.name,field.type,field'.type,htype,rfl,by rw [hname]⟩
      | some column =>
        rcases ih h.2 with heq|⟨name,type,type',hordered,herror,herror'⟩
        · exact .inl (by rw [heq])
        · exact .inr ⟨name,type,type',hordered,by rw [herror]; rfl,by rw [herror']; rfl⟩

theorem Table.ofFile_reread (h : ∀ contents, (read contents).Alike (read' contents))
    (directory name : String) (node : FileNode) :
    ReadsAlike read read' id (ofFile read directory name node) (ofFile read' directory name node) := by
  cases node with
  | directory entries => exact .refl _ _
  | unlisted reason entries => exact .refl _ _
  | unreadable reason => exact .refl _ _
  | file contents =>
    have halike := h contents
    simp only [ofFile]
    cases hread : read contents <;> cases hread' : read' contents <;> rw [hread,hread'] at halike
    all_goals cases halike
    case fields.fields.fields fields fields' hfields =>
      dsimp only
      rcases columnsOf_reread (Path.join directory name) hfields with
        heq|⟨column,type,type',hordered,herror,herror'⟩
      · rw [heq]
        exact .refl _ _
      · rw [herror,herror']
        exact .error (.failed (.unsupportedType _ column hordered))
    case unreadable.unreadable reason reason' =>
      exact .error (.failed (.unreadable _ hread hread'))
    case panicked.panicked => exact .refl _ _

theorem ReadsAlike.eq_ok {ε α : Type} {told : CatalogError → ε} {a : α} {x : Except (Stop ε) α}
    (h : ReadsAlike read read' told (.ok a) x) : x = .ok a := by
  cases h with
  | ok h => rw [h]

theorem FileSystem.Rereads.refl (fs : FileSystem) : fs.Rereads fs := by
  refine ⟨rfl,rfl,fun contents => ?_⟩
  cases fs.reader contents with
  | fields fields => exact .fields rfl
  | unreadable reason => exact .unreadable _ _
  | panicked => exact .panicked

theorem FileSystem.Rereads.find (h : fs.Rereads fs') (path : String) : fs.find path = fs'.find path := by
  rw [FileSystem.find,FileSystem.find,FileSystem.start,FileSystem.start,h.root,h.current]

/-- A directory that is read again gives the same catalog, or fails at the same file. -/
theorem FileSystem.Rereads.ofDirectory (h : fs.Rereads fs') (path : String) (caseSensitive : Bool) :
    ReadsAlike fs.reader fs'.reader id (Catalog.ofDirectory fs path caseSensitive)
      (Catalog.ofDirectory fs' path caseSensitive) := by
  unfold Catalog.ofDirectory
  rw [h.find path]
  split
  · dsimp only
    split
    · exact .refl _ _
    · refine (LiftRel.mapM (List.forall₂_same.2 fun _ _ =>
        Table.ofFile_reread h.reader path _ _)).bind fun ts ts' hts => ?_
      rw [List.forall₂_eq_eq_eq] at hts
      rw [hts]
      exact ReadsAlike.refl _ _
  · exact .refl _ _
  · exact .refl _ _

theorem FileSystem.Rereads.ofDirectory_eq_ok (h : fs.Rereads fs') {path : String} {caseSensitive : Bool}
    {c : Catalog} (hc : Catalog.ofDirectory fs path caseSensitive = .ok c) :
    Catalog.ofDirectory fs' path caseSensitive = .ok c := by
  have halike := h.ofDirectory path caseSensitive
  rw [hc] at halike
  exact halike.eq_ok

end

end QueryPlan
