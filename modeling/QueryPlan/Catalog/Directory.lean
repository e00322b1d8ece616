import QueryPlan.Catalog.Basic
import QueryPlan.Files.Basic
import QueryPlan.Stop

/-! # Catalogs read from directories

Each table file of a directory is one table, named after the file. Files are taken in the
order of their names and the first that cannot be described stops the reading. -/
namespace QueryPlan

/-- Why a directory gives no catalog. -/
inductive CatalogError where
  | notFound (path : String)
  | empty (path : String)
  | unreadable (file reason : String)
  | unsupportedType (file column type : String)
deriving DecidableEq,Repr

namespace CatalogError

def code : CatalogError → String
  | notFound _ => "AETHRA_CATALOG_NOT_FOUND"
  | empty _ => "AETHRA_CATALOG_EMPTY"
  | unreadable _ _ => "AETHRA_CATALOG_UNREADABLE"
  | unsupportedType _ _ _ => "AETHRA_CATALOG_UNSUPPORTED_TYPE"

def message : CatalogError → String
  | notFound path =>
    "Cannot create a schema for a non-existent database directory '" ++ path ++ "'"
  | empty path => "Cannot create a schema for an empty database '" ++ path ++ "'"
  | unreadable file reason =>
    "Could not parse the arrow file schema for file '" ++ file ++ "': " ++ reason
  | unsupportedType file column type => "The Arrow type " ++ type ++ " of column '" ++ column
      ++ "' in '" ++ file ++ "' is currently not supported"

def display (e : CatalogError) : String := e.code ++ ": " ++ e.message

end CatalogError

def Column.ofField? (field : Arrow.Field) : Option Column :=
  field.type.sqlType?.map fun type => { name := field.name,type }

/-- The columns of a table file, checked in order. -/
def columnsOf (file : String) : List Arrow.Field → Except CatalogError (List Column)
  | [] => .ok []
  | field :: fields =>
    match Column.ofField? field with
    | none => .error (.unsupportedType file field.name field.type.text)
    | some column => (columnsOf file fields).map (column :: ·)

/-- The table that an entry of a directory holds. -/
def Table.ofFile (read : Arrow.Reader) (directory name : String) (node : FileNode) :
    Except (Stop CatalogError) Table :=
  let file := Path.join directory name
  match node with
  | .directory _ | .unlisted _ _ =>
    .error (.failed (.unreadable file FileError.isDirectory.message))
  | .unreadable reason => .error (.failed (.unreadable file reason))
  | .file contents =>
    match read contents with
    | .panicked => .error .panicked
    | .unreadable reason => .error (.failed (.unreadable file reason))
    | .fields fields =>
      match columnsOf file fields with
      | .error e => .error (.failed e)
      | .ok columns => .ok { name := Path.stem name,file,columns }

namespace Catalog

/-- Table files are the files with the extension `arrow` that a path leads to. -/
def isTableFile (directory : String) (entry : String × FileNode) : Bool :=
  !entry.2.isDirectory && Path.fits (Path.join directory entry.1)
    && Path.extension? entry.1 == some "arrow"

/-- The table files of a directory in the order of their names. -/
def tableFiles (directory : String) (entries : List (String × FileNode)) :
    List (String × FileNode) :=
  (entries.filter (isTableFile directory)).mergeSort fun a b => a.1 ≤ b.1

def ofDirectory (fs : FileSystem) (path : String) (caseSensitive : Bool) :
    Except (Stop CatalogError) Catalog :=
  match fs.find path with
  | .ok (.directory entries) =>
    match tableFiles path entries with
    | [] => .error (.failed (.empty path))
    | files => do
      let tables ← files.mapM fun (name,node) => Table.ofFile fs.reader path name node
      return { root := path,caseSensitive,tables }
  | .ok (.unlisted reason _) => .error (.failed (.unreadable path reason))
  | _ => .error (.failed (.notFound path))

end Catalog
end QueryPlan
