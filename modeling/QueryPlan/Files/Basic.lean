import QueryPlan.Arrow.DataType
import QueryPlan.Files.Path

/-! # Files and directories

A snapshot of the files that work may read. A path leads through it name by name, and every
name on the way has to be a directory. -/
namespace QueryPlan

inductive FileNode where
  | file (contents : ByteArray)
  | unreadable (reason : String)
  | directory (entries : List (String × FileNode))
  /-- A directory that is not listed to the end, though paths lead through it. -/
  | unlisted (reason : String) (entries : List (String × FileNode))
deriving Inhabited

namespace FileNode

def entries : FileNode → List (String × FileNode)
  | directory entries | unlisted _ entries => entries
  | _ => []

def isDirectory : FileNode → Bool
  | directory _ | unlisted _ _ => true
  | _ => false

def entry? (node : FileNode) (name : String) : Option FileNode := node.entries.lookup name

/-- The node that a list of names leads to. -/
def at? : FileNode → List String → Option FileNode
  | node,[] => some node
  | node,name :: names => (node.entry? name).bind (·.at? names)

private def setEntry (entries : List (String × FileNode)) (name : String) (node : FileNode) :
    List (String × FileNode) :=
  if entries.any (·.1 == name) then entries.map fun e => if e.1 == name then (name,node) else e
  else entries ++ [(name,node)]

/-- A directory with other entries. -/
def withEntries (entries : List (String × FileNode)) : FileNode → FileNode
  | unlisted reason _ => unlisted reason entries
  | _ => directory entries

/-- Puts a node where the names lead, with directories on the way. -/
def put (new : FileNode) : List String → FileNode → FileNode
  | [],_ => new
  | name :: names,node =>
    node.withEntries
      (setEntry node.entries name (put new names ((node.entry? name).getD (directory []))))

/-- Takes away the node that the names lead to. -/
def remove : List String → FileNode → FileNode
  | [],node => node
  | name :: names,node =>
    if node.isDirectory then
      node.withEntries (if names.isEmpty then node.entries.filter (·.1 != name)
        else node.entries.map fun e => if e.1 == name then (name,remove names e.2) else e)
    else node

end FileNode

/-- A tree of files and the directory in which relative paths start. Table files are read by a
reader of their own; what it makes of the maps in a file can be another order at each reading. -/
structure FileSystem where
  root : FileNode
  current : List String
  reader : Arrow.Reader

/-- Why the text of a file cannot be had. -/
inductive FileError where
  | notFound
  | notADirectory
  | isDirectory
  | nameTooLong
  | zeroByte
  | notText
  | other (reason : String)
deriving DecidableEq,Repr

def FileError.message : FileError → String
  | notFound => "No such file or directory (os error 2)"
  | notADirectory => "Not a directory (os error 20)"
  | isDirectory => "Is a directory (os error 21)"
  | nameTooLong => "File name too long (os error 36)"
  | zeroByte => "file name contained an unexpected NUL byte"
  | notText => "stream did not contain valid UTF-8"
  | other reason => reason

namespace FileSystem

/-- One step from a directory, given by the names that lead to it. -/
def step (place : List String) (part : String) : List String :=
  if Path.isIdle part then place
  else if part == ".." then place.dropLast
  else place ++ [part]

def start (fs : FileSystem) (path : String) : List String :=
  if Path.isAbsolute path then [] else fs.current

/-- The place that a path spells out, whatever is there. -/
def place (fs : FileSystem) (path : String) : List String :=
  (Path.parts path).foldl step (fs.start path)

/-- Why nothing stands at a place. -/
def missing (place : List String) : FileError :=
  if place.getLast?.any (Path.maxNameBytes < ·.utf8ByteSize) then .nameTooLong else .notFound

/-- What stands at the end of a way that leads through directories only. -/
def walk (root : FileNode) (place : List String) : List String → Except FileError FileNode
  | [] =>
    match root.at? place with
    | none => .error (missing place)
    | some node => .ok node
  | part :: parts =>
    match root.at? place with
    | none => .error (missing place)
    | some node =>
      if node.isDirectory then walk root (step place part) parts else .error .notADirectory

/-- What stands at a path. -/
def find (fs : FileSystem) (path : String) : Except FileError FileNode :=
  if path.isEmpty then .error .notFound
  else if Path.fits path then walk fs.root (fs.start path) (Path.parts path)
  else .error .nameTooLong

/-- The entries of a directory that can be listed. -/
def entries? (fs : FileSystem) (path : String) : Option (List (String × FileNode)) :=
  match fs.find path with
  | .ok (.directory entries) => some entries
  | _ => none

def readText (fs : FileSystem) (path : String) : Except FileError String :=
  match fs.find path with
  | .error e => .error (if path.toList.contains '\x00' then .zeroByte else e)
  | .ok (.directory _) | .ok (.unlisted _ _) => .error .isDirectory
  | .ok (.unreadable reason) => .error (.other reason)
  | .ok (.file contents) =>
    match String.fromUTF8? contents with
    | some text => .ok text
    | none => .error .notText

def put (fs : FileSystem) (path : String) (node : FileNode) : FileSystem :=
  { fs with root := FileNode.put node (fs.place path) fs.root }

def remove (fs : FileSystem) (path : String) : FileSystem :=
  { fs with root := FileNode.remove (fs.place path) fs.root }

end FileSystem
end QueryPlan
