/-! # Paths

A path is a text whose names are held apart by slashes. Two spellings of one path have the
same components. -/
namespace QueryPlan.Path

/-- The pieces of a text between slashes, empty ones included. -/
def splitChars : List Char → List (List Char)
  | [] => [[]]
  | c :: rest =>
    if c = '/' then [] :: splitChars rest
    else match splitChars rest with
      | [] => [[c]]
      | part :: parts => (c :: part) :: parts

def parts (path : String) : List String := (splitChars path.toList).map String.ofList

def isAbsolute (path : String) : Bool := path.toList.head? == some '/'

/-- A part that names no entry of a directory. -/
def isIdle (part : String) : Bool := part == "" || part == "."

/-- The root and a leading dot count as components; repeated slashes, a slash at the end and
every other dot do not. -/
def components (path : String) : List String :=
  let names := (parts path).filter fun part => !isIdle part
  if isAbsolute path then "/" :: names
  else if (parts path).head? == some "." then "." :: names else names

/-- A name inside a directory. -/
def join (directory name : String) : String :=
  if directory.isEmpty || directory.toList.getLast? == some '/' then directory ++ name
  else directory ++ "/" ++ name

/-- How many bytes a path may have. -/
def maxBytes : Nat := 4095

/-- A path that is too long leads nowhere. -/
def fits (path : String) : Bool := path.utf8ByteSize ≤ maxBytes

/-- How many bytes the name of an entry may have. -/
def maxNameBytes : Nat := 255

/-- The name of an entry before its last dot and what stands after it. A dot at the start
separates nothing. -/
def splitName (name : String) : String × Option String :=
  let reversed := name.toList.reverse
  let tail := reversed.takeWhile (· ≠ '.')
  match reversed.drop tail.length with
  | [] => (name,none)
  | _ :: before =>
    if before.isEmpty then (name,none)
    else (String.ofList before.reverse,some (String.ofList tail.reverse))

def stem (name : String) : String := (splitName name).1

def extension? (name : String) : Option String := (splitName name).2

end QueryPlan.Path
