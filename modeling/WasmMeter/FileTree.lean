import WasmMeter.FileAccess

/-!
Files held in memory. What a run leaves behind is stated for these. Paths are followed name by name, and
only a directory leads on: a path through a file or through nothing is refused even where two dots would
lead back out of it.
-/
namespace WasmMeter

/-- A path taken apart. A slash at its end asks for a directory. -/
structure Path where
  isAbsolute : Bool
  names : List String
  endsInSlash : Bool
deriving DecidableEq, Repr

namespace Path

/-- The most bytes that a path and one of its names can have. -/
def longest : Nat := 4095

def longestName : Nat := 255

/-- The path that a text stands for. Slashes in a row count as one. -/
def ofText (text : String) : Except FileError Path :=
  if text.isEmpty then throw .missing
  else if longest < text.utf8ByteSize then throw .nameTooLong
  else return ⟨text.startsWith "/", (text.splitOn "/").filter (!·.isEmpty), text.endsWith "/"⟩

/-- The directory that the last name of a path is in. -/
def parent (path : Path) : Path := { path with names := path.names.dropLast ++ ["."] }

end Path

/-- Files with their contents, and directories. Each has a place, which is the names that lead to it
from the root. Relative paths start in the current directory. -/
structure FileTree where
  files : List (List String × List UInt8)
  directories : List (List String)
  current : List String
deriving DecidableEq, Repr

namespace FileTree

/-- What stands at a place. -/
inductive Node where
  | file (bytes : List UInt8)
  | directory
deriving DecidableEq, Repr

/-- What stands at a place, if anything does. Whatever leads on to something is a directory. -/
def find? (t : FileTree) (place : List String) : Option Node :=
  match t.files.lookup place with
  | some bytes => some (.file bytes)
  | none =>
      if (t.current :: t.directories ++ t.files.map (·.1)).any place.isPrefixOf then
        some .directory
      else none

/-- The place one name further. A dot stays, and two dots go back, in the root nowhere. -/
def step (t : FileTree) (place : List String) (name : String) :
    Except FileError (List String) :=
  match t.find? place with
  | none => throw .missing
  | some (.file _) => throw .notADirectory
  | some .directory =>
      match name with
      | "." => return place
      | ".." => return place.dropLast
      | name =>
          if Path.longestName < name.utf8ByteSize then throw .nameTooLong
          else return place ++ [name]

/-- The place that a path leads to, whether or not something stands there. -/
def follow (t : FileTree) (path : Path) : Except FileError (List String) :=
  path.names.foldlM t.step (if path.isAbsolute then [] else t.current)

/-- The contents of the file that a path leads to. -/
def read (t : FileTree) (text : String) : Except FileError (List UInt8) := do
  let path ← Path.ofText text
  match t.find? (← t.follow path) with
  | none => throw .missing
  | some .directory => throw .isADirectory
  | some (.file bytes) => if path.endsInSlash then throw .notADirectory else return bytes

/-- Puts a file at a place, where it replaces the file that is there. -/
def put (t : FileTree) (place : List String) (bytes : List UInt8) : FileTree :=
  { t with files := (place, bytes) :: t.files.filter (·.1 ≠ place) }

/-- Writes the file that a path leads to. The last name of a path that asks for a directory is not
looked at, for a directory cannot be written. -/
def write (t : FileTree) (text : String) (bytes : List UInt8) : Except FileError FileTree := do
  let path ← Path.ofText text
  let place ← t.follow (if path.endsInSlash then path.parent else path)
  if t.find? place = some .directory then throw .isADirectory
  else return t.put place bytes

/-- The tree as the files of a run. -/
def access : FileAccess (StateM FileTree) where
  read text := return (← get).read text
  write text bytes := do
    match (← get).write text bytes with
    | .ok t =>
        set t
        return .ok ()
    | .error e => return .error e

end FileTree

end WasmMeter
