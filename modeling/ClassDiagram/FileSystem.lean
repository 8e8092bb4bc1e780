/-
Reading the text of a file. Where the bytes of a file come from is left open: a file system is whatever
answers a path with bytes or with an error. One that is kept in memory is a case of it.
-/
import ClassDiagram.Fault
import ClassDiagram.Path

namespace ClassDiagram

/-- A file system, as far as reading goes: the content of the file at a path, or why there is none. -/
structure FileSystem where
  read : String → Except ReadError ByteArray

/-- The text of a file, which has to be UTF-8. -/
def FileSystem.readText (files : FileSystem) (path : String) : Except ReadError String :=
  match files.read path with
  | .error e => .error e
  | .ok content =>
    match String.fromUTF8? content with
    | some text => .ok text
    | none => .error .invalidData

/-! ## Files in memory -/

inductive DiskEntry
  | file (content : ByteArray)
  /-- A file that may not be read. -/
  | guarded
  | directory

/-- Entries by their components from the root. The directories above an entry are there with it. -/
structure Disk where
  entries : List (List String × DiskEntry) := []
  /-- Where a path starts that does not start at the root. -/
  workingDirectory : List String := []

namespace Disk

/-- Where a path starts. -/
def origin (d : Disk) (path : String) : List String :=
  if path.toList.head? == some '/' then [] else d.workingDirectory

/-- Adds an entry; an earlier one at the same place is replaced. -/
def add (d : Disk) (path : String) (entry : DiskEntry) : Disk :=
  { d with entries := (d.origin path ++ Path.components path, entry) :: d.entries }

/-- What is found at a place. -/
def lookup? (d : Disk) (place : List String) : Option DiskEntry :=
  match d.entries.find? (·.1 == place) with
  | some (_, entry) => some entry
  | none =>
    if place.isPrefixOf d.workingDirectory || d.entries.any fun e => place.isPrefixOf e.1 then
      some .directory
    else none

/-- Follows the pieces of a path from a place that is there. Only directories can be passed, and above
the root is the root. -/
def walk (d : Disk) (place : List String) (entry : DiskEntry) :
    List String → Except ReadError DiskEntry
  | [] => .ok entry
  | piece :: rest =>
    match entry with
    | .directory =>
      if piece == "" || piece == "." then d.walk place .directory rest
      else if piece == ".." then d.walk place.dropLast .directory rest
      else
        let inside := place ++ [piece]
        match d.lookup? inside with
        | some found => d.walk inside found rest
        | none => .error .notFound
    | _ => .error .notADirectory

/-- The content of the file at a path. -/
def content (d : Disk) (path : String) : Except ReadError ByteArray :=
  if path.isEmpty then .error .notFound
  else
    match d.walk (d.origin path) .directory ((Path.pieces path.toList).map String.ofList) with
    | .error e => .error e
    | .ok .directory => .error .isADirectory
    | .ok .guarded => .error .permissionDenied
    | .ok (.file content) => .ok content

def fileSystem (d : Disk) : FileSystem := ⟨d.content⟩

end Disk

end ClassDiagram
