/-
Dotted names such as `java.util.List`: cutting them at a dot and putting a package in front.
-/
namespace ClassDiagram.Text

/-- What stands before and after the first dot, if there is one. -/
def cutFirst : List Char → Option (List Char × List Char)
  | [] => none
  | c :: rest =>
    if c == '.' then some ([], rest)
    else (cutFirst rest).map fun (before, after) => (c :: before, after)

/-- What stands before and after the last dot, if there is one. -/
def cutLast : List Char → Option (List Char × List Char)
  | [] => none
  | c :: rest =>
    match cutLast rest with
    | some (before, after) => some (c :: before, after)
    | none => if c == '.' then some ([], rest) else none

/-- The two parts of a name around its first dot. -/
def splitFirst? (name : String) : Option (String × String) :=
  (cutFirst name.toList).map fun (before, after) => (String.ofList before, String.ofList after)

/-- The two parts of a name around its last dot. -/
def splitLast? (name : String) : Option (String × String) :=
  (cutLast name.toList).map fun (before, after) => (String.ofList before, String.ofList after)

/-- The part of a name after its last dot, which is all of it if it has none. -/
def lastSegment (name : String) : String :=
  match splitLast? name with
  | some (_, after) => after
  | none => name

/-- The name inside a package; the package without a name adds nothing. -/
def qualify (package name : String) : String :=
  if package.isEmpty then name else package ++ "." ++ name

end ClassDiagram.Text
