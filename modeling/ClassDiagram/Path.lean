/-
Paths with `/` between their components, and the extension of a file name.
-/
import ClassDiagram.Text.Dotted

namespace ClassDiagram.Path

open ClassDiagram.Text

/-- The pieces between the slashes. -/
def pieces : List Char → List (List Char)
  | [] => [[]]
  | c :: rest =>
    if c == '/' then [] :: pieces rest
    else match pieces rest with
      | [] => [[c]]
      | piece :: others => (c :: piece) :: others

/-- The components of a path. Empty pieces and pieces of one dot say nothing. -/
def components (path : String) : List String :=
  ((pieces path.toList).map String.ofList).filter fun piece => piece != "" && piece != "."

/-- The last component, unless it leads upwards. -/
def fileName? (path : String) : Option String :=
  match (components path).getLast? with
  | some ".." => none
  | last => last

/-- What follows the last dot of the file name, unless that dot opens the name. -/
def extension? (path : String) : Option String :=
  (fileName? path).bind fun name =>
    match splitLast? name with
    | some ("", _) => none
    | some (_, extension) => some extension
    | none => none

end ClassDiagram.Path
