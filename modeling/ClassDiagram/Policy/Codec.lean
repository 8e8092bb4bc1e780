/-
The JSON form of a policy: the names of the levels for fields and for methods. What is not given is
shown.
-/
import ClassDiagram.Json.Reader
import ClassDiagram.Json.Record
import ClassDiagram.Policy

namespace ClassDiagram

/-- The set of levels that an array of names denotes. -/
def LevelSet.ofJson? (j : Json) : Option LevelSet :=
  (j.list? (Json.named? Visibility.ofName?)).map LevelSet.ofList

/-- The set for a field of a policy, which is full if nothing is given. -/
def LevelSet.ofField? : Option Json → Option LevelSet
  | none => some LevelSet.full
  | some j => LevelSet.ofJson? j

namespace Policy

def ofJson? (j : Json) : Option Policy := do
  match ← j.fields? ["field_visibility", "method_visibility"] true with
  | [fields, methods] =>
    some { fields := ← LevelSet.ofField? fields, methods := ← LevelSet.ofField? methods }
  | _ => none

/-- The policy that a text denotes. -/
def parse? (s : String) : Option Policy := (Json.parse? s).bind ofJson?

end Policy

end ClassDiagram
