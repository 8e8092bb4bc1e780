/-
Records and names in JSON. A record is an object with a member for each field, where other members
are passed over, or an array of the field values in order. A name out of a closed list is a string,
or an object with the name as its only key and null as its value.
-/
import ClassDiagram.Json.Value

namespace ClassDiagram.Json

/-- The value of a field in an object. A field may be absent but not repeated. -/
def member? (members : List (Option String × Json)) (field : String) : Option (Option Json) :=
  match members.filter fun m => m.1 == some field with
  | [] => some none
  | [(_, value)] => some (some value)
  | _ => none

/-- The values of the fields of a record, as far as they are given. All keys of an object must
denote texts. An array gives all fields, unless `lenient` allows it to give fewer; it never gives
more. -/
def fields? (names : List String) (lenient : Bool) : Json → Option (List (Option Json))
  | .object members =>
    if members.all fun m => m.1.isSome then names.mapM (member? members) else none
  | .array items =>
    if items.length == names.length || (lenient && items.length < names.length) then
      some (items.map some ++ List.replicate (names.length - items.length) none)
    else none
  | _ => none

/-- The member of a closed list that a value names. -/
def named? {α : Type} (ofName? : String → Option α) : Json → Option α
  | .string (some s) => ofName? s
  | .object [(some s, .null)] => ofName? s
  | _ => none

/-- The items of an array, each of them read. -/
def list? {α : Type} (read? : Json → Option α) : Json → Option (List α)
  | .array items => items.mapM read?
  | _ => none

end ClassDiagram.Json
