/-
JSON values. A string may be written with an escape for half of a surrogate pair, which denotes no
text: such a string has no characters to speak of, and the value is kept only to be passed over.
-/
namespace ClassDiagram

inductive Json
  | null
  | bool (b : Bool)
  /-- A number as it is written. -/
  | number (digits : String)
  | string (s : Option String)
  | array (items : List Json)
  | object (members : List (Option String × Json))
  deriving Inhabited

namespace Json

def text (s : String) : Json := .string (some s)

def ofNat (n : Nat) : Json := .number (toString n)

/-- An object with the given members. -/
def record (members : List (String × Json)) : Json :=
  .object (members.map fun (key, value) => (some key, value))

/-- A text or null. -/
def ofOption : Option String → Json
  | some s => text s
  | none => .null

def texts (ss : List String) : Json := .array (ss.map text)

/-- The value of a key; the last one if the key is repeated. -/
def get? (key : String) : Json → Option Json
  | .object members => ((members.filter fun m => m.1 == some key).getLast?).map (·.2)
  | _ => none

def text? : Json → Option String
  | .string s => s
  | _ => none

def bool? : Json → Option Bool
  | .bool b => some b
  | _ => none

def items? : Json → Option (List Json)
  | .array items => some items
  | _ => none

mutual

/-- The value with one member for each key, the last one. -/
def merged : Json → Json
  | .array items => .array (mergedItems items)
  | .object members => .object (mergedMembers members)
  | j => j

def mergedItems : List Json → List Json
  | [] => []
  | j :: rest => j.merged :: mergedItems rest

def mergedMembers : List (Option String × Json) → List (Option String × Json)
  | [] => []
  | (key, value) :: rest =>
    let after := mergedMembers rest
    if after.any (·.1 == key) then after else (key, value.merged) :: after

end

end Json

end ClassDiagram
