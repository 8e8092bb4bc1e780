/-
Writing JSON, on lines with two spaces for each level or all on one line. An empty array or object
takes no space.
-/
import ClassDiagram.Json.Value

namespace ClassDiagram.Json

/-- A hexadecimal digit in lower case. -/
def hexDigit (n : Nat) : Char :=
  if n < 10 then Char.ofNat ('0'.toNat + n) else Char.ofNat ('a'.toNat + n - 10)

/-- How a character is written inside a string. Only quotes, backslashes and control characters are
escaped. -/
def escape (c : Char) : List Char :=
  if c == '"' then ['\\', '"']
  else if c == '\\' then ['\\', '\\']
  else if c == '\x08' then ['\\', 'b']
  else if c == '\x0c' then ['\\', 'f']
  else if c == '\n' then ['\\', 'n']
  else if c == '\r' then ['\\', 'r']
  else if c == '\t' then ['\\', 't']
  else if c.toNat < 0x20 then
    ['\\', 'u', '0', '0', hexDigit (c.toNat / 16), hexDigit (c.toNat % 16)]
  else [c]

/-- A text in quotes. -/
def quoted (s : String) : List Char := '"' :: (s.toList.flatMap escape ++ ['"'])

/-- A string that denotes no text is written as the half of a surrogate pair. -/
def quotedOrHalf : Option String → List Char
  | some s => quoted s
  | none => "\"\\ud800\"".toList

/-- A line break and the blanks of a level. -/
def newline (level : Nat) : List Char := '\n' :: List.replicate (2 * level) ' '

mutual

/-- The value on lines; `level` is how deep it stands. -/
def prettyAt (level : Nat) : Json → List Char
  | .null => "null".toList
  | .bool b => (if b then "true" else "false").toList
  | .number s => s.toList
  | .string s => quotedOrHalf s
  | .array [] => ['[', ']']
  | .array (j :: rest) =>
    '[' :: newline (level + 1) ++ j.prettyAt (level + 1) ++ prettyItems (level + 1) rest ++
      newline level ++ [']']
  | .object [] => ['\x7b', '\x7d']
  | .object ((key, value) :: rest) =>
    '\x7b' :: newline (level + 1) ++ quotedOrHalf key ++ [':', ' '] ++
      value.prettyAt (level + 1) ++ prettyMembers (level + 1) rest ++ newline level ++ ['\x7d']

/-- The items after the first. -/
def prettyItems (level : Nat) : List Json → List Char
  | [] => []
  | j :: rest => ',' :: newline level ++ j.prettyAt level ++ prettyItems level rest

/-- The members after the first. -/
def prettyMembers (level : Nat) : List (Option String × Json) → List Char
  | [] => []
  | (key, value) :: rest =>
    ',' :: newline level ++ quotedOrHalf key ++ [':', ' '] ++ value.prettyAt level ++
      prettyMembers level rest

end

/-- The value on lines. -/
def pretty (j : Json) : String := String.ofList (j.prettyAt 0)

mutual

/-- The characters of the value on one line. -/
def compactChars : Json → List Char
  | .null => "null".toList
  | .bool b => (if b then "true" else "false").toList
  | .number s => s.toList
  | .string s => quotedOrHalf s
  | .array items => '[' :: compactItems items ++ [']']
  | .object members => '\x7b' :: compactMembers members ++ ['\x7d']

def compactItems : List Json → List Char
  | [] => []
  | [j] => j.compactChars
  | j :: rest => j.compactChars ++ ',' :: compactItems rest

def compactMembers : List (Option String × Json) → List Char
  | [] => []
  | [(key, value)] => quotedOrHalf key ++ ':' :: value.compactChars
  | (key, value) :: rest =>
    quotedOrHalf key ++ ':' :: value.compactChars ++ ',' :: compactMembers rest

end

/-- The value on one line. -/
def compact (j : Json) : String := String.ofList j.compactChars

end ClassDiagram.Json
