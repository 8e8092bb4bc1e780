/-
Reading JSON. The format is taken strictly: no comments, no trailing commas, no text after the
value, no control characters in strings.
-/
import ClassDiagram.Json.Value

namespace ClassDiagram.Json

/-! ## Blanks and numbers -/

def isBlank (c : Char) : Bool := c == ' ' || c == '\t' || c == '\n' || c == '\r'

def skipBlanks (text : List Char) : List Char := text.dropWhile isBlank

/-- The digits at the beginning of the text, of which there must be one, and the rest. -/
def digits (text : List Char) : Option (List Char × List Char) :=
  match text.takeWhile Char.isDigit with
  | [] => none
  | ds => some (ds, text.dropWhile Char.isDigit)

/-- A whole number: zero, or digits that do not begin with zero. -/
def wholePart (text : List Char) : Option (List Char × List Char) :=
  match text with
  | '0' :: rest => some (['0'], rest)
  | _ => digits text

/-- The point and the digits after it, if there is a point. -/
def fractionPart (text : List Char) : Option (List Char × List Char) :=
  match text with
  | '.' :: rest => (digits rest).map fun (ds, rest) => ('.' :: ds, rest)
  | _ => some ([], text)

/-- The exponent, if there is one. -/
def exponentPart (text : List Char) : Option (List Char × List Char) :=
  match text with
  | e :: rest =>
    if e == 'e' || e == 'E' then
      match rest with
      | sign :: after =>
        if sign == '+' || sign == '-' then
          (digits after).map fun (ds, rest) => (e :: sign :: ds, rest)
        else (digits rest).map fun (ds, rest) => (e :: ds, rest)
      | [] => none
    else some ([], text)
  | [] => some ([], text)

/-- A number at the beginning of the text, and the rest. -/
def readNumber (text : List Char) : Option (Json × List Char) := do
  let (sign, rest) := match text with
    | '-' :: rest => (['-'], rest)
    | _ => ([], text)
  let (whole, rest) ← wholePart rest
  let (fraction, rest) ← fractionPart rest
  let (exponent, rest) ← exponentPart rest
  some (.number (String.ofList (sign ++ whole ++ fraction ++ exponent)), rest)

/-! ## Strings -/

def hexValue (c : Char) : Option Nat :=
  if '0' ≤ c && c ≤ '9' then some (c.toNat - '0'.toNat)
  else if 'a' ≤ c && c ≤ 'f' then some (c.toNat - 'a'.toNat + 10)
  else if 'A' ≤ c && c ≤ 'F' then some (c.toNat - 'A'.toNat + 10)
  else none

/-- Four hexadecimal digits at the beginning of the text, and the rest. -/
def hex4 (text : List Char) : Option (Nat × List Char) :=
  match text with
  | a :: b :: c :: d :: rest => do
    let a ← hexValue a
    let b ← hexValue b
    let c ← hexValue c
    let d ← hexValue d
    some (((a * 16 + b) * 16 + c) * 16 + d, rest)
  | _ => none

/-- A piece of a string: a character, or half of a surrogate pair. -/
inductive Piece
  | char (c : Char)
  | half

def isHighHalf (n : Nat) : Bool := 0xD800 ≤ n && n ≤ 0xDBFF

def isLowHalf (n : Nat) : Bool := 0xDC00 ≤ n && n ≤ 0xDFFF

/-- The character of a surrogate pair. -/
def ofHalves (high low : Nat) : Char :=
  Char.ofNat (0x10000 + (high - 0xD800) * 0x400 + (low - 0xDC00))

/-- What an escape denotes, without its backslash, and the rest. Two escapes that form a surrogate
pair are one piece. -/
def readEscape (text : List Char) : Option (Piece × List Char) :=
  match text with
  | '"' :: rest => some (.char '"', rest)
  | '\\' :: rest => some (.char '\\', rest)
  | '/' :: rest => some (.char '/', rest)
  | 'b' :: rest => some (.char '\x08', rest)
  | 'f' :: rest => some (.char '\x0c', rest)
  | 'n' :: rest => some (.char '\n', rest)
  | 'r' :: rest => some (.char '\r', rest)
  | 't' :: rest => some (.char '\t', rest)
  | 'u' :: rest =>
    match hex4 rest with
    | none => none
    | some (n, rest) =>
      if isHighHalf n then
        match rest with
        | '\\' :: 'u' :: after =>
          match hex4 after with
          | some (m, after) =>
            if isLowHalf m then some (.char (ofHalves n m), after) else some (.half, rest)
          | none => none
        | _ => some (.half, rest)
      else if isLowHalf n then some (.half, rest)
      else some (.char (Char.ofNat n), rest)
  | _ => none

/-- The characters of a string up to its closing quote, and the rest; the first argument bounds
their number. The characters are missing if half of a surrogate pair is among them. -/
def readChars : Nat → List Char → Option (Option (List Char) × List Char)
  | 0, _ => none
  | _ + 1, [] => none
  | bound + 1, c :: rest =>
    if c == '"' then some (some [], rest)
    else if c == '\\' then
      match readEscape rest with
      | none => none
      | some (piece, rest) =>
        (readChars bound rest).map fun (cs, rest) =>
          match piece with
          | .char c => (cs.map (c :: ·), rest)
          | .half => (none, rest)
    else if c.toNat < 0x20 then none
    else (readChars bound rest).map fun (cs, rest) => (cs.map (c :: ·), rest)

/-- The rest of a string after its opening quote, and what follows it. -/
def readString (text : List Char) : Option (Option String × List Char) :=
  (readChars (text.length + 1) text).map fun (cs, rest) => (cs.map String.ofList, rest)

/-! ## Values -/

mutual

/-- A value at the beginning of the text, and the rest. The first argument bounds the number of
steps. -/
def readValue : Nat → List Char → Option (Json × List Char)
  | 0, _ => none
  | fuel + 1, text =>
    match skipBlanks text with
    | 'n' :: 'u' :: 'l' :: 'l' :: rest => some (.null, rest)
    | 't' :: 'r' :: 'u' :: 'e' :: rest => some (.bool true, rest)
    | 'f' :: 'a' :: 'l' :: 's' :: 'e' :: rest => some (.bool false, rest)
    | '"' :: rest => (readString rest).map fun (s, rest) => (.string s, rest)
    | '[' :: rest =>
      match skipBlanks rest with
      | ']' :: rest => some (.array [], rest)
      | _ => (readItems fuel rest).map fun (items, rest) => (.array items, rest)
    | '\x7b' :: rest =>
      match skipBlanks rest with
      | '\x7d' :: rest => some (.object [], rest)
      | _ => (readMembers fuel rest).map fun (members, rest) => (.object members, rest)
    | rest => readNumber rest

/-- The items of an array up to its closing bracket. -/
def readItems : Nat → List Char → Option (List Json × List Char)
  | 0, _ => none
  | fuel + 1, text =>
    match readValue fuel text with
    | none => none
    | some (item, rest) =>
      match skipBlanks rest with
      | ',' :: rest => (readItems fuel rest).map fun (items, rest) => (item :: items, rest)
      | ']' :: rest => some ([item], rest)
      | _ => none

/-- The members of an object up to its closing brace. -/
def readMembers : Nat → List Char → Option (List (Option String × Json) × List Char)
  | 0, _ => none
  | fuel + 1, text =>
    match skipBlanks text with
    | '"' :: rest =>
      match readString rest with
      | none => none
      | some (key, rest) =>
        match skipBlanks rest with
        | ':' :: rest =>
          match readValue fuel rest with
          | none => none
          | some (value, rest) =>
            match skipBlanks rest with
            | ',' :: rest =>
              (readMembers fuel rest).map fun (members, rest) => ((key, value) :: members, rest)
            | '\x7d' :: rest => some ([(key, value)], rest)
            | _ => none
        | _ => none
    | _ => none

end

/-- The value that a text denotes, if it is JSON. -/
def parse? (s : String) : Option Json :=
  let text := s.toList
  match readValue (2 * text.length + 2) text with
  | some (value, rest) => if (skipBlanks rest).isEmpty then some value else none
  | none => none

end ClassDiagram.Json
