/-
The characters of an identifier: a letter in the sense of Unicode, `_` or `$` opens one, and
marks, digits and the cent sign may follow.
-/
import ClassDiagram.Text.IdentifierRanges

namespace ClassDiagram.Text

/-- Whether a code point lies in one of the ranges, which stand in increasing order. -/
def inRanges (n : Nat) : List (Nat × Nat) → Bool
  | [] => false
  | (low, high) :: rest => if n < low then false else n ≤ high || inRanges n rest

def isIdentifierStart (c : Char) : Bool :=
  c == '_' || c == '$' || inRanges c.toNat identifierStarts

def isIdentifierPart (c : Char) : Bool :=
  isIdentifierStart c || c == '¢' || inRanges c.toNat identifierContinues

end ClassDiagram.Text
