/-
Places in a source. A position counts characters from the beginning of the text. People are told a
line and a column: lines end with a line feed, and columns count the bytes of the UTF-8 form.
-/
namespace ClassDiagram.Text

/-- A stretch of the source; `stop` is the first position after it. -/
structure Span where
  start : Nat
  stop : Nat
  deriving DecidableEq, Repr, Inhabited

/-- The text of a stretch. -/
def slice (text : List Char) (s : Span) : String :=
  String.ofList ((text.drop s.start).take (s.stop - s.start))

/-- The number of bytes of a text in UTF-8. -/
def byteLength : List Char → Nat
  | [] => 0
  | c :: rest => c.utf8Size + byteLength rest

/-- The line of a position, counted from one. -/
def lineAt (text : List Char) (position : Nat) : Nat :=
  (text.take position).count '\n' + 1

/-- The column of a position in bytes, counted from one. -/
def columnAt (text : List Char) (position : Nat) : Nat :=
  byteLength ((text.take position).reverse.takeWhile (· != '\n')) + 1

end ClassDiagram.Text
