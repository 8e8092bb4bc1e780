/-
The next word of a source. Which spellings count as words depends on what is expected: the longest
expected one is taken, and a spelling that is both an expected keyword and an identifier is the
keyword. So a keyword may serve as a name wherever it cannot be meant as a keyword, and `>>` is two
words where only `>` can close a list of type arguments.
-/
import ClassDiagram.Grammar.Automaton
import ClassDiagram.Grammar.Lexicon
import ClassDiagram.Text.Span

namespace ClassDiagram.Grammar

open ClassDiagram.Text

/-- Whether a spelling has the form of an identifier. -/
def isWord (spelling : List Char) : Bool :=
  wordPattern.longest? spelling == some spelling.length

private def spelled : List (Symbol × List Char) :=
  Word.all.map fun w => (.word w, w.spelling.toList)

/-- The words that have the form of an identifier. -/
def keywords : List (Symbol × List Char) := spelled.filter fun (_, s) => isWord s

/-- All other words. -/
def marks : List (Symbol × List Char) := spelled.filter fun (_, s) => !isWord s

/-- The classes of spellings but for the identifiers. -/
def wordClasses : List (Symbol × Pattern) :=
  [Kind.decimalIntegerLiteral, .hexIntegerLiteral, .octalIntegerLiteral, .binaryIntegerLiteral,
   .decimalFloatingPointLiteral, .hexFloatingPointLiteral, .characterLiteral, .stringFragment,
   .textBlockFragment, .plainEscape, .escapeSequence].map fun k => (.kind k, spellings k)

/-- A word of the source. -/
structure Lexeme where
  terminal : Symbol
  span : Span

namespace Lexeme

/-- The keyword or identifier at the beginning of the text, with its length. -/
def wordAt (expected : SymbolSet) (text : List Char) : List (Symbol × Nat) :=
  match wordPattern.longest? text with
  | none => []
  | some n =>
    let word := text.take n
    match keywords.find? fun (t, spelling) => expected.has t && spelling == word with
    | some (t, _) => [(t, n)]
    | none =>
      let identifier := Symbol.kind .identifier
      if expected.has identifier then [(identifier, n)] else []

/-- The expected words at the beginning of the text, with their lengths. -/
def candidates (expected : SymbolSet) (text : List Char) : List (Symbol × Nat) :=
  let spelledOut := marks.filterMap fun (t, spelling) =>
    if expected.has t && spelling.isPrefixOf text then some (t, spelling.length) else none
  let ofClasses := wordClasses.filterMap fun (t, pattern) =>
    if expected.has t then (pattern.longest? text).map (t, ·) else none
  spelledOut ++ wordAt expected text ++ ofClasses

/-- The longest of the candidates, the first one if several are as long. -/
def longestOf : List (Symbol × Nat) → Option (Symbol × Nat)
  | [] => none
  | (t, n) :: rest =>
    match longestOf rest with
    | some (u, m) => if n < m then some (u, m) else some (t, n)
    | none => some (t, n)

/-- Inside a text block only a comment is skipped that reaches further than the text up to the next
quote or backslash. -/
def textBlockGap : Nat → List Char → Nat
  | 0, _ => 0
  | bound + 1, text =>
    let blanks := (text.takeWhile isBlank).length
    match commentAt (text.drop blanks) with
    | none => 0
    | some (_, n) =>
      if ((spellings .textBlockFragment).longest? text).getD 0 < blanks + n then
        blanks + n + textBlockGap bound (text.drop (blanks + n))
      else 0

/-- The characters to skip before the next word: between words blanks and comments, inside a string
nothing. -/
def gapBefore (expected : SymbolSet) (text : List Char) : Nat :=
  if expected.has (.kind .stringFragment) then 0
  else if expected.has (.kind .textBlockFragment) then textBlockGap text.length text
  else gap text

/-- The next word of the text, which begins at `offset`, among those that are expected. -/
def scan (expected : SymbolSet) (offset : Nat) (text : List Char) : Option Lexeme :=
  let skipped := gapBefore expected text
  let start := offset + skipped
  match text.drop skipped with
  | [] => if expected.has .finish then some ⟨.finish, ⟨start, start⟩⟩ else none
  | rest =>
    (longestOf (candidates expected rest)).map fun (t, n) => ⟨t, ⟨start, start + n⟩⟩

end Lexeme

end ClassDiagram.Grammar
