/-
The spellings of words, and what may stand between them. A word class is given by a pattern. Blanks
are the space and the five control characters that move the cursor; every other character is text.
-/
import ClassDiagram.Grammar.Kind
import ClassDiagram.Text.Identifier
import ClassDiagram.Text.Pattern

namespace ClassDiagram.Grammar

open ClassDiagram.Text ClassDiagram.Text.Pattern

/-! ## Numbers -/

private def digit : Pattern := one Char.isDigit

private def hexDigit : Pattern :=
  one fun c => c.isDigit || ('a' ≤ c && c ≤ 'f') || ('A' ≤ c && c ≤ 'F')

private def octalDigit : Pattern := one fun c => '0' ≤ c && c ≤ '7'

/-- Digits without a leading zero, in groups. -/
private def digits : Pattern :=
  any [char '0',
    all [one fun c => '1' ≤ c && c ≤ '9',
      opt (all [opt (char '_'), sepBy1 (plus digit) (plus (char '_'))])]]

private def decimalDigits : Pattern := sepBy1 (plus digit) (char '_')

private def hexDigits : Pattern := sepBy1 (plus hexDigit) (char '_')

private def longSuffix : Pattern := opt (anyOf "lL")

private def floatSuffix : Pattern := anyOf "fFdD"

private def exponent : Pattern := all [anyOf "eE", opt (anyOf "-+"), decimalDigits]

private def hexMark : Pattern := any [text "0x", text "0X"]

/-! ## Words -/

/-- A letter and what may follow it. Keywords have this form as well. -/
def wordPattern : Pattern := seq (one isIdentifierStart) (star (one isIdentifierPart))

private def escapedHex : Pattern := any [
  all [char 'x', hexDigit, hexDigit],
  all [char 'u', hexDigit, hexDigit, hexDigit, hexDigit],
  all [char 'u', char '\x7b', plus hexDigit, char '\x7d']]

/-- A comment from two slashes to the end of the line. -/
def lineCommentPattern : Pattern := seq (text "//") (star (noneOf "\n"))

/-- A comment from a slash and a star to the next star and slash. -/
def blockCommentPattern : Pattern :=
  all [text "/*", star (noneOf "*"), plus (char '*'),
    star (all [noneOf "/*", star (noneOf "*"), plus (char '*')]), char '/']

/-- The spellings of a class of words; nothing for a phrase that is made of words. -/
def spellings : Kind → Pattern
  | .decimalIntegerLiteral => seq digits longSuffix
  | .hexIntegerLiteral => all [hexMark, hexDigits, longSuffix]
  | .octalIntegerLiteral =>
    all [any [text "0o", text "0O", char '0'], sepBy1 (plus octalDigit) (char '_'), longSuffix]
  | .binaryIntegerLiteral =>
    all [any [text "0b", text "0B"], sepBy1 (plus (anyOf "01")) (char '_'), longSuffix]
  | .decimalFloatingPointLiteral => any [
      all [decimalDigits, char '.', opt decimalDigits, opt exponent, opt floatSuffix],
      all [char '.', decimalDigits, opt exponent, opt floatSuffix],
      all [digits, exponent, opt floatSuffix],
      all [digits, opt exponent, floatSuffix]]
  | .hexFloatingPointLiteral =>
    all [hexMark,
      any [all [hexDigits, opt (char '.')], all [opt hexDigits, char '.', hexDigits]],
      opt (all [anyOf "pP", opt (anyOf "-+"), digits, opt floatSuffix])]
  | .characterLiteral =>
    all [char '\x27',
      plus (any [noneOf "\\\x27\n", seq (char '\\') (noneOf "\n"), text "\\\n"]),
      char '\x27']
  | .stringFragment => plus (noneOf "\"\\")
  | .textBlockFragment =>
    any [plus (noneOf "\"\\"),
      seq (char '"') (star (any [noneOf "\"\\", text "\\\""]))]
  | .plainEscape => seq (char '\\') (noneOf "bfnrts\x27\"\\")
  | .escapeSequence =>
    seq (char '\\') (any [
      noneOf "xu01234567", octalDigit, all [octalDigit, octalDigit],
      all [octalDigit, octalDigit, octalDigit], escapedHex])
  | .identifier => wordPattern
  | .lineComment => lineCommentPattern
  | .blockComment => blockCommentPattern
  | _ => never

/-! ## Between words -/

/-- A character that separates words and has no other meaning. -/
def isBlank (c : Char) : Bool :=
  c == ' ' || c == '\t' || c == '\n' || c == '\x0b' || c == '\x0c' || c == '\r'

/-- A comment at the beginning of the text, with its length. -/
def commentAt (text : List Char) : Option (Kind × Nat) :=
  match text with
  | '/' :: '/' :: _ => (lineCommentPattern.longest? text).map (.lineComment, ·)
  | '/' :: '*' :: _ => (blockCommentPattern.longest? text).map (.blockComment, ·)
  | _ => none

/-- The number of characters before the next word; the first argument bounds the number of blanks
and comments. -/
def gapFrom : Nat → List Char → Nat
  | 0, _ => 0
  | _ + 1, [] => 0
  | bound + 1, c :: rest =>
    if isBlank c then 1 + gapFrom bound rest
    else match commentAt (c :: rest) with
      | some (_, n) => n + gapFrom bound ((c :: rest).drop n)
      | none => 0

/-- The number of characters that blanks and comments take at the beginning of the text. -/
def gap (text : List Char) : Nat := gapFrom text.length text

/-- The number of characters up to the end of the last comment before the next word; the first
argument bounds the number of comments. -/
def commentedFrom : Nat → List Char → Nat
  | 0, _ => 0
  | bound + 1, text =>
    let blanks := (text.takeWhile isBlank).length
    match commentAt (text.drop blanks) with
    | some (_, n) => blanks + n + commentedFrom bound (text.drop (blanks + n))
    | none => 0

/-- The number of characters up to the end of the last comment before the next word, none if there
is no comment. -/
def commented (text : List Char) : Nat := commentedFrom text.length text

end ClassDiagram.Grammar
