/-
The keywords and marks of Java, each with its spelling.
-/
namespace ClassDiagram.Grammar

/-- A keyword or a mark. -/
inductive Word
  | quote
  | tripleQuote
  | openInterpolation
  | openParen
  | closeParen
  | openBracket
  | closeBracket
  | openBrace
  | closeBrace
  | semicolon
  | comma
  | dot
  | ellipsis
  | colon
  | colonColon
  | arrow
  | question
  | atSign
  | atInterface
  | assign
  | plusAssign
  | minusAssign
  | timesAssign
  | divideAssign
  | andAssign
  | orAssign
  | xorAssign
  | remainderAssign
  | shiftLeftAssign
  | shiftRightAssign
  | unsignedShiftRightAssign
  | greater
  | less
  | greaterEqual
  | lessEqual
  | equal
  | notEqual
  | andAnd
  | orOr
  | plus
  | minus
  | star
  | slash
  | ampersand
  | bar
  | caret
  | percent
  | shiftLeft
  | shiftRight
  | unsignedShiftRight
  | bang
  | tilde
  | plusPlus
  | minusMinus
  | nonSealedWord
  | underscore
  | abstractWord
  | assertWord
  | booleanWord
  | breakWord
  | byteWord
  | caseWord
  | catchWord
  | charWord
  | classWord
  | continueWord
  | defaultWord
  | doWord
  | doubleWord
  | elseWord
  | enumWord
  | exportsWord
  | extendsWord
  | falseWord
  | finalWord
  | finallyWord
  | floatWord
  | forWord
  | ifWord
  | implementsWord
  | importWord
  | instanceofWord
  | intWord
  | interfaceWord
  | longWord
  | moduleWord
  | nativeWord
  | newWord
  | nullWord
  | openWord
  | opensWord
  | packageWord
  | permitsWord
  | privateWord
  | protectedWord
  | providesWord
  | publicWord
  | recordWord
  | requiresWord
  | returnWord
  | sealedWord
  | shortWord
  | staticWord
  | strictfpWord
  | superWord
  | switchWord
  | synchronizedWord
  | thisWord
  | throwWord
  | throwsWord
  | toWord
  | transientWord
  | transitiveWord
  | trueWord
  | tryWord
  | usesWord
  | voidWord
  | volatileWord
  | whenWord
  | whileWord
  | withWord
  | yieldWord
  deriving DecidableEq, Repr, Inhabited

namespace Word

/-- The number of keywords and marks. -/
def count : Nat := Word.yieldWord.ctorIdx + 1

/-- Every keyword and mark. -/
def all : List Word := (List.range count).map Word.ofNat

/-- How the word is written. -/
def spelling : Word → String
  | quote => "\""
  | tripleQuote => "\"\"\""
  | openInterpolation => "\\\x7b"
  | openParen => "("
  | closeParen => ")"
  | openBracket => "["
  | closeBracket => "]"
  | openBrace => "\x7b"
  | closeBrace => "\x7d"
  | semicolon => ";"
  | comma => ","
  | dot => "."
  | ellipsis => "..."
  | colon => ":"
  | colonColon => "::"
  | arrow => "->"
  | question => "?"
  | atSign => "@"
  | atInterface => "@interface"
  | assign => "="
  | plusAssign => "+="
  | minusAssign => "-="
  | timesAssign => "*="
  | divideAssign => "/="
  | andAssign => "&="
  | orAssign => "|="
  | xorAssign => "^="
  | remainderAssign => "%="
  | shiftLeftAssign => "<<="
  | shiftRightAssign => ">>="
  | unsignedShiftRightAssign => ">>>="
  | greater => ">"
  | less => "<"
  | greaterEqual => ">="
  | lessEqual => "<="
  | equal => "=="
  | notEqual => "!="
  | andAnd => "&&"
  | orOr => "||"
  | plus => "+"
  | minus => "-"
  | star => "*"
  | slash => "/"
  | ampersand => "&"
  | bar => "|"
  | caret => "^"
  | percent => "%"
  | shiftLeft => "<<"
  | shiftRight => ">>"
  | unsignedShiftRight => ">>>"
  | bang => "!"
  | tilde => "~"
  | plusPlus => "++"
  | minusMinus => "--"
  | nonSealedWord => "non-sealed"
  | underscore => "_"
  | abstractWord => "abstract"
  | assertWord => "assert"
  | booleanWord => "boolean"
  | breakWord => "break"
  | byteWord => "byte"
  | caseWord => "case"
  | catchWord => "catch"
  | charWord => "char"
  | classWord => "class"
  | continueWord => "continue"
  | defaultWord => "default"
  | doWord => "do"
  | doubleWord => "double"
  | elseWord => "else"
  | enumWord => "enum"
  | exportsWord => "exports"
  | extendsWord => "extends"
  | falseWord => "false"
  | finalWord => "final"
  | finallyWord => "finally"
  | floatWord => "float"
  | forWord => "for"
  | ifWord => "if"
  | implementsWord => "implements"
  | importWord => "import"
  | instanceofWord => "instanceof"
  | intWord => "int"
  | interfaceWord => "interface"
  | longWord => "long"
  | moduleWord => "module"
  | nativeWord => "native"
  | newWord => "new"
  | nullWord => "null"
  | openWord => "open"
  | opensWord => "opens"
  | packageWord => "package"
  | permitsWord => "permits"
  | privateWord => "private"
  | protectedWord => "protected"
  | providesWord => "provides"
  | publicWord => "public"
  | recordWord => "record"
  | requiresWord => "requires"
  | returnWord => "return"
  | sealedWord => "sealed"
  | shortWord => "short"
  | staticWord => "static"
  | strictfpWord => "strictfp"
  | superWord => "super"
  | switchWord => "switch"
  | synchronizedWord => "synchronized"
  | thisWord => "this"
  | throwWord => "throw"
  | throwsWord => "throws"
  | toWord => "to"
  | transientWord => "transient"
  | transitiveWord => "transitive"
  | trueWord => "true"
  | tryWord => "try"
  | usesWord => "uses"
  | voidWord => "void"
  | volatileWord => "volatile"
  | whenWord => "when"
  | whileWord => "while"
  | withWord => "with"
  | yieldWord => "yield"

end Word

end ClassDiagram.Grammar
