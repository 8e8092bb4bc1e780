/-
Grammar rules as data. A rule is an expression over words and phrases whose parts may carry a role;
each phrase has alternatives, which carry the precedence that settles a choice between reading on
and closing the phrase.
-/
import ClassDiagram.Grammar.Kind
import ClassDiagram.Grammar.Word

namespace ClassDiagram.Grammar

/-- What a source consists of. A kind without alternatives in the grammar is a class of spellings,
and such a kind, a word and the end of the source are terminals. -/
inductive Symbol
  | word (w : Word)
  | kind (k : Kind)
  /-- The end of the source. -/
  | finish
  deriving DecidableEq, Repr, Inhabited

namespace Symbol

/-- The number of a symbol: the words come first, then the kinds, then the end of the source. -/
def index : Symbol → Nat
  | word w => w.ctorIdx
  | kind k => Word.count + k.ctorIdx
  | finish => Word.count + Kind.count

def count : Nat := Word.count + Kind.count + 1

/-- Every symbol, in the order of the numbers. -/
def all : List Symbol := Word.all.map word ++ Kind.all.map kind ++ [finish]

end Symbol

inductive Rule
  | empty
  | symbol (s : Symbol)
  | seq (first second : Rule)
  | choice (left right : Rule)
  /-- The parts play this role in the phrase. -/
  | role (role : Role) (r : Rule)
  /-- The word is shown in the tree as a word of this kind. -/
  | shownAs (k : Kind) (r : Rule)
  deriving DecidableEq, Inhabited

/-- How a row of operators of one precedence groups. -/
inductive Side
  | left
  | right
  deriving DecidableEq, Repr

/-- One form of a phrase. -/
structure Alternative where
  body : Rule
  /-- Binds tighter than alternatives of a lower level. -/
  level : Int := 0
  side : Option Side := none
  /-- Of two readings of a text, the one with more weight is preferred. -/
  weight : Int := 0

namespace Rule

/-- A keyword or a mark. -/
def word (w : Word) : Rule := .symbol (.word w)

/-- A phrase, or a word of a class. -/
def sub (k : Kind) : Rule := .symbol (.kind k)

/-- The parts one after the other. -/
def all : List Rule → Rule
  | [] => .empty
  | [r] => r
  | r :: rest => .seq r (all rest)

/-- One of the forms. -/
def any : List Rule → Rule
  | [] => .empty
  | [r] => r
  | r :: rest => .choice r (any rest)

def opt (r : Rule) : Rule := .choice r .empty

/-- A run of phrases that may be absent. -/
def maybe (k : Kind) : Rule := opt (sub k)

/-- One of the words. -/
def anyWord (ws : List Word) : Rule := any (ws.map word)

/-- The body of a run of one or more: an item, or the run so far and an item. -/
def run (self : Kind) (item : Rule) : Rule := .choice item (.seq (sub self) item)

/-- An item and perhaps a run of further ones, which brings its separators along. -/
def andFurther (item : Rule) (further : Kind) : Rule := .seq item (maybe further)

end Rule

end ClassDiagram.Grammar
