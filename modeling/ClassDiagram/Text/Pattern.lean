/-
Regular patterns over characters, and the longest match of a pattern at the beginning of a text.
A pattern is followed through the text by its derivatives: what is left of it after a character.
-/
namespace ClassDiagram.Text

inductive Pattern
  /-- Matches nothing. -/
  | never
  /-- Matches the empty text. -/
  | blank
  | one (test : Char → Bool)
  | seq (first second : Pattern)
  | alt (left right : Pattern)
  | star (p : Pattern)

namespace Pattern

def isNever : Pattern → Bool
  | never => true
  | _ => false

/-- Whether the empty text matches. -/
def acceptsEmpty : Pattern → Bool
  | never | one _ => false
  | blank | star _ => true
  | seq a b => a.acceptsEmpty && b.acceptsEmpty
  | alt a b => a.acceptsEmpty || b.acceptsEmpty

/-- `seq` with the trivial cases simplified. -/
def andThen : Pattern → Pattern → Pattern
  | never, _ => never
  | blank, b => b
  | a, b => if b.isNever then never else seq a b

/-- `alt` with the trivial cases simplified. -/
def orElse : Pattern → Pattern → Pattern
  | never, b => b
  | a, b => if b.isNever then a else alt a b

/-- What is left to match after the character. -/
def derivative (c : Char) : Pattern → Pattern
  | never | blank => never
  | one test => if test c then blank else never
  | seq a b =>
    let through := (a.derivative c).andThen b
    if a.acceptsEmpty then through.orElse (b.derivative c) else through
  | alt a b => (a.derivative c).orElse (b.derivative c)
  | star p => (p.derivative c).andThen (star p)

/-- The length of the longest match, where `taken` characters have been matched so far and `best`
is the longest match among their beginnings. -/
def longestFrom (p : Pattern) (taken : Nat) (best : Option Nat) : List Char → Option Nat
  | [] => best
  | c :: rest =>
    let next := p.derivative c
    if next.isNever then best
    else next.longestFrom (taken + 1) (if next.acceptsEmpty then some (taken + 1) else best) rest

/-- The length of the longest beginning of the text that matches, if one does that is not empty. -/
def longest? (p : Pattern) (text : List Char) : Option Nat := p.longestFrom 0 none text

/-! ## Patterns made of others -/

def char (c : Char) : Pattern := one (· == c)

def anyOf (cs : String) : Pattern := one fun c => cs.toList.contains c

def noneOf (cs : String) : Pattern := one fun c => !cs.toList.contains c

def all : List Pattern → Pattern
  | [] => blank
  | [p] => p
  | p :: rest => seq p (all rest)

def any : List Pattern → Pattern
  | [] => never
  | [p] => p
  | p :: rest => alt p (any rest)

/-- The characters of the text, one after the other. -/
def text (s : String) : Pattern := all (s.toList.map char)

def opt (p : Pattern) : Pattern := alt p blank

def plus (p : Pattern) : Pattern := seq p (star p)

/-- One or more, with a separator between two of them. -/
def sepBy1 (p separator : Pattern) : Pattern := seq p (star (seq separator p))

end Pattern

end ClassDiagram.Text
