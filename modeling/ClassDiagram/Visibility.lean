/-
Visibility levels. Java has three keywords for them; a member without one is visible in its package,
which diagrams call the default.
-/
import ClassDiagram.Text.Blank

namespace ClassDiagram

inductive Visibility
  | publicAccess
  | protectedAccess
  | privateAccess
  /-- No keyword: visible in the package. -/
  | packageAccess
  deriving DecidableEq, Repr, Inhabited

namespace Visibility

open ClassDiagram.Text

/-- Every level, in the order in which diagrams list them. -/
def all : List Visibility := [publicAccess, protectedAccess, privateAccess, packageAccess]

/-- The name of a level. -/
def name : Visibility → String
  | publicAccess => "public"
  | protectedAccess => "protected"
  | privateAccess => "private"
  | packageAccess => "default"

/-- The level with exactly this name. -/
def ofName? (s : String) : Option Visibility := all.find? (·.name == s)

/-- The level that a modifier denotes; none for modifiers that are no visibility keywords. White
space around the keyword is ignored. -/
def ofModifier? (modifier : String) : Option Visibility :=
  [publicAccess, protectedAccess, privateAccess].find? (·.name == trim modifier)

/-- The first level among the modifiers. -/
def ofModifiers? (modifiers : List String) : Option Visibility := modifiers.findSome? ofModifier?

/-- The level that a setting denotes: a keyword, `default` or `package`. -/
def ofSetting? (s : String) : Option Visibility :=
  if trim s == "default" || trim s == "package" then some packageAccess else ofModifier? (trim s)

end Visibility

end ClassDiagram
