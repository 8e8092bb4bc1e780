/-
Which members a diagram shows: a set of visibility levels for fields and one for methods.
-/
import ClassDiagram.Visibility

namespace ClassDiagram

/-- A set of visibility levels. -/
abbrev LevelSet := Visibility → Bool

namespace LevelSet

def ofList (levels : List Visibility) : LevelSet := fun v => levels.contains v

def full : LevelSet := fun _ => true

/-- The members of the set in the order in which diagrams list them. -/
def toList (s : LevelSet) : List Visibility := Visibility.all.filter s

end LevelSet

structure Policy where
  /-- The levels of the fields that are shown. -/
  fields : LevelSet := LevelSet.full
  /-- The levels of the methods that are shown. -/
  methods : LevelSet := LevelSet.full

namespace Policy

/-- A field without a visibility keyword counts as visible in its package. -/
def includesField (p : Policy) (v : Option Visibility) : Bool := p.fields (v.getD .packageAccess)

/-- A method without a visibility keyword counts as visible in its package. -/
def includesMethod (p : Policy) (v : Option Visibility) : Bool :=
  p.methods (v.getD .packageAccess)

end Policy

end ClassDiagram
