/-
The content of a class diagram: classifiers with their attributes and operations, and the relations
between them. Everything keeps the order in which it was found, and nothing is merged: what is
declared twice appears twice.
-/
import ClassDiagram.Text.Dotted
import ClassDiagram.Visibility

namespace ClassDiagram

open ClassDiagram.Text

inductive ClassifierKind
  | plainClass
  | abstractClass
  | interfaceType
  deriving DecidableEq, Repr, Inhabited

namespace ClassifierKind

def all : List ClassifierKind := [plainClass, abstractClass, interfaceType]

def name : ClassifierKind → String
  | plainClass => "class"
  | abstractClass => "abstract class"
  | interfaceType => "interface"

def ofName? (s : String) : Option ClassifierKind := all.find? (·.name == s)

end ClassifierKind

/-- A field in the diagram. -/
structure Attribute where
  /-- None if the declaration has no visibility keyword. -/
  visibility : Option Visibility
  isStatic : Bool
  /-- The type as written. -/
  typeName : String
  name : String
  deriving DecidableEq, Repr

/-- A method in the diagram. -/
structure Operation where
  visibility : Option Visibility
  isStatic : Bool
  isAbstract : Bool
  /-- The return type as written. -/
  returnType : String
  name : String
  /-- The parameter types in order. -/
  params : List String
  deriving DecidableEq, Repr

/-- A class or interface in the diagram. -/
structure Classifier where
  packageName : String
  /-- The names of the enclosing declarations and the own name, with dots between them. -/
  name : String
  kind : ClassifierKind
  attributes : List Attribute
  operations : List Operation
  deriving DecidableEq, Repr

namespace Classifier

/-- The name with its package. -/
def fullName (c : Classifier) : String := qualify c.packageName c.name

/-- The last segment of the name. -/
def simpleName (c : Classifier) : String := lastSegment c.name

end Classifier

inductive RelationKind
  /-- The source is an interface that the target implements. -/
  | realizes
  /-- The source is a type that the target extends. -/
  | generalizes
  /-- The source encloses the target. -/
  | owns
  deriving DecidableEq, Repr, Inhabited

namespace RelationKind

def all : List RelationKind := [realizes, generalizes, owns]

def name : RelationKind → String
  | realizes => "realizes"
  | generalizes => "generalizes"
  | owns => "owns"

def ofName? (s : String) : Option RelationKind := all.find? (·.name == s)

end RelationKind

/-- A relation between two full names. -/
structure Relation where
  source : String
  target : String
  kind : RelationKind
  deriving DecidableEq, Repr

structure View where
  classifiers : List Classifier := []
  relations : List Relation := []
  deriving DecidableEq, Repr

namespace View

def addClassifier (v : View) (c : Classifier) : View :=
  { v with classifiers := v.classifiers ++ [c] }

def addRelation (v : View) (r : Relation) : View := { v with relations := v.relations ++ [r] }

/-- All of one view, then all of the other. -/
def append (v w : View) : View :=
  ⟨v.classifiers ++ w.classifiers, v.relations ++ w.relations⟩

/-- The first classifier with this name, package left aside. -/
def find? (v : View) (name : String) : Option Classifier :=
  v.classifiers.find? (·.name == name)

def relationsOfKind (v : View) (kind : RelationKind) : List Relation :=
  v.relations.filter (·.kind == kind)

def isEmpty (v : View) : Bool := v.classifiers.isEmpty && v.relations.isEmpty

end View

end ClassDiagram
