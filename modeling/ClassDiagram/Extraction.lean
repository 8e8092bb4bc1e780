/-
From the declarations of a source to a diagram. The declarations are visited in order, each before
those inside it; a visit appends what it finds to a sketch, which is a view together with the events
that tell how it came about.
-/
import ClassDiagram.Event
import ClassDiagram.Imports
import ClassDiagram.Policy

namespace ClassDiagram

open ClassDiagram.Text

/-- A view in the making and the log of its making. -/
structure Sketch where
  view : View := {}
  log : List Event := []

namespace Sketch

def note (s : Sketch) (e : Event) : Sketch := { s with log := s.log ++ [e] }

def addClassifier (s : Sketch) (c : Classifier) : Sketch :=
  { s with view := s.view.addClassifier c }

def addRelation (s : Sketch) (r : Relation) : Sketch := { s with view := s.view.addRelation r }

end Sketch

/-- What is the same for all declarations of a source: the package it belongs to and the members
that are shown. -/
structure Extractor where
  package : String
  policy : Policy

/-! ## One declaration -/

/-- An interface, or a class, which is abstract if it says so. -/
def Header.classifierKind (h : Header) : ClassifierKind :=
  if h.isInterface then .interfaceType
  else if h.hasModifier "abstract" then .abstractClass
  else .plainClass

/-- The attribute of a field. Of several variables only the first is shown. -/
def FieldDeclaration.attribute? (f : FieldDeclaration) : Option Attribute :=
  f.declared.head?.map fun v =>
    { visibility := Visibility.ofModifiers? f.modifiers, isStatic := f.isStatic,
      typeName := v.typeName, name := v.name }

/-- The operation of a method. -/
def MethodDeclaration.operation (m : MethodDeclaration) : Operation :=
  { visibility := Visibility.ofModifiers? m.modifiers, isStatic := m.isStatic,
    isAbstract := m.isAbstract, returnType := m.returnType, name := m.name,
    params := m.parameters.map (·.typeName) }

/-- The name of a declaration in the source, and the name of what owns it if anything does. -/
structure Identity where
  qualifiedName : String
  owner : Option String := none

/-- Walks outwards through the declarations around one, the innermost first, and puts their names in
front of what is found so far. The outermost one stands directly in the source: there the owner is the
name without its last segment. -/
def Identity.walk (found : Identity) : List Header → Identity
  | [] => found
  | h :: around =>
    let name := h.name ++ "." ++ found.qualifiedName
    let owner := if around.isEmpty then (splitLast? name).map (·.1) else found.owner
    walk ⟨name, owner⟩ around

/-- The identity of a declaration inside others, the outermost first. -/
def identify (enclosing : List Header) (h : Header) : Identity :=
  Identity.walk { qualifiedName := h.name } enclosing.reverse

def qualifiedName (enclosing : List Header) (h : Header) : String := (identify enclosing h).qualifiedName

/-- The name of what owns a declaration, if it stands inside another one. -/
def owner? (enclosing : List Header) (h : Header) : Option String := (identify enclosing h).owner

namespace Extractor

/-- The attributes that the policy lets through. -/
def attributes (x : Extractor) (h : Header) : List Attribute :=
  (h.fields.filter fun f =>
    x.policy.includesField (Visibility.ofModifiers? f.modifiers)).filterMap
    FieldDeclaration.attribute?

/-- The operations that the policy lets through. -/
def operations (x : Extractor) (h : Header) : List Operation :=
  (h.methods.filter fun m =>
    x.policy.includesMethod (Visibility.ofModifiers? m.modifiers)).map MethodDeclaration.operation

def classifier (x : Extractor) (enclosing : List Header) (h : Header) : Classifier :=
  { packageName := x.package, name := qualifiedName enclosing h, kind := h.classifierKind,
    attributes := x.attributes h, operations := x.operations h }

/-- Records one relation for each reference, from what it resolves to to the target. -/
def relate (x : Extractor) (imports : ImportTable) (kind : RelationKind) (target : String)
    (references : List TypeReference) (s : Sketch) : Sketch :=
  references.foldl (fun s reference =>
    let relation := ⟨imports.resolve x.package reference, target, kind⟩
    (s.note (.related relation)).addRelation relation) s

/-- Records a class or interface: its classifier, who owns it, what it implements and what it
extends. -/
def record (x : Extractor) (imports : ImportTable) (enclosing : List Header) (h : Header)
    (s : Sketch) : Sketch :=
  let c := x.classifier enclosing h
  let s := (s.note
    (.classified c.kind c.fullName h.line c.attributes.length c.operations.length)).addClassifier c
  let s := match owner? enclosing h with
    | some owner => s.addRelation ⟨qualify x.package owner, c.fullName, .owns⟩
    | none => s
  x.relate imports .generalizes c.fullName h.extended
    (x.relate imports .realizes c.fullName h.implemented s)

/-! ## All declarations -/

mutual

/-- Visits a declaration that stands inside others, the outermost first, and then the declarations
inside it. -/
def visit (x : Extractor) (imports : ImportTable) (enclosing : List Header) :
    Declaration → Sketch → Sketch
  | .node h members, s =>
    let s := if h.kind.isModeled then x.record imports enclosing h s
      else s.note (.descended h.kind h.name h.line)
    x.visitAll imports (enclosing ++ [h]) members s

def visitAll (x : Extractor) (imports : ImportTable) (enclosing : List Header) :
    List Declaration → Sketch → Sketch
  | [], s => s
  | d :: ds, s => x.visitAll imports enclosing ds (x.visit imports enclosing d s)

end

/-- The diagram of a source with the log of its making. -/
def extract (x : Extractor) (unit : CompilationUnit) : Sketch :=
  let s := x.visitAll (ImportTable.ofImports unit.imports) [] unit.types {}
  s.note (.extracted s.view.classifiers.length s.view.relations.length x.package)

end Extractor

end ClassDiagram
