/-
What a class diagram needs to know of a source: its imports and the tree of its declarations with
their members and the types they extend and implement.
-/
import ClassDiagram.Text.Dotted

namespace ClassDiagram

open ClassDiagram.Text

/-- An import of one name, or of everything in a package or type. -/
structure ImportDeclaration where
  /-- The last segment of the imported name. -/
  name : String
  /-- The imported name as written, without the star of a wildcard. -/
  qualifiedName : String
  isStatic : Bool := false
  isWildcard : Bool := false
  deriving DecidableEq, Repr

namespace ImportDeclaration

def single (qualifiedName : String) : ImportDeclaration :=
  { name := lastSegment qualifiedName, qualifiedName }

def wildcard (qualifiedName : String) : ImportDeclaration :=
  { single qualifiedName with isWildcard := true }

end ImportDeclaration

/-- A type named in an extends or implements clause: its last segment and what was written before
it. -/
structure TypeReference where
  name : String
  qualifier : Option String := none
  deriving DecidableEq, Repr

/-- The reference that a dotted name denotes. -/
def TypeReference.ofDotted (name : String) : TypeReference :=
  match splitLast? name with
  | some (qualifier, last) => { name := last, qualifier := some qualifier }
  | none => { name }

/-- A variable or a parameter with its type as written. -/
structure Variable where
  typeName : String
  name : String
  deriving DecidableEq, Repr

/-- A field declaration, which may declare several variables. -/
structure FieldDeclaration where
  modifiers : List String := []
  declared : List Variable := []
  deriving DecidableEq, Repr

def FieldDeclaration.isStatic (f : FieldDeclaration) : Bool := f.modifiers.contains "static"

structure MethodDeclaration where
  modifiers : List String := []
  returnType : String := ""
  name : String := ""
  parameters : List Variable := []
  deriving DecidableEq, Repr

namespace MethodDeclaration

def isStatic (m : MethodDeclaration) : Bool := m.modifiers.contains "static"

def isAbstract (m : MethodDeclaration) : Bool := m.modifiers.contains "abstract"

end MethodDeclaration

inductive DeclarationKind
  | classType
  | interfaceType
  | enumType
  | recordType
  deriving DecidableEq, Repr, Inhabited

/-- Classes and interfaces are drawn; enums and records are only scopes for what they enclose. -/
def DeclarationKind.isModeled : DeclarationKind → Bool
  | classType | interfaceType => true
  | enumType | recordType => false

/-- A declaration without the declarations inside it. -/
structure Header where
  name : String
  kind : DeclarationKind := .classType
  /-- The keyword modifiers in source order. -/
  modifiers : List String := []
  fields : List FieldDeclaration := []
  methods : List MethodDeclaration := []
  implemented : List TypeReference := []
  extended : List TypeReference := []
  /-- The line on which the declaration begins, counted from one. -/
  line : Nat := 0
  deriving DecidableEq, Repr, Inhabited

namespace Header

def isInterface (h : Header) : Bool := h.kind == .interfaceType

def hasModifier (h : Header) (modifier : String) : Bool := h.modifiers.contains modifier

end Header

/-- A declaration with the declarations inside it. -/
inductive Declaration
  | node (header : Header) (members : List Declaration)
  deriving Inhabited

namespace Declaration

def header : Declaration → Header
  | node h _ => h

def members : Declaration → List Declaration
  | node _ ms => ms

end Declaration

/-- One source. The package that it names is recorded only: callers say which package to use. -/
structure CompilationUnit where
  package : Option String := none
  imports : List ImportDeclaration := []
  types : List Declaration := []

end ClassDiagram
