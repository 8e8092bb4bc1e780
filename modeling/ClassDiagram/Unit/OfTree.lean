/-
Reading the declarations off a syntax tree. Names and types are taken as they stand in the source.
Only what a diagram can show is read: method bodies are not entered, and of an enum or a record
nothing but the name, the modifiers and the body.
-/
import ClassDiagram.Fault
import ClassDiagram.Grammar.Tree
import ClassDiagram.Text.Blank
import ClassDiagram.Unit

namespace ClassDiagram

open ClassDiagram.Grammar ClassDiagram.Text

/-- The declaration that a phrase makes, if it makes one. -/
def DeclarationKind.ofPhrase? : Kind → Option DeclarationKind
  | .classDeclaration => some .classType
  | .interfaceDeclaration => some .interfaceType
  | .enumDeclaration => some .enumType
  | .recordDeclaration => some .recordType
  | _ => none

/-- The declaration that a node makes, if it makes one. -/
def DeclarationKind.ofNode? (t : Tree) : Option DeclarationKind :=
  match t.label with
  | .kind k => ofPhrase? k
  | _ => none

/-! ## Names of types -/

/-- The characters outside angle brackets that are no white space; `depth` brackets are open. -/
def stripFrom (depth : Nat) : List Char → List Char
  | [] => []
  | c :: rest =>
    if c == '<' then stripFrom (depth + 1) rest
    else if c == '>' then stripFrom (depth - 1) rest
    else if depth == 0 && !isWhiteSpace c then c :: stripFrom depth rest
    else stripFrom depth rest

/-- The name of a type without type arguments and white space. -/
def stripTypeArguments (s : String) : String := String.ofList (stripFrom 0 s.toList)

/-- Whether a node names a class or interface. -/
def isClassType (t : Tree) : Bool :=
  t.isKind .typeIdentifier || t.isKind .scopedTypeIdentifier || t.isKind .genericType

/-- The node that names a class or interface in an entry of a clause; annotations are passed
over. -/
def classType? (t : Tree) : Option Tree :=
  if isClassType t then some t
  else if t.isKind .annotatedType then t.namedChildren.find? isClassType
  else none

section
variable (text : List Char)

/-- The text of a node. -/
def textOf (t : Tree) : String := slice text t.span

/-- The line on which a node begins. -/
def lineOf (t : Tree) : Nat := lineAt text t.span.start

/-- The type that a node refers to. -/
def reference? (t : Tree) : Option TypeReference :=
  let name := stripTypeArguments (textOf text t)
  if name.isEmpty then none else some (TypeReference.ofDotted name)

/-- The type that a class extends. -/
def superclass? (t : Tree) : Option TypeReference := do
  let clause ← t.child? .superclass
  let node ← clause.namedChildren.findSome? classType?
  reference? text node

/-- The types listed in a clause of a declaration. -/
def listedTypes (t : Tree) (clause : Kind) : List TypeReference :=
  match (t.child? clause).bind (·.child? .typeList) with
  | none => []
  | some list => (list.namedChildren.filterMap classType?).filterMap (reference? text)

/-! ## Members -/

/-- The keywords among the modifiers, annotations left out. -/
def modifiersOf (t : Tree) : List String :=
  match t.child? .modifiers with
  | none => []
  | some modifiers => (modifiers.children.filter fun c => !c.label.isNamed).map (textOf text)

/-- The variable of a declarator of a field. Brackets after the name belong to the type. -/
def declaredVariable? (typeName : String) (declarator : Tree) : Option Variable :=
  (declarator.part? .name).map fun name =>
    let dimensions := match declarator.part? .dimensions with
      | some d => stripTypeArguments (textOf text d)
      | none => ""
    { typeName := typeName ++ dimensions, name := textOf text name }

def fieldOf (t : Tree) : Except Fault FieldDeclaration :=
  match t.part? .type with
  | none => .error (.missingNode .type (lineOf text t))
  | some type =>
    let declared := (t.partsOf .declarator).filterMap (declaredVariable? text (textOf text type))
    if declared.isEmpty then .error (.missingNode .variableDeclarator (lineOf text t))
    else .ok { modifiers := modifiersOf text t, declared }

/-- A parameter; brackets after the name belong to the type. -/
def formalParameter? (t : Tree) : Option Variable := do
  let type ← t.part? .type
  let name ← t.part? .name
  let dimensions := match t.part? .dimensions with
    | some d => textOf text d
    | none => ""
  some { typeName := textOf text type ++ dimensions, name := textOf text name }

/-- A parameter that takes any number of arguments, with the type of one of them: the first named
part that is neither the modifiers nor the declarator. -/
def spreadParameter? (t : Tree) : Option Variable := do
  let type ← t.namedChildren.find? fun c =>
    !(c.isKind .modifiers || c.isKind .variableDeclarator)
  let declarator ← t.namedChildren.find? (·.isKind .variableDeclarator)
  let name ← declarator.part? .name
  some { typeName := textOf text type, name := textOf text name }

/-- The parameters of a method; a receiver is none. -/
def parametersOf (t : Tree) : List Variable :=
  t.namedChildren.filterMap fun c =>
    if c.isKind .formalParameter then formalParameter? text c
    else if c.isKind .spreadParameter then spreadParameter? text c
    else none

def methodOf (t : Tree) : Except Fault MethodDeclaration :=
  match t.part? .name with
  | none => .error (.missingNode .identifier (lineOf text t))
  | some name =>
    .ok {
      modifiers := modifiersOf text t
      returnType := match t.part? .type with
        | some type => textOf text type
        | none => "void"
      name := textOf text name
      parameters := match t.part? .parameters with
        | some parameters => parametersOf text parameters
        | none => [] }

/-! ## Declarations -/

/-- Whether a node is the body of a declaration. -/
def isBody (t : Tree) : Bool :=
  t.isKind .classBody || t.isKind .interfaceBody || t.isKind .enumBody

/-- The place of the body among the children of a declaration. -/
def bodyIndex? (t : Tree) : Option Nat :=
  t.children.findIdx? (·.role == some .body) <|> t.children.findIdx? isBody

/-- The place of the members after the constants among the children of an enum's body. -/
def afterConstants? (children : List Tree) : Option Nat :=
  children.findIdx? (·.isKind .enumBodyDeclarations)

/-- The types that the declaration at a node implements; only a class does. -/
def implementedOf (t : Tree) : DeclarationKind → List TypeReference
  | .classType => listedTypes text t .superInterfaces
  | _ => []

/-- The types that the declaration at a node extends. -/
def extendedOf (t : Tree) : DeclarationKind → List TypeReference
  | .classType => (superclass? text t).toList
  | .interfaceType => listedTypes text t .extendsInterfaces
  | _ => []

/-- A declaration before its body is read. -/
def headerOf (kind : DeclarationKind) (t : Tree) : Except Fault Header :=
  match t.part? .name with
  | none => .error (.missingNode .identifier (lineOf text t))
  | some name =>
    .ok {
      name := textOf text name
      kind
      modifiers := modifiersOf text t
      line := lineOf text t
      implemented := implementedOf text t kind
      extended := extendedOf text t kind }

/-- What the body of a declaration holds. -/
structure Body where
  fields : List FieldDeclaration := []
  methods : List MethodDeclaration := []
  members : List Declaration := []

mutual

/-- A declaration with what its body holds. -/
def declarationOf (kind : DeclarationKind) : Tree → Except Fault Declaration
  | .node r l s children => do
    let header ← headerOf text kind (.node r l s children)
    let body ← bodyAt (bodyIndex? (.node r l s children)) children
    return .node { header with fields := body.fields, methods := body.methods } body.members

/-- What the child at this place holds. -/
def bodyAt (index : Option Nat) : List Tree → Except Fault Body
  | [] => return {}
  | c :: cs =>
    match index with
    | none => return {}
    | some 0 => bodyInside c
    | some (i + 1) => bodyAt (some i) cs

/-- What a body holds; of an enum's body only what comes after the constants counts. -/
def bodyInside : Tree → Except Fault Body
  | .node _ l _ children =>
    if l == .kind .enumBody then bodyAt (afterConstants? children) children
    else readBody children

/-- The fields, methods and declarations among these nodes. They are read in order, so that the first
of them that lacks a node is the one that is reported. -/
def readBody : List Tree → Except Fault Body
  | [] => return {}
  | c :: cs =>
    if c.isKind .fieldDeclaration || c.isKind .constantDeclaration then do
      let field ← fieldOf text c
      let body ← readBody cs
      return { body with fields := field :: body.fields }
    else if c.isKind .methodDeclaration then do
      let method ← methodOf text c
      let body ← readBody cs
      return { body with methods := method :: body.methods }
    else match DeclarationKind.ofNode? c with
      | none => readBody cs
      | some kind => do
        let declaration ← declarationOf kind c
        let body ← readBody cs
        return { body with members := declaration :: body.members }

end

/-- The declarations that these nodes make. -/
def declarationsAmong : List Tree → Except Fault (List Declaration)
  | [] => return []
  | c :: cs => do
    match DeclarationKind.ofNode? c with
    | none => declarationsAmong cs
    | some kind =>
      let d ← declarationOf text kind c
      let ds ← declarationsAmong cs
      return d :: ds

/-! ## The source -/

/-- The node of the name in a package or import declaration. -/
def dottedName? (t : Tree) : Option Tree :=
  t.namedChildren.find? fun c => c.isKind .scopedIdentifier || c.isKind .identifier

/-- The import that a node makes. -/
def import? (t : Tree) : Option ImportDeclaration :=
  (dottedName? t).map fun name =>
    let qualifiedName := textOf text name
    let made := if (t.child? .asterisk).isSome then ImportDeclaration.wildcard qualifiedName
      else ImportDeclaration.single qualifiedName
    { made with isStatic := t.children.any (·.label == .word .staticWord) }

/-- The package of a source; if several are declared, the last one. -/
def packageOf (t : Tree) : Option String :=
  match (t.children.filter (·.isKind .packageDeclaration)).getLast? with
  | some declaration => (dottedName? declaration).map (textOf text)
  | none => none

end

/-- The declarations of a source, read off its tree. A tree with a fault has none; the position of
the first fault is reported. -/
def CompilationUnit.ofTree (file : String) (text : List Char) (tree : Tree) :
    Except Fault CompilationUnit :=
  if tree.hasFault then
    let position := ((tree.firstFault?).getD tree).span.start
    .error (.malformed file (lineAt text position) (columnAt text position))
  else do
    let types ← declarationsAmong text tree.children
    return {
      package := packageOf text tree
      imports := (tree.children.filter (·.isKind .importDeclaration)).filterMap (import? text)
      types }

end ClassDiagram
