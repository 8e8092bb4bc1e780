/-
The languages whose sources can be read, of which there is one, and how a file shows its language.
-/
import ClassDiagram.Fault
import ClassDiagram.Path
import ClassDiagram.Unit

namespace ClassDiagram

/-- The name of the phrase that makes a declaration. -/
def DeclarationKind.phraseName : DeclarationKind → String
  | classType => "class_declaration"
  | interfaceType => "interface_declaration"
  | enumType => "enum_declaration"
  | recordType => "record_declaration"

inductive Language
  | java
  deriving DecidableEq, Repr

namespace Language

def all : List Language := [java]

def name : Language → String
  | java => "java"

/-- The language with this name. -/
def ofName? (s : String) : Option Language := all.find? (·.name == s)

/-- The language of the files with this extension. -/
def ofExtension? (extension : String) : Option Language :=
  if extension == "java" then some java else none

/-- The language of a file, as its extension shows it. -/
def ofPath? (path : String) : Option Language := (Path.extension? path).bind ofExtension?

/-- Whether a file can be read, as its extension shows it. -/
def supports (path : String) : Bool := (ofExtension? ((Path.extension? path).getD "")).isSome

/-- The language of a file, or the complaint about its extension. -/
def ofPath (path : String) : Except Fault Language :=
  match ofPath? path with
  | some language => .ok language
  | none => .error (.unsupportedLanguage ((Path.extension? path).getD ""))

/-- The declarations that are drawn. -/
def declarationKinds : Language → List DeclarationKind
  | java => [.classType, .interfaceType]

/-- The declarations that are not drawn but may enclose others that are. -/
def scopeKinds : Language → List DeclarationKind
  | java => [.enumType, .recordType]

end Language

end ClassDiagram
