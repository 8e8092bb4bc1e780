/-
What is noted while a diagram is made: the events, their severity and their wording.
-/
import ClassDiagram.Unit
import ClassDiagram.View

namespace ClassDiagram

inductive Severity
  | trace
  | debug
  | warn
  deriving DecidableEq, Repr

def Severity.name : Severity → String
  | trace => "TRACE"
  | debug => "DEBUG"
  | warn => "WARN"

/-- The name of a kind of declaration as events spell it. -/
def DeclarationKind.label : DeclarationKind → String
  | classType => "Class"
  | interfaceType => "Interface"
  | enumType => "Enum"
  | recordType => "Record"

inductive Event
  /-- A source was read. -/
  | unitRead (imports types : Nat) (file : String)
  /-- A class or interface was recorded. -/
  | classified (kind : ClassifierKind) (fullName : String) (line attributes operations : Nat)
  /-- A declaration was entered that is only a scope. -/
  | descended (kind : DeclarationKind) (name : String) (line : Nat)
  /-- A type that is extended or implemented was recorded. -/
  | related (relation : Relation)
  /-- All declarations of a source were visited. -/
  | extracted (types relations : Nat) (package : String)
  /-- The diagram of a source is complete. -/
  | viewed (types relations : Nat) (file : String)
  /-- A source of a batch has no diagram. -/
  | skipped (file message : String)
  deriving DecidableEq, Repr

namespace Event

def severity : Event → Severity
  | extracted .. => .debug
  | skipped .. => .warn
  | _ => .trace

def message : Event → String
  | unitRead imports types file =>
    s!"Read {imports} imports and {types} top-level types from {file}"
  | classified kind fullName line attributes operations =>
    kind.name ++ s!" {fullName} (line {line}): {attributes} fields, {operations} methods"
  | descended kind name line =>
    "Descending into " ++ kind.label ++ s!" {name} (line {line}) without modeling it"
  | related r => r.source ++ " " ++ r.kind.name ++ " " ++ r.target
  | extracted types relations package =>
    s!"Extracted {types} types and {relations} relations for package '{package}'"
  | viewed types relations file =>
    s!"Extracted {types} types and {relations} relations from {file}"
  | skipped file message => s!"Skipping {file}: {message}"

/-- The line of an event in a log. -/
def render (e : Event) : String := e.severity.name ++ " " ++ e.message

end Event

end ClassDiagram
