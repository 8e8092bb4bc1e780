/-
The JSON form of a diagram, for those who draw it.
-/
import ClassDiagram.Json.Printer
import ClassDiagram.Json.Reader
import ClassDiagram.Json.Record
import ClassDiagram.View

namespace ClassDiagram

/-! ## Writing -/

/-- A level, or null if there is none. -/
def Visibility.optionToJson (v : Option Visibility) : Json := .ofOption (v.map Visibility.name)

def Attribute.toJson (a : Attribute) : Json :=
  .record [("visibility", Visibility.optionToJson a.visibility), ("is_static", .bool a.isStatic),
    ("type", .text a.typeName), ("name", .text a.name)]

def Operation.toJson (o : Operation) : Json :=
  .record [("visibility", Visibility.optionToJson o.visibility), ("is_static", .bool o.isStatic),
    ("is_abstract", .bool o.isAbstract), ("return_type", .text o.returnType),
    ("name", .text o.name), ("params", .texts o.params)]

def Classifier.toJson (c : Classifier) : Json :=
  .record [("package_name", .text c.packageName), ("name", .text c.name),
    ("kind", .text c.kind.name), ("fields", .array (c.attributes.map Attribute.toJson)),
    ("methods", .array (c.operations.map Operation.toJson))]

def Relation.toJson (r : Relation) : Json :=
  .record [("source", .text r.source), ("target", .text r.target), ("kind", .text r.kind.name)]

def View.toJson (v : View) : Json :=
  .record [("types", .array (v.classifiers.map Classifier.toJson)),
    ("relations", .array (v.relations.map Relation.toJson))]

/-- The text of a diagram. -/
def View.print (v : View) : String := v.toJson.pretty

/-! ## Reading -/

/-- A level, or none for null and for nothing. -/
def Visibility.optionOfJson? : Option Json → Option (Option Visibility)
  | none => some none
  | some .null => some none
  | some j => (j.named? Visibility.ofName?).map some

def Attribute.ofJson? (j : Json) : Option Attribute := do
  match ← j.fields? ["visibility", "is_static", "type", "name"] false with
  | [visibility, isStatic, typeName, name] =>
    some {
      visibility := ← Visibility.optionOfJson? visibility
      isStatic := ← isStatic.bind Json.bool?
      typeName := ← typeName.bind Json.text?
      name := ← name.bind Json.text? }
  | _ => none

def Operation.ofJson? (j : Json) : Option Operation := do
  match ← j.fields? ["visibility", "is_static", "is_abstract", "return_type", "name", "params"]
    false with
  | [visibility, isStatic, isAbstract, returnType, name, params] =>
    some {
      visibility := ← Visibility.optionOfJson? visibility
      isStatic := ← isStatic.bind Json.bool?
      isAbstract := ← isAbstract.bind Json.bool?
      returnType := ← returnType.bind Json.text?
      name := ← name.bind Json.text?
      params := ← params.bind (Json.list? Json.text?) }
  | _ => none

def Classifier.ofJson? (j : Json) : Option Classifier := do
  match ← j.fields? ["package_name", "name", "kind", "fields", "methods"] false with
  | [packageName, name, kind, attributes, operations] =>
    some {
      packageName := ← packageName.bind Json.text?
      name := ← name.bind Json.text?
      kind := ← kind.bind (Json.named? ClassifierKind.ofName?)
      attributes := ← attributes.bind (Json.list? Attribute.ofJson?)
      operations := ← operations.bind (Json.list? Operation.ofJson?) }
  | _ => none

def Relation.ofJson? (j : Json) : Option Relation := do
  match ← j.fields? ["source", "target", "kind"] false with
  | [source, target, kind] =>
    some {
      source := ← source.bind Json.text?
      target := ← target.bind Json.text?
      kind := ← kind.bind (Json.named? RelationKind.ofName?) }
  | _ => none

def View.ofJson? (j : Json) : Option View := do
  match ← j.fields? ["types", "relations"] false with
  | [classifiers, relations] =>
    some {
      classifiers := ← classifiers.bind (Json.list? Classifier.ofJson?)
      relations := ← relations.bind (Json.list? Relation.ofJson?) }
  | _ => none

/-- The diagram that a text denotes. -/
def View.parse? (s : String) : Option View := (Json.parse? s).bind View.ofJson?

end ClassDiagram
