/-
The import table of a source and the best-effort resolution of type names. There is no class path:
a name that is neither imported nor qualified is taken to live in the package at hand, and what a
wildcard brings in is not known.
-/
import ClassDiagram.Unit

namespace ClassDiagram

open ClassDiagram.Text

/-- Simple names with what they stand for; no simple name occurs twice. -/
structure ImportTable where
  entries : List (String × String) := []

namespace ImportTable

/-- Sets the entry of a key in its place, or adds it at the end. -/
def setEntry (key value : String) : List (String × String) → List (String × String)
  | [] => [(key, value)]
  | entry :: rest =>
    if entry.1 == key then (key, value) :: rest else entry :: setEntry key value rest

/-- A later import of the same simple name replaces an earlier one; wildcards do not count. -/
def ofImports (imports : List ImportDeclaration) : ImportTable :=
  { entries := (imports.filter fun i => !i.isWildcard).foldl (fun entries i =>
      setEntry i.name i.qualifiedName entries) [] }

def get? (t : ImportTable) (name : String) : Option String :=
  (t.entries.find? (·.1 == name)).map (·.2)

def size (t : ImportTable) : Nat := t.entries.length

def isEmpty (t : ImportTable) : Bool := t.entries.isEmpty

/-- Whether a name begins with an upper-case ASCII letter, as the names of types do. -/
def isCapitalized (name : String) : Bool :=
  match name.toList with
  | c :: _ => c.isUpper
  | [] => false

/-- The full name that a reference stands for in a package. An imported first segment stands for
what was imported; an unimported one is a type of the package if it is capitalized or stands alone,
and otherwise the name is qualified already. -/
def resolve (t : ImportTable) (package : String) (r : TypeReference) : String :=
  match r.qualifier with
  | none =>
    match t.get? r.name with
    | some imported => imported
    | none => qualify package r.name
  | some qualifier =>
    let (first, rest) := match splitFirst? qualifier with
      | some (first, rest) => (first, some rest)
      | none => (qualifier, none)
    match t.get? first, rest with
    | some imported, some rest => imported ++ "." ++ rest ++ "." ++ r.name
    | some imported, none => imported ++ "." ++ r.name
    | none, _ =>
      let dotted := qualifier ++ "." ++ r.name
      if isCapitalized first then qualify package dotted else dotted

end ImportTable

end ClassDiagram
