/-
The ways to a diagram: from the text of a source, from a file, and from many sources at once. Each
gives its result together with the events on the way.
-/
import ClassDiagram.Extraction
import ClassDiagram.FileSystem
import ClassDiagram.Grammar.Parse
import ClassDiagram.Language
import ClassDiagram.Unit.OfTree

namespace ClassDiagram

/-- A result with the events on the way to it. -/
structure Logged (α : Type) where
  result : α
  log : List Event := []

/-- The declarations of a source. The name of the file shows its language. -/
def parseUnit (file text : String) : Logged (Except Fault CompilationUnit) :=
  match Language.ofPath file with
  | .error fault => { result := .error fault }
  | .ok .java =>
    let chars := text.toList
    match CompilationUnit.ofTree file chars (Grammar.java.parse chars) with
    | .error fault => { result := .error fault }
    | .ok unit =>
      { result := .ok unit, log := [.unitRead unit.imports.length unit.types.length file] }

/-- The diagram of a source that belongs to a package. -/
def extractView (file text package : String) (policy : Policy) : Logged (Except Failure View) :=
  let unit := parseUnit file text
  match unit.result with
  | .error fault => { result := .error (.unreadable file fault), log := unit.log }
  | .ok u =>
    let sketch := Extractor.extract ⟨package, policy⟩ u
    let view := sketch.view
    { result := .ok view
      log := unit.log ++ sketch.log ++
        [.viewed view.classifiers.length view.relations.length file] }

/-- The text of a file. -/
def fileText (files : FileSystem) (path : String) : Except Failure String :=
  match files.readText path with
  | .ok text => .ok text
  | .error e => .error (.disk path e)

/-- The diagram of a file. A file in another language is refused before it is read. -/
def extractFile (files : FileSystem) (path package : String) (policy : Policy) :
    Logged (Except Failure View) :=
  if Language.supports path then
    match fileText files path with
    | .ok text => extractView path text package policy
    | .error failure => { result := .error failure }
  else
    { result := .error (.refused (.unsupportedLanguage ((Path.extension? path).getD ""))) }

/-- One source of a batch. -/
structure SourceFile where
  path : String
  text : String
  package : String
  deriving DecidableEq, Repr

/-- The diagram of one source of a batch; that there is none is noted. -/
def extractSource (policy : Policy) (source : SourceFile) : Logged (Except Failure View) :=
  let viewed := extractView source.path source.text source.package policy
  match viewed.result with
  | .ok _ => viewed
  | .error failure =>
    { viewed with log := viewed.log ++ [.skipped source.path failure.message] }

/-- The diagrams of many sources, in order. A source without one affects only its own slot. -/
def extractBatch (policy : Policy) (sources : List SourceFile) :
    Logged (List (Except Failure View)) :=
  let slots := sources.map (extractSource policy)
  { result := slots.map (·.result), log := slots.flatMap (·.log) }

end ClassDiagram
