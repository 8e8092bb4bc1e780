/-
The diagram of a source read off the sites of its declarations, without a sketch that grows along
the way: one classifier and one block of relations for each class or interface, in the order of the
sites. In a source without dots in names this is the diagram that extraction makes. The owner, which
extraction finds by cutting the qualified name at its last dot, is then the join of the names around
the declaration.
-/
import ClassDiagram.Proofs.Extraction.Footprint
import Mathlib.Data.List.Basic

namespace ClassDiagram

open ClassDiagram.Text

namespace Extractor

/-! ## The outline of a source -/

/-- The classifier of a class or interface, named by the join of its path. -/
def classifierAt (x : Extractor) (s : Site) : Classifier where
  packageName := x.package
  name := ".".intercalate s.path
  kind := s.header.classifierKind
  attributes := x.attributes s.header
  operations := x.operations s.header

/-- The relations of a class or interface: what encloses it, if anything does, then the types that it
implements and then those that it extends. -/
def blockAt (x : Extractor) (imports : ImportTable) (s : Site) : List Relation :=
  let target := qualify x.package (".".intercalate s.path)
  (if s.enclosing = [] then [] else [⟨qualify x.package (".".intercalate s.scope), target, .owns⟩]) ++
    (s.header.implemented.map fun r => ⟨imports.resolve x.package r, target, .realizes⟩) ++
    s.header.extended.map fun r => ⟨imports.resolve x.package r, target, .generalizes⟩

/-- The classifiers and the blocks of relations of all classes and interfaces. -/
def outline (x : Extractor) (unit : CompilationUnit) : View :=
  let drawn := unit.sites.filter fun s => s.header.kind == .classType || s.header.kind == .interfaceType
  { classifiers := drawn.map x.classifierAt
    relations := drawn.flatMap (x.blockAt (ImportTable.ofImports unit.imports)) }

/-! ## Names and owners by paths -/

/-- The cut at the last dot takes the own name off, whatever encloses the declaration. -/
theorem owner?_eq_some {s : Site} (hn : DotFree s.header.name) (he : s.enclosing ≠ []) :
    owner? s.enclosing s.header = some (".".intercalate s.scope) := by
  have hs : s.scope ≠ [] := by simpa [Site.scope] using he
  rw [owner?_eq, if_neg (by simpa using he), qualifiedName_eq_intercalate, Site.path, intercalate_concat hs,
    splitLast?_append _ hn]
  rfl

theorem classifier_eq_classifierAt (x : Extractor) (s : Site) :
    x.classifier s.enclosing s.header = x.classifierAt s := by
  unfold classifier classifierAt
  rw [qualifiedName_eq_intercalate]

theorem fullNameAt_eq (x : Extractor) (s : Site) :
    x.fullNameAt s = qualify x.package (".".intercalate s.path) := by
  unfold fullNameAt
  rw [classifier_eq_classifierAt]
  rfl

theorem ownership_eq (x : Extractor) {s : Site} (hn : DotFree s.header.name) :
    x.ownership s = if s.enclosing = [] then []
      else [⟨qualify x.package (".".intercalate s.scope), x.fullNameAt s, .owns⟩] := by
  unfold ownership
  by_cases he : s.enclosing = []
  · rw [if_pos he]
    simp [owner?_eq, he]
  · rw [if_neg he, owner?_eq_some hn he]
    rfl

theorem block_eq_blockAt (x : Extractor) (imports : ImportTable) {s : Site} (hn : DotFree s.header.name) :
    x.ownership s ++ x.ancestry imports s = x.blockAt imports s := by
  unfold ancestry relations blockAt
  rw [ownership_eq x hn, fullNameAt_eq, List.append_assoc]

/-! ## The diagram -/

/-- Extraction, which appends to one sketch along a nested visit, makes the outline. -/
theorem extract_view_eq_outline (x : Extractor) (unit : CompilationUnit) (h : unit.DotFree) :
    (x.extract unit).view = x.outline unit := by
  have hc : (x.extract unit).view.classifiers = (x.outline unit).classifiers := by
    rw [extract_classifiers]
    exact List.map_congr_left fun s _ => classifier_eq_classifierAt x s
  have hr : (x.extract unit).view.relations = (x.outline unit).relations := by
    rw [extract_relations]
    refine List.flatMap_congr fun s hs => ?_
    exact block_eq_blockAt x _ (h s (List.mem_filter.1 hs).1)
  calc (x.extract unit).view
      = ⟨(x.extract unit).view.classifiers, (x.extract unit).view.relations⟩ := rfl
    _ = x.outline unit := by rw [hc, hr]

/-- The enum and the record are not drawn, but they own what they enclose. -/
theorem extract_view_twoHelpers :
    CompilationUnit.twoHelpers.DotFree ∧
      (extract ⟨"p", {}⟩ CompilationUnit.twoHelpers).view = outline ⟨"p", {}⟩ CompilationUnit.twoHelpers ∧
      (extract ⟨"p", {}⟩ CompilationUnit.twoHelpers).view = {
        classifiers := [
          ⟨"p", "Red.Helper", .plainClass, [], []⟩, ⟨"p", "Red.Helper.Part", .interfaceType, [], []⟩,
          ⟨"p", "Blue.Helper", .plainClass, [], []⟩]
        relations := [
          ⟨"p.Red", "p.Red.Helper", .owns⟩, ⟨"q.Left", "p.Red.Helper", .realizes⟩,
          ⟨"p.Red.Helper", "p.Red.Helper.Part", .owns⟩,
          ⟨"p.Blue", "p.Blue.Helper", .owns⟩, ⟨"p.Right", "p.Blue.Helper", .generalizes⟩] } := by
  have hview := extract_view_eq_outline ⟨"p", {}⟩ CompilationUnit.twoHelpers (by decide)
  refine ⟨by decide, hview, ?_⟩
  rw [hview]
  decide +kernel

end Extractor

end ClassDiagram
