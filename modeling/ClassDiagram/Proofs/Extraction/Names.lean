/-
The names of the classifiers in the diagram of a source. A name is the join of a path, so where
siblings differ in name and no name has a dot, no two classifiers share a name: each is found by its
own name, and its simple name is the one that was declared.
-/
import ClassDiagram.Proofs.Extraction.Footprint
import Mathlib.Data.List.Nodup

namespace ClassDiagram

open ClassDiagram.Text

/-- Where no name occurs twice, a classifier is found by its name. -/
theorem View.find?_eq_some_of_nodup {v : View} (hv : (v.classifiers.map (·.name)).Nodup) {c : Classifier}
    (hc : c ∈ v.classifiers) : v.find? c.name = some c := by
  unfold View.find?
  rcases hf : v.classifiers.find? (·.name == c.name) with _ | d
  · rw [List.find?_eq_none] at hf
    simpa using hf c hc
  · have hd := List.mem_of_find?_eq_some hf
    have hn : d.name = c.name := by simpa using List.find?_some hf
    rw [hf, List.inj_on_of_nodup_map hv hd hc hn]

namespace Extractor

theorem extract_names (x : Extractor) (unit : CompilationUnit) :
    (x.extract unit).view.classifiers.map (·.name) =
      ((unit.sites.filter Site.isClassOrInterface).map Site.path).map ".".intercalate := by
  rw [extract_classifiers, List.map_map, List.map_map]
  exact List.map_congr_left fun s _ => qualifiedName_eq_intercalate s

theorem extract_fullNames (x : Extractor) (unit : CompilationUnit) :
    (x.extract unit).view.classifiers.map Classifier.fullName =
      ((x.extract unit).view.classifiers.map (·.name)).map (qualify x.package) := by
  rw [extract_classifiers, List.map_map, List.map_map, List.map_map]
  rfl

/-- No two classifiers share a name, also if they stand inside different enums or records. -/
theorem nodup_extract_names (x : Extractor) {unit : CompilationUnit} (hd : unit.DotFree)
    (hs : unit.DistinctSiblings) : ((x.extract unit).view.classifiers.map (·.name)).Nodup := by
  rw [extract_names]
  have hp : ((unit.sites.filter Site.isClassOrInterface).map Site.path).Nodup :=
    hs.nodup_paths.sublist (List.filter_sublist.map Site.path)
  refine hp.map_on fun p hp q hq h => ?_
  obtain ⟨s, hs, rfl⟩ := List.mem_map.1 hp
  obtain ⟨t, ht, rfl⟩ := List.mem_map.1 hq
  exact intercalate_injective s.path_ne_nil t.path_ne_nil (hd.path s (List.mem_filter.1 hs).1)
    (hd.path t (List.mem_filter.1 ht).1) h

theorem extract_simpleNames (x : Extractor) {unit : CompilationUnit} (hd : unit.DotFree) :
    (x.extract unit).view.classifiers.map Classifier.simpleName =
      (unit.sites.filter Site.isClassOrInterface).map (·.header.name) := by
  rw [extract_classifiers, List.map_map]
  refine List.map_congr_left fun s hs => ?_
  show lastSegment (qualifiedName s.enclosing s.header) = s.header.name
  rw [qualifiedName_eq_intercalate, Site.path]
  exact lastSegment_intercalate s.scope (hd s (List.mem_filter.1 hs).1)

/-- Names identify classifiers: no name and no full name occurs twice, each classifier is the one
found under its name, and its simple name is the name that its declaration was written with. -/
theorem extract_names_identify (x : Extractor) (unit : CompilationUnit) (hd : unit.DotFree)
    (hs : unit.DistinctSiblings) :
    ((x.extract unit).view.classifiers.map (·.name)).Nodup ∧
    ((x.extract unit).view.classifiers.map Classifier.fullName).Nodup ∧
    (∀ c ∈ (x.extract unit).view.classifiers, (x.extract unit).view.find? c.name = some c) ∧
    (x.extract unit).view.classifiers.map Classifier.simpleName =
      (unit.sites.filter Site.isClassOrInterface).map (·.header.name) := by
  have hn := nodup_extract_names x hd hs
  refine ⟨hn, ?_, fun c hc => View.find?_eq_some_of_nodup hn hc, extract_simpleNames x hd⟩
  rw [extract_fullNames]
  exact hn.map fun _ _ h => qualify_injective x.package h

theorem extract_names_identify_twoHelpers :
    CompilationUnit.twoHelpers.DotFree ∧ CompilationUnit.twoHelpers.DistinctSiblings ∧
    (extract ⟨"p", {}⟩ CompilationUnit.twoHelpers).view.classifiers.map (·.name) =
      ["Red.Helper", "Red.Helper.Part", "Blue.Helper"] ∧
    ∀ c ∈ (extract ⟨"p", {}⟩ CompilationUnit.twoHelpers).view.classifiers,
      (extract ⟨"p", {}⟩ CompilationUnit.twoHelpers).view.find? c.name = some c := by
  have hd : CompilationUnit.twoHelpers.DotFree := by decide
  have hs : CompilationUnit.twoHelpers.DistinctSiblings := by
    simp [CompilationUnit.DistinctSiblings, CompilationUnit.twoHelpers, Declaration.DistinctSiblings,
      Declaration.DistinctInside, Declaration.header]
  exact ⟨hd, hs, by decide, (extract_names_identify ⟨"p", {}⟩ CompilationUnit.twoHelpers hd hs).2.2.1⟩

end Extractor

end ClassDiagram
