/-
The two ends of a relation. The target is the full name of the declaration to which the relation
belongs. The source is the full name of what owns the declaration, or what a name in one of its clauses
resolves to. Where such a name is the name of a classifier of the diagram and no import stands in the
way, the relation begins at that classifier. In a package with a name every end holds a dot, with one
exception: a type that was imported by a name without a dot.
-/
import ClassDiagram.Proofs.Extraction.Ownership
import ClassDiagram.Proofs.Grammar.Check
import ClassDiagram.Proofs.Imports.Resolution
import ClassDiagram.Proofs.Unit.WellFormed
import Mathlib.Data.List.Forall2

namespace ClassDiagram

open ClassDiagram.Grammar ClassDiagram.Text

/-! ## Relations that begin at a classifier -/

/-- A relation that is drawn for a reference. If the reference is the name of the classifier, the
relation begins there. -/
structure Relation.DrawnFor (e : Relation) (c : Classifier) (kind : RelationKind) (target : String)
    (r : TypeReference) : Prop where
  kind : e.kind = kind
  target : e.target = target
  source : r = .ofDotted c.name → e.source = c.fullName

theorem Declaration.mem_sitesOf {d : Declaration} (enclosing : List Header) :
    ∀ {ds : List Declaration}, d ∈ ds → ⟨enclosing, d.header⟩ ∈ sitesOf enclosing ds
  | .node h members :: ds, hd => by
    rw [sitesOf, sites]
    rcases List.mem_cons.1 hd with rfl | hd
    · exact List.mem_append_left _ (List.mem_cons_self ..)
    · exact List.mem_append_right _ (mem_sitesOf enclosing hd)

namespace Extractor

section
variable (x : Extractor) {unit : CompilationUnit} {c : Classifier}

theorem name_of_topLevel (d : Declaration) : (x.classifier [] d.header).name = d.header.name := by
  show ".".intercalate [d.header.name] = d.header.name
  exact String.intercalate_singleton

theorem packageName_of_mem (hc : c ∈ (x.extract unit).view.classifiers) : c.packageName = x.package := by
  rw [extract_classifiers] at hc
  obtain ⟨s, -, rfl⟩ := List.mem_map.1 hc
  rfl

/-- The name of a classifier resolves to its full name, if it is at the top level or capitalized and its
first segment is not imported. -/
theorem resolve_name (hd : unit.DotFree) (hc : c ∈ (x.extract unit).view.classifiers)
    (himports : ∀ i ∈ unit.imports, i.isWildcard = false → i.name ≠ firstSegment c.name)
    (hname : (∃ d ∈ unit.types, c = x.classifier [] d.header) ∨ ImportTable.OpensUpper (firstSegment c.name)) :
    (ImportTable.ofImports unit.imports).resolve x.package (.ofDotted c.name) = c.fullName := by
  have hlocal : DotFree c.name ∨ ImportTable.OpensUpper (firstSegment c.name) := by
    rcases hname with ⟨d, hmem, rfl⟩ | hupper
    · left
      rw [name_of_topLevel]
      exact hd ⟨[], d.header⟩ (Declaration.mem_sitesOf [] hmem)
    · exact .inr hupper
  rw [ImportTable.resolve_ofDotted, ImportTable.get?_ofImports_eq_none himports]
  simp only [if_pos hlocal]
  rw [Classifier.fullName, x.packageName_of_mem hc]

/-- If the name of the classifier resolves to its full name, each reference to it draws a relation that
begins there. -/
theorem forall₂_drawnFor {imports : ImportTable} (kind : RelationKind) (target : String)
    (references : List TypeReference) (hc : imports.resolve x.package (.ofDotted c.name) = c.fullName) :
    List.Forall₂ (fun r e => e.DrawnFor c kind target r) references
      (x.relations imports kind target references) := by
  rw [relations, List.forall₂_map_right_iff, List.forall₂_same]
  intro r _
  refine ⟨rfl, rfl, ?_⟩
  rintro rfl
  exact hc

/-- The relations before and after those of a site are those of the sites before and after it. -/
theorem extract_relations_split {before after : List Site} {s : Site} (hs : unit.sites = before ++ s :: after)
    (hm : s.isClassOrInterface = true) :
    (x.extract unit).view.relations =
      (x.drawing (ImportTable.ofImports unit.imports) before).relations ++
        (x.ownership s ++ x.ancestry (ImportTable.ofImports unit.imports) s) ++
          (x.drawing (ImportTable.ofImports unit.imports) after).relations := by
  rw [extract_relations, hs, List.filter_append, List.filter_cons_of_pos hm, List.flatMap_append,
    List.flatMap_cons, ← List.append_assoc]
  rfl

/-- A reference to a classifier of the diagram meets it. Wherever a class or interface stands in the
source, its block of relations says who owns it and then follows its clauses, reference by reference;
the relation of each reference that is the name of the classifier begins at the full name of the
classifier. -/
theorem extract_references_meet (unit : CompilationUnit) (hd : unit.DotFree)
    (hc : c ∈ (x.extract unit).view.classifiers)
    (himports : ∀ i ∈ unit.imports, i.isWildcard = false → i.name ≠ firstSegment c.name)
    (hname : (∃ d ∈ unit.types, c = x.classifier [] d.header) ∨ ImportTable.OpensUpper (firstSegment c.name))
    {before after : List Site} {s : Site} (hs : unit.sites = before ++ s :: after) (hm : s.isClassOrInterface = true) :
    ∃ realized generalized,
      (x.extract unit).view.relations =
        (x.drawing (ImportTable.ofImports unit.imports) before).relations ++
          (x.ownership s ++ (realized ++ generalized)) ++
            (x.drawing (ImportTable.ofImports unit.imports) after).relations ∧
      List.Forall₂ (fun r e => e.DrawnFor c .realizes (x.fullNameAt s) r) s.header.implemented realized ∧
      List.Forall₂ (fun r e => e.DrawnFor c .generalizes (x.fullNameAt s) r) s.header.extended generalized := by
  have hresolve := x.resolve_name hd hc himports hname
  exact ⟨_, _, x.extract_relations_split hs hm, x.forall₂_drawnFor .realizes _ _ hresolve,
    x.forall₂_drawnFor .generalizes _ _ hresolve⟩

end

end Extractor

namespace CompilationUnit

def outerHeader : Header := { name := "Outer", kind := .enumType }

def userHeader : Header := { name := "user", implemented := [{ name := "Other" }] }

def deepHeader : Header :=
  { name := "Deep", kind := .interfaceType,
    extended := [{ name := "user" }, { name := "Inner", qualifier := some "Outer" }] }

/-- An enum with a class inside it, and another class with an interface inside it that extends both
classes. -/
def crossReferences : CompilationUnit where
  imports := [.single "q.Other", .wildcard "q.Outer"]
  types := [.node outerHeader [.node { name := "Inner" } []], .node userHeader [.node deepHeader []]]

end CompilationUnit

section
open CompilationUnit

theorem Extractor.extract_references_meet_crossReferences :
    let c := classifier ⟨"", {}⟩ [outerHeader] { name := "Inner" }
    let s : Site := ⟨[userHeader], deepHeader⟩
    crossReferences.DotFree ∧ c ∈ (extract ⟨"", {}⟩ crossReferences).view.classifiers ∧
    (∀ i ∈ crossReferences.imports, i.isWildcard = false → i.name ≠ firstSegment c.name) ∧
    ImportTable.OpensUpper (firstSegment c.name) ∧
    crossReferences.sites = crossReferences.sites.take 3 ++ s :: [] ∧ s.isClassOrInterface = true ∧
    c.fullName = "Outer.Inner" ∧ deepHeader.extended = [.ofDotted "user", .ofDotted c.name] ∧
    ∃ generalized, generalized ⊆ (extract ⟨"", {}⟩ crossReferences).view.relations ∧
      List.Forall₂ (fun r e => e.DrawnFor c .generalizes "user.Deep" r) deepHeader.extended generalized := by
  intro c s
  have hd : crossReferences.DotFree := by decide
  have hc : c ∈ (extract ⟨"", {}⟩ crossReferences).view.classifiers := by decide
  have himports : ∀ i ∈ crossReferences.imports, i.isWildcard = false → i.name ≠ firstSegment c.name := by decide
  have hupper : ImportTable.OpensUpper (firstSegment c.name) := by decide
  have hs : crossReferences.sites = crossReferences.sites.take 3 ++ s :: [] := rfl
  refine ⟨hd, hc, himports, hupper, hs, rfl, by decide, by decide, ?_⟩
  obtain ⟨realized, generalized, hrelations, -, hgeneralized⟩ :=
    extract_references_meet ⟨"", {}⟩ crossReferences hd hc himports (.inr hupper) hs rfl
  refine ⟨generalized, ?_, hgeneralized⟩
  rw [hrelations]
  intro r hr
  simp [hr]

end

/-! ## Ends with a dot -/

theorem Text.not_dotFree_qualify {package : String} (h : package ≠ "") (name : String) :
    ¬ DotFree (qualify package name) := by
  rw [qualify, if_neg (by simpa using h)]
  exact not_dotFree_append package name

/-- Only an imported simple name resolves to a name without a dot. -/
theorem ImportTable.get?_of_dotFree_resolve {t : ImportTable} {package : String} (hpackage : package ≠ "")
    {r : TypeReference} (h : DotFree (t.resolve package r)) : t.get? r.name = some (t.resolve package r) := by
  obtain ⟨name, qualifier⟩ := r
  cases qualifier with
  | none =>
    rw [resolve_simple] at h ⊢
    cases hget : t.get? name with
    | none =>
      rw [hget] at h
      exact absurd h (not_dotFree_qualify hpackage name)
    | some imported => rfl
  | some qualifier =>
    rw [resolve_qualified] at h
    split at h
    · exact absurd h (not_dotFree_append _ name)
    · split at h
      · exact absurd h (not_dotFree_qualify hpackage _)
      · exact absurd h (not_dotFree_append qualifier name)

theorem of_import?_eq_some {text : List Char} {t : Tree} {i : ImportDeclaration} (h : import? text t = some i) :
    ∃ n, dottedName? t = some n ∧ i.qualifiedName = textOf text n ∧ i.isWildcard = (t.child? .asterisk).isSome := by
  obtain ⟨n, hn, rfl⟩ := Option.map_eq_some_iff.1 h
  refine ⟨n, hn, ?_⟩
  dsimp only
  split
  · rename_i hstar
    exact ⟨rfl, hstar.symm⟩
  · rename_i hstar
    exact ⟨rfl, (Bool.eq_false_iff.2 hstar).symm⟩

/-- The source imports a name that is written without a dot, as in `import B;`. -/
def ImportsBare (text : List Char) (tree : Tree) (name : String) : Prop :=
  ∃ c ∈ tree.children, c.isKind .importDeclaration = true ∧ c.child? .asterisk = none ∧
    ∃ n, dottedName? c = some n ∧ textOf text n = name ∧ DotFree name

theorem importsBare_of_mem {file : String} {text : List Char} {tree : Tree} {unit : CompilationUnit}
    (hunit : CompilationUnit.ofTree file text tree = .ok unit) {i : ImportDeclaration} (hi : i ∈ unit.imports)
    (hsingle : i.isWildcard = false) (hfree : DotFree i.qualifiedName) : ImportsBare text tree i.qualifiedName := by
  rw [(CompilationUnit.ofTree_eq_ok hunit).2] at hi
  obtain ⟨c, hc, hread⟩ := List.mem_filterMap.1 hi
  obtain ⟨hmem, hkind⟩ := List.mem_filter.1 hc
  obtain ⟨n, hn, hname, hstar⟩ := of_import?_eq_some hread
  rw [hsingle] at hstar
  exact ⟨c, hmem, hkind, by simpa using hstar.symm, n, hn, hname.symm, hfree⟩

namespace Extractor

section
variable (x : Extractor) {file : String} {text : List Char} {tree : Tree} {unit : CompilationUnit}

theorem not_dotFree_fullNameAt (hpackage : x.package ≠ "") (s : Site) : ¬ DotFree (x.fullNameAt s) := by
  rw [fullNameAt_eq]
  exact not_dotFree_qualify hpackage _

/-- In a package with a name, a relation whose source has no dot comes from a clause, and the source
is imported just so. -/
theorem importsBare_of_dotFree_source (hunit : CompilationUnit.ofTree file text tree = .ok unit)
    (hpackage : x.package ≠ "") {s : Site} {r : Relation}
    (hr : r ∈ x.ownership s ++ x.ancestry (ImportTable.ofImports unit.imports) s) (hfree : DotFree r.source) :
    r.kind ≠ .owns ∧ ImportsBare text tree r.source := by
  rcases List.mem_append.1 hr with hr | hr
  · obtain ⟨owner, -, rfl⟩ := List.mem_map.1 hr
    exact absurd hfree (not_dotFree_qualify hpackage owner)
  · refine ⟨kind_of_mem_ancestry hr, ?_⟩
    obtain ⟨reference, hsource⟩ : ∃ reference,
        r.source = (ImportTable.ofImports unit.imports).resolve x.package reference := by
      simp only [ancestry, relations, List.mem_append, List.mem_map] at hr
      rcases hr with ⟨reference, -, rfl⟩ | ⟨reference, -, rfl⟩
      · exact ⟨reference, rfl⟩
      · exact ⟨reference, rfl⟩
    rw [hsource] at hfree ⊢
    have hget := ImportTable.get?_of_dotFree_resolve hpackage hfree
    obtain ⟨i, hi, hsingle, -, himported⟩ := ImportTable.exists_of_get?_ofImports hget
    rw [← himported] at hfree ⊢
    exact importsBare_of_mem hunit hi hsingle hfree

/-- The diagram of a source in a package with a name: both ends of every relation hold a dot, unless the
relation comes from a clause and its source is a name that is imported without a dot. -/
theorem extract_ends_dotted (hunit : CompilationUnit.ofTree file text tree = .ok unit) (hpackage : x.package ≠ "") :
    ∀ r ∈ (x.extract unit).view.relations, '.' ∈ r.target.toList ∧
      ('.' ∈ r.source.toList ∨ r.kind ≠ .owns ∧ ImportsBare text tree r.source) := by
  intro r hr
  rw [extract_relations] at hr
  obtain ⟨s, -, hr⟩ := List.mem_flatMap.1 hr
  constructor
  · rw [target_of_mem_block hr]
    exact not_not.1 (x.not_dotFree_fullNameAt hpackage s)
  · by_cases hfree : DotFree r.source
    · exact .inr (x.importsBare_of_dotFree_source hunit hpackage hr hfree)
    · exact .inl (not_not.1 hfree)

end

theorem extract_ends_dotted_smallTree : ∃ unit,
    CompilationUnit.ofTree "C.java" smallSource smallTree = .ok unit ∧ "p" ≠ "" ∧
    (extract ⟨"p", {}⟩ unit).view.relations = [⟨"a.B", "p.C", .generalizes⟩] ∧
    ∀ r ∈ (extract ⟨"p", {}⟩ unit).view.relations, '.' ∈ r.target.toList ∧
      ('.' ∈ r.source.toList ∨ r.kind ≠ .owns ∧ ImportsBare smallSource smallTree r.source) := by
  obtain ⟨unit, hunit⟩ : ∃ unit, CompilationUnit.ofTree "C.java" smallSource smallTree = .ok unit := ⟨_, rfl⟩
  have hpackage : "p" ≠ "" := by decide
  refine ⟨unit, hunit, hpackage, ?_, extract_ends_dotted ⟨"p", {}⟩ hunit hpackage⟩
  cases hunit
  decide

end Extractor

/-! ### A bare import -/

def bareImportText : List Char := "import B;class C extends B{}".toList

def bareImportTree : Tree :=
  .node none (.kind .program) ⟨0, 28⟩ [
    .node none (.kind .importDeclaration) ⟨0, 9⟩ [
      .leaf (.word .importWord) ⟨0, 6⟩, .leaf (.kind .identifier) ⟨7, 8⟩, .leaf (.word .semicolon) ⟨8, 9⟩],
    .node none (.kind .classDeclaration) ⟨9, 28⟩ [
      .leaf (.word .classWord) ⟨9, 14⟩,
      .node (some .name) (.kind .identifier) ⟨15, 16⟩ [],
      .node none (.kind .superclass) ⟨17, 26⟩ [
        .leaf (.word .extendsWord) ⟨17, 24⟩, .leaf (.kind .typeIdentifier) ⟨25, 26⟩],
      .node (some .body) (.kind .classBody) ⟨26, 28⟩ [
        .leaf (.word .openBrace) ⟨26, 27⟩, .leaf (.word .closeBrace) ⟨27, 28⟩]]]

/-- A type that is imported by its simple name keeps that name, whatever the package. -/
theorem Extractor.extract_bareImport : bareImportTree.Conforms alternatives ∧ ∃ unit,
    CompilationUnit.ofTree "C.java" bareImportText bareImportTree = .ok unit ∧
    ∃ r ∈ (extract ⟨"p", {}⟩ unit).view.relations, r.source = "B" ∧ '.' ∉ r.source.toList := by
  refine ⟨Tree.conforms_of_fits _ (by decide), _, rfl, ⟨"B", "p.C", .generalizes⟩, ?_, rfl, by decide⟩
  decide

end ClassDiagram
