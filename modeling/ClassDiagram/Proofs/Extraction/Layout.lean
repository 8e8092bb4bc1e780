/-
What a diagram owes to the layout of its source. Only the members of a classifier are read off the
fields and methods of a declaration, so the diagram of the bare declarations is the diagram without
members. Two tidy sources of the same wording hence have the same classifiers, but for their members,
and the same relations. A source that is not tidy may have other relations: a blank inside an imported
name is taken for a part of it, and so is a comment inside the name of a type.
-/
import ClassDiagram.Proofs.Extraction.Footprint
import ClassDiagram.Proofs.Grammar.Check
import ClassDiagram.Proofs.Unit.Layout

namespace ClassDiagram

open ClassDiagram.Grammar ClassDiagram.Text

/-- A classifier without its members. -/
def Classifier.bare (c : Classifier) : Classifier := { c with attributes := [], operations := [] }

/-- A diagram without members. -/
def View.bare (v : View) : View := { v with classifiers := v.classifiers.map Classifier.bare }

def Site.bare (s : Site) : Site := ⟨s.enclosing.map Header.bare, s.header.bare⟩

/-! ## The sites of bare declarations -/

namespace Declaration

mutual

theorem sites_bare (enclosing : List Header) : ∀ d : Declaration,
    d.bare.sites (enclosing.map Header.bare) = (d.sites enclosing).map Site.bare
  | .node h members => by
    have hmembers := sitesOf_bareAll (enclosing ++ [h]) members
    rw [List.map_append, List.map_cons, List.map_nil] at hmembers
    rw [bare, sites, sites, List.map_cons, hmembers]
    rfl

theorem sitesOf_bareAll (enclosing : List Header) : ∀ ds : List Declaration,
    sitesOf (enclosing.map Header.bare) (bareAll ds) = (sitesOf enclosing ds).map Site.bare
  | [] => rfl
  | d :: ds => by
    rw [bareAll, sitesOf, sitesOf, List.map_append, sites_bare enclosing d, sitesOf_bareAll enclosing ds]

end

end Declaration

theorem CompilationUnit.sites_bare (unit : CompilationUnit) : unit.bare.sites = unit.sites.map Site.bare := by
  unfold CompilationUnit.sites bare
  rw [← Declaration.bareAll_eq_map]
  exact Declaration.sitesOf_bareAll [] unit.types

/-! ## The diagram of bare declarations -/

namespace Extractor

section
variable (x : Extractor)

theorem qualifiedName_bare (s : Site) :
    qualifiedName s.bare.enclosing s.bare.header = qualifiedName s.enclosing s.header := by
  simp [qualifiedName_eq, Site.bare, Header.bare, Function.comp_def]

theorem classifier_bare (s : Site) :
    x.classifier s.bare.enclosing s.bare.header = (x.classifier s.enclosing s.header).bare := by
  unfold classifier Classifier.bare
  rw [qualifiedName_bare]
  rfl

theorem fullNameAt_bare (s : Site) : x.fullNameAt s.bare = x.fullNameAt s := by
  unfold fullNameAt
  rw [classifier_bare]
  rfl

theorem ownership_bare (s : Site) : x.ownership s.bare = x.ownership s := by
  rw [ownership, ownership, owner?_eq, owner?_eq, qualifiedName_bare, fullNameAt_bare]
  simp [Site.bare]

theorem ancestry_bare (imports : ImportTable) (s : Site) : x.ancestry imports s.bare = x.ancestry imports s := by
  unfold ancestry
  rw [fullNameAt_bare]
  rfl

theorem drawing_bare (imports : ImportTable) (ss : List Site) :
    x.drawing imports (ss.map Site.bare) = (x.drawing imports ss).bare := by
  have hfilter : (ss.map Site.bare).filter Site.isClassOrInterface =
      (ss.filter Site.isClassOrInterface).map Site.bare := List.filter_map
  have hclassifiers : (x.drawing imports (ss.map Site.bare)).classifiers = (x.drawing imports ss).bare.classifiers := by
    simp only [drawing, View.bare, hfilter, List.map_map]
    exact List.map_congr_left fun s _ => x.classifier_bare s
  have hrelations : (x.drawing imports (ss.map Site.bare)).relations = (x.drawing imports ss).bare.relations := by
    simp only [drawing, View.bare, hfilter, List.flatMap_map, ownership_bare, ancestry_bare]
  exact congrArg₂ View.mk hclassifiers hrelations

/-- The diagram of the bare declarations is the diagram without members. -/
theorem extract_bare (unit : CompilationUnit) : (x.extract unit.bare).view = (x.extract unit).view.bare := by
  rw [extract_view, extract_view, CompilationUnit.sites_bare]
  exact x.drawing_bare _ unit.sites

end

end Extractor

/-! ## Two sources -/

/-- Diagrams that are the same without members have the same classifiers by name and kind, and the same
relations. -/
theorem View.eq_of_bare_eq {v w : View} (h : v.bare = w.bare) :
    v.classifiers.map (fun c => (c.name, c.kind)) = w.classifiers.map (fun c => (c.name, c.kind)) ∧
      v.relations = w.relations := by
  have hbare : ∀ u : View, u.classifiers.map (fun c => (c.name, c.kind)) =
      u.bare.classifiers.map fun c => (c.name, c.kind) := by
    intro u
    simp [View.bare, Classifier.bare, Function.comp_def]
  constructor
  · rw [hbare v, hbare w, h]
  · show v.bare.relations = w.bare.relations
    rw [h]

section
variable {text text' : List Char} {tree tree' : Tree} {file file' : String} {unit unit' : CompilationUnit}

theorem Extractor.bare_extract_congr (x : Extractor) (hunit : CompilationUnit.ofTree file text tree = .ok unit)
    (hunit' : CompilationUnit.ofTree file' text' tree' = .ok unit')
    (h : Tree.wordings text tree.children = Tree.wordings text' tree'.children)
    (htidy : Tidy text tree) (htidy' : Tidy text' tree') :
    (x.extract unit).view.bare = (x.extract unit').view.bare := by
  rw [← x.extract_bare, ← x.extract_bare, CompilationUnit.bare_congr hunit hunit' h htidy htidy']

/-- Tidy sources of the same wording have the same classifiers by name and kind, and the same relations,
whatever else stands between their words. -/
theorem Extractor.extract_of_tidy (x : Extractor) (hunit : CompilationUnit.ofTree file text tree = .ok unit)
    (hunit' : CompilationUnit.ofTree file' text' tree' = .ok unit')
    (h : Tree.wordings text tree.children = Tree.wordings text' tree'.children)
    (htidy : Tidy text tree) (htidy' : Tidy text' tree') :
    (x.extract unit).view.classifiers.map (fun c => (c.name, c.kind)) =
        (x.extract unit').view.classifiers.map (fun c => (c.name, c.kind)) ∧
      (x.extract unit).view.relations = (x.extract unit').view.relations :=
  View.eq_of_bare_eq (x.bare_extract_congr hunit hunit' h htidy htidy')

end

/-! ### A source with gaps -/

/-- A source with gaps inside the imported name, inside the name of an interface and inside its type
arguments. -/
def gappedText (i r q : List Char) : List Char :=
  "import d.".toList ++ i ++ "E;class C extends E implements a.".toList ++ r ++ "B<".toList ++ q ++ "X>{}".toList

/-- The node of the comment in a gap, if there is one. -/
def gapNodes (start : Nat) (gap : List Char) : List Tree :=
  if gap.contains '*' then [.leaf (.kind .blockComment) ⟨start, start + gap.length⟩] else []

/-- The tree of the source with gaps that are blank or a comment each. -/
def gappedTree (i r q : List Char) : Tree :=
  -- where the imported `E`, the class, `B` and `X` begin
  let e := 9 + i.length
  let c := e + 2
  let b := c + 31 + r.length
  let y := b + 2 + q.length
  .node none (.kind .program) ⟨0, y + 4⟩ [
    .node none (.kind .importDeclaration) ⟨0, c⟩ [
      .leaf (.word .importWord) ⟨0, 6⟩,
      .node none (.kind .scopedIdentifier) ⟨7, e + 1⟩ ([
        .leaf (.kind .identifier) ⟨7, 8⟩, .leaf (.word .dot) ⟨8, 9⟩] ++ gapNodes 9 i ++ [
        .node (some .name) (.kind .identifier) ⟨e, e + 1⟩ []]),
      .leaf (.word .semicolon) ⟨e + 1, c⟩],
    .node none (.kind .classDeclaration) ⟨c, y + 4⟩ [
      .leaf (.word .classWord) ⟨c, c + 5⟩,
      .node (some .name) (.kind .identifier) ⟨c + 6, c + 7⟩ [],
      .node none (.kind .superclass) ⟨c + 8, c + 17⟩ [
        .leaf (.word .extendsWord) ⟨c + 8, c + 15⟩, .leaf (.kind .typeIdentifier) ⟨c + 16, c + 17⟩],
      .node none (.kind .superInterfaces) ⟨c + 18, y + 2⟩ [
        .leaf (.word .implementsWord) ⟨c + 18, c + 28⟩,
        .node none (.kind .typeList) ⟨c + 29, y + 2⟩ [
          .node none (.kind .genericType) ⟨c + 29, y + 2⟩ [
            .node none (.kind .scopedTypeIdentifier) ⟨c + 29, b + 1⟩ ([
              .leaf (.kind .typeIdentifier) ⟨c + 29, c + 30⟩, .leaf (.word .dot) ⟨c + 30, c + 31⟩] ++
              gapNodes (c + 31) r ++ [.leaf (.kind .typeIdentifier) ⟨b, b + 1⟩]),
            .node none (.kind .typeArguments) ⟨b + 1, y + 2⟩ ([
              .leaf (.word .less) ⟨b + 1, b + 2⟩] ++ gapNodes (b + 2) q ++ [
              .leaf (.kind .typeIdentifier) ⟨y, y + 1⟩, .leaf (.word .greater) ⟨y + 1, y + 2⟩])]]],
      .node (some .body) (.kind .classBody) ⟨y + 2, y + 4⟩ [
        .leaf (.word .openBrace) ⟨y + 2, y + 3⟩, .leaf (.word .closeBrace) ⟨y + 3, y + 4⟩]]]

/-- The declarations of the source with gaps. -/
def gappedUnit? (i r q : List Char) : Except Fault CompilationUnit :=
  CompilationUnit.ofTree "C.java" (gappedText i r q) (gappedTree i r q)

/-- The wordings of the source with gaps. -/
def gappedWordings (i r q : List Char) : List Wording :=
  Tree.wordings (gappedText i r q) (gappedTree i r q).children

/-- A blank inside the name of an interface and a comment inside its type arguments change nothing. -/
theorem Extractor.extract_of_tidy_gapped : ∃ unit unit',
    gappedUnit? [] [' '] ['/', '*', '*', '/'] = .ok unit ∧ gappedUnit? [] [] [] = .ok unit' ∧
    gappedWordings [] [' '] ['/', '*', '*', '/'] = gappedWordings [] [] [] ∧
    Tidy (gappedText [] [' '] ['/', '*', '*', '/']) (gappedTree [] [' '] ['/', '*', '*', '/']) ∧
    Tidy (gappedText [] [] []) (gappedTree [] [] []) ∧
    (extract ⟨"p", {}⟩ unit).view.classifiers.map (fun c => (c.name, c.kind)) =
        (extract ⟨"p", {}⟩ unit').view.classifiers.map (fun c => (c.name, c.kind)) ∧
      (extract ⟨"p", {}⟩ unit).view.relations = (extract ⟨"p", {}⟩ unit').view.relations := by
  have htidy : Tidy (gappedText [] [' '] ['/', '*', '*', '/']) (gappedTree [] [' '] ['/', '*', '*', '/']) :=
    tidy_of_shallow (by decide +kernel)
  have htidy' : Tidy (gappedText [] [] []) (gappedTree [] [] []) := tidy_of_shallow (by decide +kernel)
  have hwordings : gappedWordings [] [' '] ['/', '*', '*', '/'] = gappedWordings [] [] [] := rfl
  obtain ⟨unit, hunit⟩ : ∃ unit, gappedUnit? [] [' '] ['/', '*', '*', '/'] = .ok unit := ⟨_, rfl⟩
  obtain ⟨unit', hunit'⟩ : ∃ unit, gappedUnit? [] [] [] = .ok unit := ⟨_, rfl⟩
  exact ⟨unit, unit', hunit, hunit', hwordings, htidy, htidy',
    extract_of_tidy ⟨"p", {}⟩ hunit hunit' hwordings htidy htidy'⟩

/-- The relations of the source with gaps. -/
def gappedRelations? (i r q : List Char) : Option (List Relation) :=
  (gappedUnit? i r q).toOption.map fun unit => (Extractor.extract ⟨"p", {}⟩ unit).view.relations

/-- A blank inside the imported name and a comment inside the name of the interface leave the wording as
it is, but not the relations: the import is not found again, and the comment becomes part of the name. -/
theorem Extractor.extract_gapped_differs :
    (gappedTree [] [] []).Conforms alternatives ∧ (gappedTree [' '] [] []).Conforms alternatives ∧
    (gappedTree [] ['/', '*', '*', '/'] []).Conforms alternatives ∧
    gappedWordings [' '] [] [] = gappedWordings [] [] [] ∧
    gappedWordings [] ['/', '*', '*', '/'] [] = gappedWordings [] [] [] ∧
    gappedRelations? [] [] [] = some [⟨"a.B", "p.C", .realizes⟩, ⟨"d.E", "p.C", .generalizes⟩] ∧
    gappedRelations? [' '] [] [] = some [⟨"a.B", "p.C", .realizes⟩, ⟨"p.E", "p.C", .generalizes⟩] ∧
    gappedRelations? [] ['/', '*', '*', '/'] [] =
      some [⟨"a./**/B", "p.C", .realizes⟩, ⟨"d.E", "p.C", .generalizes⟩] := by
  refine ⟨?_, ?_, ?_, rfl, rfl, ?_, ?_, ?_⟩
  · exact Tree.conforms_of_fits _ (by decide)
  · exact Tree.conforms_of_fits _ (by decide)
  · exact Tree.conforms_of_fits _ (by decide)
  · decide +kernel
  · decide +kernel
  · decide +kernel

end ClassDiagram
