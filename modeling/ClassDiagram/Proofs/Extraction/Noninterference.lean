/-
What of a source has no bearing on its diagram. Sources are alike if they differ at most in the package
that they name, in which imports are static, in the lines of declarations, in the names of parameters,
in the variables of a field after the first, in the modifiers of a class but for `abstract`, in the
modifiers of an interface, and in all that an enum or a record has besides its name and members, be it
even which of the two it is. Sources that are alike have the same diagram, whatever the package and the
policy.
-/
import ClassDiagram.Proofs.Extraction.Footprint
import Mathlib.Data.List.Forall2

namespace ClassDiagram

/-! ## Sources that are alike -/

/-- The same is imported, statically or not. -/
structure ImportDeclaration.Alike (i j : ImportDeclaration) : Prop where
  name : i.name = j.name
  qualifiedName : i.qualifiedName = j.qualifiedName
  isWildcard : i.isWildcard = j.isWildcard

/-- The same field up to its first variable. -/
structure FieldDeclaration.Alike (f g : FieldDeclaration) : Prop where
  modifiers : f.modifiers = g.modifiers
  first : f.declared.head? = g.declared.head?

/-- The same method but for the names of its parameters. -/
structure MethodDeclaration.Alike (m n : MethodDeclaration) : Prop where
  modifiers : m.modifiers = n.modifiers
  returnType : m.returnType = n.returnType
  name : m.name = n.name
  types : m.parameters.map (·.typeName) = n.parameters.map (·.typeName)

/-- The same class or interface but for its line and its modifiers, of which only the `abstract` of a class
counts. -/
structure Header.SameType (g h : Header) : Prop where
  kind : g.kind = h.kind
  isAbstract : g.kind = .classType → g.hasModifier "abstract" = h.hasModifier "abstract"
  fields : List.Forall₂ FieldDeclaration.Alike g.fields h.fields
  methods : List.Forall₂ MethodDeclaration.Alike g.methods h.methods
  implemented : g.implemented = h.implemented
  extended : g.extended = h.extended

/-- Two declarations of the same name, both only scopes, or else the same class or interface. -/
structure Header.Alike (g h : Header) : Prop where
  name : g.name = h.name
  isClassOrInterface : g.kind.isClassOrInterface = h.kind.isClassOrInterface
  sameType : g.kind.isClassOrInterface = true → g.SameType h

namespace Declaration

mutual

/-- Declarations that are alike, with members that are alike. -/
def Alike : Declaration → Declaration → Prop
  | .node g ms, .node h ns => g.Alike h ∧ AlikeAll ms ns

def AlikeAll : List Declaration → List Declaration → Prop
  | [], [] => True
  | d :: ds, e :: es => d.Alike e ∧ AlikeAll ds es
  | _, _ => False

end

end Declaration

/-- Sources with imports and declarations that are alike. -/
structure CompilationUnit.Alike (u v : CompilationUnit) : Prop where
  imports : List.Forall₂ ImportDeclaration.Alike u.imports v.imports
  types : Declaration.AlikeAll u.types v.types

/-! ## Imports -/

/-- Whether imports are static does not show in the table. -/
theorem ImportTable.ofImports_congr {is js : List ImportDeclaration}
    (h : List.Forall₂ ImportDeclaration.Alike is js) : ofImports is = ofImports js := by
  have hkept : List.Forall₂ ImportDeclaration.Alike (is.filter fun i => !i.isWildcard)
      (js.filter fun j => !j.isWildcard) := by
    refine List.rel_filter (fun i j hij => ?_) h
    show (!i.isWildcard) = true ↔ (!j.isWildcard) = true
    rw [hij.isWildcard]
  unfold ofImports
  congr 1
  refine List.rel_foldl (fun entries entries' hentries i j hij => ?_) rfl hkept
  rw [hentries, hij.name, hij.qualifiedName]

/-! ## Sites -/

/-- Sites inside declarations of the same names, of headers that are alike. -/
structure Site.Alike (s t : Site) : Prop where
  scope : s.scope = t.scope
  header : s.header.Alike t.header

namespace Declaration

mutual

theorem Alike.sites {before before' : List Header} (hbefore : before.map (·.name) = before'.map (·.name)) :
    ∀ {d e : Declaration}, d.Alike e → List.Forall₂ Site.Alike (d.sites before) (e.sites before')
  | .node g ms, .node h ns, halike => by
    rw [Declaration.Alike] at halike
    obtain ⟨hheader, hmembers⟩ := halike
    have hinside : (before ++ [g]).map (·.name) = (before' ++ [h]).map (·.name) := by
      simp only [List.map_append, List.map_cons, List.map_nil, hbefore, hheader.name]
    rw [Declaration.sites, Declaration.sites]
    exact .cons ⟨hbefore, hheader⟩ (AlikeAll.sitesOf hinside hmembers)

theorem AlikeAll.sitesOf {before before' : List Header} (hbefore : before.map (·.name) = before'.map (·.name)) :
    ∀ {ds es : List Declaration}, AlikeAll ds es → List.Forall₂ Site.Alike (sitesOf before ds) (sitesOf before' es)
  | [], [], _ => .nil
  | d :: ds, e :: es, halike => by
    rw [AlikeAll] at halike
    obtain ⟨hfirst, hrest⟩ := halike
    rw [Declaration.sitesOf, Declaration.sitesOf]
    exact List.rel_append (hfirst.sites hbefore) (AlikeAll.sitesOf hbefore hrest)

end

end Declaration

/-- Alike sources have alike sites, one by one. -/
theorem CompilationUnit.Alike.sites {u v : CompilationUnit} (h : u.Alike v) :
    List.Forall₂ Site.Alike u.sites v.sites :=
  Declaration.AlikeAll.sitesOf rfl h.types

namespace Site.Alike

variable {s t : Site}

theorem path (h : s.Alike t) : s.path = t.path := by
  rw [Site.path, Site.path, h.scope, h.header.name]

theorem isClassOrInterface (h : s.Alike t) : s.isClassOrInterface = t.isClassOrInterface := h.header.isClassOrInterface

theorem isEmpty_enclosing (h : s.Alike t) : s.enclosing.isEmpty = t.enclosing.isEmpty := by
  have hscope := congrArg List.isEmpty h.scope
  simpa only [Site.scope, List.isEmpty_map] using hscope

end Site.Alike

/-! ## One declaration -/

theorem FieldDeclaration.Alike.attribute? {f g : FieldDeclaration} (h : f.Alike g) : f.attribute? = g.attribute? := by
  unfold FieldDeclaration.attribute? FieldDeclaration.isStatic
  rw [h.modifiers, h.first]

theorem MethodDeclaration.Alike.operation {m n : MethodDeclaration} (h : m.Alike n) : m.operation = n.operation := by
  unfold MethodDeclaration.operation MethodDeclaration.isStatic MethodDeclaration.isAbstract
  rw [h.modifiers, h.returnType, h.name, h.types]

theorem Header.SameType.classifierKind {g h : Header} (hsame : g.SameType h) (hg : g.kind.isClassOrInterface = true) :
    g.classifierKind = h.classifierKind := by
  unfold Header.classifierKind Header.isInterface
  rw [← hsame.kind]
  by_cases hclass : g.kind = .classType
  · rw [hsame.isAbstract hclass]
  · -- what is drawn and no class is an interface, whose modifiers are not looked at
    have hinterface : g.kind = .interfaceType := by
      cases hkind : g.kind with
      | classType => exact absurd hkind hclass
      | interfaceType => rfl
      | enumType => rw [hkind] at hg; cases hg
      | recordType => rw [hkind] at hg; cases hg
    rw [hinterface]
    rfl

namespace Extractor

section
variable (x : Extractor)

theorem attributes_congr {g h : Header} (hfields : List.Forall₂ FieldDeclaration.Alike g.fields h.fields) :
    x.attributes g = x.attributes h := by
  unfold attributes
  generalize g.fields = fs, h.fields = gs at hfields
  induction hfields with
  | nil => rfl
  | cons hfield _ ih =>
    rw [List.filter_cons, List.filter_cons, hfield.modifiers]
    split
    · rw [List.filterMap_cons, List.filterMap_cons, hfield.attribute?, ih]
    · exact ih

theorem operations_congr {g h : Header} (hmethods : List.Forall₂ MethodDeclaration.Alike g.methods h.methods) :
    x.operations g = x.operations h := by
  unfold operations
  generalize g.methods = ms, h.methods = ns at hmethods
  induction hmethods with
  | nil => rfl
  | cons hmethod _ ih =>
    rw [List.filter_cons, List.filter_cons, hmethod.modifiers]
    split
    · rw [List.map_cons, List.map_cons, hmethod.operation, ih]
    · exact ih

variable {s t : Site}

theorem qualifiedName_congr (h : s.Alike t) :
    qualifiedName s.enclosing s.header = qualifiedName t.enclosing t.header := by
  rw [qualifiedName_eq_intercalate, qualifiedName_eq_intercalate, h.path]

theorem classifier_congr (h : s.Alike t) (hs : s.isClassOrInterface = true) :
    x.classifier s.enclosing s.header = x.classifier t.enclosing t.header := by
  have hsame := h.header.sameType hs
  unfold classifier
  rw [qualifiedName_congr h, hsame.classifierKind hs, x.attributes_congr hsame.fields,
    x.operations_congr hsame.methods]

theorem fullNameAt_congr (h : s.Alike t) : x.fullNameAt s = x.fullNameAt t := by
  unfold fullNameAt Classifier.fullName classifier
  rw [qualifiedName_congr h]

theorem ownership_congr (h : s.Alike t) : x.ownership s = x.ownership t := by
  rw [ownership, ownership, owner?_eq, owner?_eq, h.isEmpty_enclosing, qualifiedName_congr h, x.fullNameAt_congr h]

theorem ancestry_congr (imports : ImportTable) (h : s.Alike t) (hs : s.isClassOrInterface = true) :
    x.ancestry imports s = x.ancestry imports t := by
  have hsame := h.header.sameType hs
  unfold ancestry
  rw [x.fullNameAt_congr h, hsame.implemented, hsame.extended]

/-! ## Many declarations -/

theorem drawing_singleton_congr (imports : ImportTable) (h : s.Alike t) :
    x.drawing imports [s] = x.drawing imports [t] := by
  unfold drawing
  cases hs : s.isClassOrInterface with
  | false =>
    have ht : t.isClassOrInterface = false := h.isClassOrInterface.symm.trans hs
    simp only [List.filter_cons, hs, ht, Bool.false_eq_true, if_false]
  | true =>
    have ht : t.isClassOrInterface = true := h.isClassOrInterface.symm.trans hs
    simp only [List.filter_cons, hs, ht, if_true, List.filter_nil, List.map_cons, List.map_nil, List.flatMap_cons,
      List.flatMap_nil, x.classifier_congr h hs, x.ownership_congr h, x.ancestry_congr imports h hs]

theorem drawing_congr (imports : ImportTable) {ss ts : List Site} (h : List.Forall₂ Site.Alike ss ts) :
    x.drawing imports ss = x.drawing imports ts := by
  induction h with
  | nil => rfl
  | @cons s t ss ts hst _ ih =>
    calc x.drawing imports (s :: ss)
        = (x.drawing imports [s]).append (x.drawing imports ss) := x.drawing_append imports [s] ss
      _ = (x.drawing imports [t]).append (x.drawing imports ts) := by rw [x.drawing_singleton_congr imports hst, ih]
      _ = x.drawing imports (t :: ts) := (x.drawing_append imports [t] ts).symm

end

/-- Sources that are alike have the same diagram. -/
theorem extract_view_eq_of_alike {u v : CompilationUnit} (h : u.Alike v) (x : Extractor) :
    (x.extract u).view = (x.extract v).view := by
  rw [extract_view, extract_view, ImportTable.ofImports_congr h.imports]
  exact x.drawing_congr _ h.sites

end Extractor

/-! ### Two versions of a source -/

/-- An enum that encloses a class and an interface. -/
def CompilationUnit.firstVersion : CompilationUnit where
  imports := [.single "q.Left"]
  types := [
    .node { name := "Red", kind := .enumType, line := 2 } [
      .node {
        name := "Helper", modifiers := ["public", "abstract"], implemented := [{ name := "Left" }], line := 3
        fields := [{ modifiers := ["private"], declared := [⟨"int", "a"⟩, ⟨"int[]", "b"⟩] }]
        methods := [{ modifiers := ["static"], returnType := "void", name := "run", parameters := [⟨"int", "n"⟩] }] } [],
      .node { name := "Part", kind := .interfaceType, extended := [{ name := "Right" }], line := 9 } []]]

/-- The same source after many changes that do not show in the diagram. -/
def CompilationUnit.secondVersion : CompilationUnit where
  package := some "z"
  imports := [{ ImportDeclaration.single "q.Left" with isStatic := true }]
  types := [
    .node {
      name := "Red", kind := .recordType, modifiers := ["public"], implemented := [{ name := "Up" }], line := 7
      extended := [{ name := "Down" }], fields := [{ declared := [⟨"int", "c"⟩] }]
      methods := [{ returnType := "int", name := "size" }] } [
      .node {
        name := "Helper", modifiers := ["abstract", "static"], implemented := [{ name := "Left" }], line := 12
        fields := [{ modifiers := ["private"], declared := [⟨"int", "a"⟩] }]
        methods := [{ modifiers := ["static"], returnType := "void", name := "run", parameters := [⟨"int", "m"⟩] }] } [],
      .node {
        name := "Part", kind := .interfaceType, modifiers := ["abstract", "private"], extended := [{ name := "Right" }]
        line := 20 } []]]

theorem CompilationUnit.firstVersion_alike : firstVersion.Alike secondVersion where
  imports := .cons ⟨rfl, rfl, rfl⟩ .nil
  types :=
    have hred := ⟨rfl, rfl, nofun⟩
    have hhelper :=
      ⟨rfl, rfl, fun _ => ⟨rfl, fun _ => rfl, .cons ⟨rfl, rfl⟩ .nil, .cons ⟨rfl, rfl, rfl, rfl⟩ .nil, rfl, rfl⟩⟩
    have hpart := ⟨rfl, rfl, fun _ => ⟨rfl, nofun, .nil, .nil, rfl, rfl⟩⟩
    ⟨⟨hred, ⟨hhelper, trivial⟩, ⟨hpart, trivial⟩, trivial⟩, trivial⟩

theorem Extractor.extract_view_eq_of_alike_versions :
    CompilationUnit.firstVersion.Alike CompilationUnit.secondVersion ∧
      (extract ⟨"p", {}⟩ CompilationUnit.firstVersion).view = (extract ⟨"p", {}⟩ CompilationUnit.secondVersion).view :=
  ⟨CompilationUnit.firstVersion_alike, extract_view_eq_of_alike CompilationUnit.firstVersion_alike ⟨"p", {}⟩⟩

end ClassDiagram
