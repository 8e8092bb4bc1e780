/-
What a visit adds to a sketch. A visit only appends, and what it appends depends on the sites that
it passes and not on the sketch: each site leaves a footprint, and a visit leaves the footprints of
the sites in their order.
-/
import ClassDiagram.Extraction
import ClassDiagram.Proofs.Unit.Sites

namespace ClassDiagram

open ClassDiagram.Text

namespace Sketch

/-- All of one sketch, then all of the other. -/
def append (s t : Sketch) : Sketch := ⟨s.view.append t.view, s.log ++ t.log⟩

@[simp] theorem append_empty (s : Sketch) : s.append {} = s := by simp [append, View.append]

@[simp] theorem empty_append (s : Sketch) : append {} s = s := by simp [append, View.append]

theorem append_assoc (s t u : Sketch) : (s.append t).append u = s.append (t.append u) := by
  simp [append, View.append]

theorem note_eq_append (s : Sketch) (e : Event) : s.note e = s.append { log := [e] } := by
  simp [note, append, View.append]

theorem addClassifier_eq_append (s : Sketch) (c : Classifier) :
    s.addClassifier c = s.append { view := { classifiers := [c] } } := by
  simp [addClassifier, View.addClassifier, append, View.append]

theorem addRelation_eq_append (s : Sketch) (r : Relation) :
    s.addRelation r = s.append { view := { relations := [r] } } := by
  simp [addRelation, View.addRelation, append, View.append]

end Sketch

/-! ## Names and owners -/

theorem intercalate_append_dotted (names : List String) (first second : String) :
    ".".intercalate (names ++ [first ++ "." ++ second]) = ".".intercalate (names ++ [first] ++ [second]) := by
  rw [intercalate_concat (List.concat_ne_nil _ _)]
  by_cases h : names = []
  · rw [h]
    rfl
  · rw [intercalate_concat h, intercalate_concat h]
    simp only [String.append_assoc]

/-- The walk puts the names in front, the outermost first, and cuts the whole name for the owner. -/
theorem Identity.walk_eq : ∀ (around : List Header) (found : Identity), found.walk around =
    let name := ".".intercalate (around.reverse.map (·.name) ++ [found.qualifiedName])
    ⟨name, if around.isEmpty then found.owner else (splitLast? name).map (·.1)⟩
  | [], found => by simp [walk]
  | h :: around, found => by
    rw [walk, walk_eq around, List.reverse_cons, List.map_append, List.map_singleton]
    simp only [intercalate_append_dotted, List.isEmpty_cons, Bool.false_eq_true, if_false]
    cases around with
    | nil => simp
    | cons g around => rfl

theorem qualifiedName_eq (enclosing : List Header) (h : Header) :
    qualifiedName enclosing h = ".".intercalate ((enclosing ++ [h]).map (·.name)) := by
  rw [qualifiedName, identify, Identity.walk_eq, List.reverse_reverse, List.map_append]
  rfl

/-- The owner is the qualified name without its last segment. -/
theorem owner?_eq (enclosing : List Header) (h : Header) : owner? enclosing h =
    if enclosing.isEmpty then none else (splitLast? (qualifiedName enclosing h)).map (·.1) := by
  rw [qualifiedName, owner?, identify, Identity.walk_eq, List.isEmpty_reverse]

namespace Extractor

section
variable (x : Extractor) (imports : ImportTable)

/-! ## One declaration -/

theorem qualifiedName_eq_intercalate (s : Site) :
    qualifiedName s.enclosing s.header = ".".intercalate s.path := by
  simp [qualifiedName_eq, Site.path, Site.scope]

/-- The relations of one kind from what the references resolve to. -/
def relations (kind : RelationKind) (target : String) (references : List TypeReference) : List Relation :=
  references.map fun r => ⟨imports.resolve x.package r, target, kind⟩

theorem relate_eq_append (kind : RelationKind) (target : String) :
    ∀ (references : List TypeReference) (s : Sketch), x.relate imports kind target references s =
      s.append ⟨{ relations := x.relations imports kind target references },
        (x.relations imports kind target references).map .related⟩
  | [], s => by simp [relate, relations]
  | r :: rs, s => by
    have ih := relate_eq_append kind target rs
    unfold relate at ih ⊢
    rw [List.foldl_cons, ih]
    simp [relations, Sketch.note_eq_append, Sketch.addRelation_eq_append, Sketch.append, View.append]

/-- The full name of the declaration at a site. -/
def fullNameAt (s : Site) : String := (x.classifier s.enclosing s.header).fullName

/-- The relation that says who owns the declaration at a site, if it stands inside another. -/
def ownership (s : Site) : List Relation :=
  (owner? s.enclosing s.header).toList.map fun owner => ⟨qualify x.package owner, x.fullNameAt s, .owns⟩

/-- The relations of the types that the declaration at a site implements and then of those that it
extends. -/
def ancestry (s : Site) : List Relation :=
  x.relations imports .realizes (x.fullNameAt s) s.header.implemented ++
    x.relations imports .generalizes (x.fullNameAt s) s.header.extended

/-- The event for the classifier at a site. -/
def classification (s : Site) : Event :=
  .classified s.header.classifierKind (x.fullNameAt s) s.header.line (x.attributes s.header).length
    (x.operations s.header).length

/-- What the record of a class or interface adds to a sketch. -/
def imprint (s : Site) : Sketch where
  view := ⟨[x.classifier s.enclosing s.header], x.ownership s ++ x.ancestry imports s⟩
  log := x.classification s :: (x.ancestry imports s).map .related

theorem record_eq_append (enclosing : List Header) (h : Header) (s : Sketch) :
    x.record imports enclosing h s = s.append (x.imprint imports ⟨enclosing, h⟩) := by
  unfold record imprint
  simp only [relate_eq_append, Sketch.note_eq_append, Sketch.addClassifier_eq_append]
  cases ho : owner? enclosing h with
  | none =>
    simp [Sketch.append, View.append, ownership, ancestry, ho, fullNameAt, classification, classifier]
  | some owner =>
    simp [Sketch.addRelation_eq_append, Sketch.append, View.append, ownership, ancestry, ho, fullNameAt,
      classification, classifier]

/-- What the visit of a site adds to a sketch; what stands inside it is left aside. -/
def footprint (s : Site) : Sketch :=
  if s.isClassOrInterface then x.imprint imports s
  else { log := [.descended s.header.kind s.header.name s.header.line] }

/-! ## Many declarations -/

/-- What the visits of some sites add, one after the other. -/
def footprints : List Site → Sketch
  | [] => {}
  | s :: ss => (x.footprint imports s).append (footprints ss)

theorem footprints_append : ∀ (ss ts : List Site),
    x.footprints imports (ss ++ ts) = (x.footprints imports ss).append (x.footprints imports ts)
  | [], ts => by simp [footprints]
  | s :: ss, ts => by
    rw [List.cons_append, footprints, footprints, footprints_append ss ts, Sketch.append_assoc]

theorem footprints_classifiers : ∀ (ss : List Site), (x.footprints imports ss).view.classifiers =
    (ss.filter Site.isClassOrInterface).map fun s => x.classifier s.enclosing s.header
  | [] => rfl
  | s :: ss => by
    cases hs : s.isClassOrInterface <;>
      simp [footprints, footprint, imprint, Sketch.append, View.append, hs, footprints_classifiers ss]

theorem footprints_relations : ∀ (ss : List Site), (x.footprints imports ss).view.relations =
    (ss.filter Site.isClassOrInterface).flatMap fun s => x.ownership s ++ x.ancestry imports s
  | [] => rfl
  | s :: ss => by
    cases hs : s.isClassOrInterface <;>
      simp [footprints, footprint, imprint, Sketch.append, View.append, hs, footprints_relations ss]

/-- The diagram of some sites: a classifier and a block of relations for each class or interface, in
turn. -/
def drawing (ss : List Site) : View where
  classifiers := (ss.filter Site.isClassOrInterface).map fun s => x.classifier s.enclosing s.header
  relations := (ss.filter Site.isClassOrInterface).flatMap fun s => x.ownership s ++ x.ancestry imports s

theorem drawing_append (ss ts : List Site) :
    x.drawing imports (ss ++ ts) = (x.drawing imports ss).append (x.drawing imports ts) := by
  simp [drawing, View.append]

theorem footprints_view (ss : List Site) : (x.footprints imports ss).view = x.drawing imports ss := by
  show View.mk _ _ = View.mk _ _
  rw [footprints_classifiers, footprints_relations]

mutual

/-- A visit leaves the footprints of the declaration and of all those inside it. -/
theorem visit_eq_append (enclosing : List Header) : ∀ (d : Declaration) (s : Sketch),
    x.visit imports enclosing d s = s.append (x.footprints imports (d.sites enclosing))
  | .node h members, s => by
    rw [visit, visitAll_eq_append (enclosing ++ [h]) members, Declaration.sites, footprints,
      ← Sketch.append_assoc]
    congr 1
    rw [DeclarationKind.isModeled_eq]
    unfold footprint Site.isClassOrInterface
    by_cases hm : h.kind.isClassOrInterface = true
    · simp only [hm, if_true]
      exact record_eq_append x imports enclosing h s
    · simp only [hm]
      exact Sketch.note_eq_append s _

theorem visitAll_eq_append (enclosing : List Header) : ∀ (ds : List Declaration) (s : Sketch),
    x.visitAll imports enclosing ds s = s.append (x.footprints imports (Declaration.sitesOf enclosing ds))
  | [], s => by simp [visitAll, Declaration.sitesOf, footprints]
  | d :: ds, s => by
    rw [visitAll, visit_eq_append enclosing d, visitAll_eq_append enclosing ds, Declaration.sitesOf,
      footprints_append, Sketch.append_assoc]

end

end

/-! ## A source -/

/-- A source leaves the footprints of all its declarations and a last event. -/
theorem extract_eq_note (x : Extractor) (unit : CompilationUnit) :
    x.extract unit = let s := x.footprints (ImportTable.ofImports unit.imports) unit.sites
      s.note (.extracted s.view.classifiers.length s.view.relations.length x.package) := by
  unfold extract CompilationUnit.sites
  rw [visitAll_eq_append, Sketch.empty_append]

theorem extract_classifiers (x : Extractor) (unit : CompilationUnit) :
    (x.extract unit).view.classifiers =
      (unit.sites.filter Site.isClassOrInterface).map fun s => x.classifier s.enclosing s.header := by
  rw [extract_eq_note]
  exact footprints_classifiers x _ unit.sites

theorem extract_relations (x : Extractor) (unit : CompilationUnit) :
    (x.extract unit).view.relations = (unit.sites.filter Site.isClassOrInterface).flatMap fun s =>
      x.ownership s ++ x.ancestry (ImportTable.ofImports unit.imports) s := by
  rw [extract_eq_note]
  exact footprints_relations x _ unit.sites

theorem extract_view (x : Extractor) (unit : CompilationUnit) :
    (x.extract unit).view = x.drawing (ImportTable.ofImports unit.imports) unit.sites := by
  rw [extract_eq_note]
  exact footprints_view x _ unit.sites

end Extractor

end ClassDiagram
