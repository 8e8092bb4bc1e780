/-
The log of an extraction tells what is in the diagram. Declaration by declaration it names what is
recorded, with the number of members that the diagram shows, and then each type that is implemented or
extended; an enum or a record is only passed through. The last line gives the size of the diagram. So the
diagram can be checked against its log: the classifiers and all relations but those of ownership stand in
both, in the same order.
-/
import ClassDiagram.Proofs.Extraction.Ownership
import Mathlib.Data.List.Forall2

namespace ClassDiagram

/-! ## Lines of a log -/

/-- The line for a classifier that is declared on a line of the source. -/
def Classifier.logLine (c : Classifier) (line : Nat) : String :=
  "TRACE" ++ " " ++ (c.kind.name ++
    s!" {c.fullName} (line {line}): {c.attributes.length} fields, {c.operations.length} methods")

/-- The line for a type that is implemented or extended. -/
def Relation.logLine (r : Relation) : String :=
  "TRACE" ++ " " ++ (r.source ++ " " ++ r.kind.name ++ " " ++ r.target)

/-- The line for a declaration that is passed through. -/
def Header.logLine (h : Header) : String :=
  "TRACE" ++ " " ++ ("Descending into " ++ h.kind.label ++ s!" {h.name} (line {h.line}) without modeling it")

/-- The line for a whole diagram. -/
def View.logLine (v : View) (package : String) : String :=
  "DEBUG" ++ " " ++
    s!"Extracted {v.classifiers.length} types and {v.relations.length} relations for package '{package}'"

namespace Event

/-- The relation that an event tells of, if it tells of one. -/
def relation? : Event → Option Relation
  | related r => some r
  | _ => none

def isClassified : Event → Bool
  | classified .. => true
  | _ => false

/-- The event gives a classifier with its kind, its full name and the number of its members. -/
def Announces (e : Event) (c : Classifier) : Prop :=
  ∃ line, e = .classified c.kind c.fullName line c.attributes.length c.operations.length

end Event

namespace Extractor

section
variable (x : Extractor) (imports : ImportTable)

/-! ## One declaration -/

/-- The events on a class or interface, which come together: its own, then one for each type that it
implements and then one for each that it extends. Other declarations have one event. -/
def eventsAt (s : Site) : List Event :=
  if s.header.kind == .classType || s.header.kind == .interfaceType then
    let c := x.classifier s.enclosing s.header
    .classified c.kind c.fullName s.header.line c.attributes.length c.operations.length ::
      ((s.header.implemented.map fun r => .related ⟨imports.resolve x.package r, c.fullName, .realizes⟩) ++
        s.header.extended.map fun r => .related ⟨imports.resolve x.package r, c.fullName, .generalizes⟩)
  else [.descended s.header.kind s.header.name s.header.line]

/-- The lines on a declaration, told from what the diagram shows of it. -/
def linesAt (s : Site) : List String :=
  if s.header.kind == .classType || s.header.kind == .interfaceType then
    (x.classifier s.enclosing s.header).logLine s.header.line ::
      (x.ancestry imports s).map Relation.logLine
  else [s.header.logLine]

theorem eventsAt_of_isClassOrInterface {s : Site} (h : s.isClassOrInterface = true) :
    x.eventsAt imports s = x.classification s :: (x.ancestry imports s).map .related := by
  refine (if_pos h).trans ?_
  simp only [ancestry, relations, List.map_append, List.map_map]
  rfl

theorem eventsAt_of_not_isClassOrInterface {s : Site} (h : s.isClassOrInterface = false) :
    x.eventsAt imports s = [.descended s.header.kind s.header.name s.header.line] :=
  if_neg (Bool.not_eq_true _ ▸ h)

theorem footprint_log (s : Site) : (x.footprint imports s).log = x.eventsAt imports s := by
  cases hs : s.isClassOrInterface with
  | true =>
    rw [eventsAt_of_isClassOrInterface x imports hs]
    simp [footprint, hs, imprint]
  | false =>
    rw [eventsAt_of_not_isClassOrInterface x imports hs]
    simp [footprint, hs]

theorem map_render_eventsAt (s : Site) : (x.eventsAt imports s).map Event.render = x.linesAt imports s := by
  cases hs : s.isClassOrInterface with
  | true =>
    rw [eventsAt_of_isClassOrInterface x imports hs, List.map_cons, List.map_map]
    exact (if_pos hs).symm
  | false =>
    rw [eventsAt_of_not_isClassOrInterface x imports hs]
    exact (if_neg (Bool.not_eq_true _ ▸ hs)).symm

/-- Of the relations of a declaration all are noted but the one that says who owns it. -/
theorem filterMap_relation?_eventsAt {s : Site} (hs : s.isClassOrInterface = true) :
    (x.eventsAt imports s).filterMap Event.relation? =
      (x.ownership s ++ x.ancestry imports s).filter fun r => r.kind != .owns := by
  have howner : (x.ownership s).filter (fun r => r.kind != .owns) = [] := by
    rw [List.filter_eq_nil_iff]
    intro r hr
    obtain ⟨owner, -, rfl⟩ := List.mem_map.1 hr
    simp
  have hancestry : (x.ancestry imports s).filter (fun r => r.kind != .owns) = x.ancestry imports s := by
    rw [List.filter_eq_self]
    intro r hr
    simpa using kind_of_mem_ancestry hr
  rw [List.filter_append, howner, hancestry, List.nil_append, eventsAt_of_isClassOrInterface x imports hs,
    List.filterMap_cons_none rfl, List.filterMap_map]
  exact List.filterMap_some

theorem filter_isClassified_eventsAt {s : Site} (hs : s.isClassOrInterface = true) :
    (x.eventsAt imports s).filter Event.isClassified = [x.classification s] := by
  have hrelated : ((x.ancestry imports s).map Event.related).filter Event.isClassified = [] := by
    rw [List.filter_eq_nil_iff]
    intro e he
    obtain ⟨r, -, rfl⟩ := List.mem_map.1 he
    simp [Event.isClassified]
  rw [eventsAt_of_isClassOrInterface x imports hs, List.filter_cons_of_pos rfl, hrelated]

/-! ## Many declarations -/

theorem footprints_log : ∀ ss : List Site, (x.footprints imports ss).log = ss.flatMap (x.eventsAt imports)
  | [] => rfl
  | s :: ss => by
    rw [footprints, List.flatMap_cons, ← footprint_log, ← footprints_log ss]
    rfl

/-- The events of sites that are not drawn tell of no relation and no classifier. -/
theorem filterMap_relation?_flatMap : ∀ ss : List Site,
    (ss.flatMap (x.eventsAt imports)).filterMap Event.relation? =
      ((ss.filter Site.isClassOrInterface).flatMap fun s => x.ownership s ++ x.ancestry imports s).filter
        fun r => r.kind != .owns
  | [] => rfl
  | s :: ss => by
    rw [List.flatMap_cons, List.filterMap_append, filterMap_relation?_flatMap ss]
    cases hs : s.isClassOrInterface with
    | true =>
      rw [List.filter_cons_of_pos hs, List.flatMap_cons, List.filter_append,
        filterMap_relation?_eventsAt x imports hs]
    | false =>
      rw [List.filter_cons_of_neg (by simp [hs])]
      simp [eventsAt_of_not_isClassOrInterface x imports hs, Event.relation?]

theorem filter_isClassified_flatMap : ∀ ss : List Site,
    (ss.flatMap (x.eventsAt imports)).filter Event.isClassified =
      (ss.filter Site.isClassOrInterface).map x.classification
  | [] => rfl
  | s :: ss => by
    rw [List.flatMap_cons, List.filter_append, filter_isClassified_flatMap ss]
    cases hs : s.isClassOrInterface with
    | true => rw [List.filter_cons_of_pos hs, filter_isClassified_eventsAt x imports hs]; rfl
    | false =>
      rw [List.filter_cons_of_neg (by simp [hs])]
      simp [eventsAt_of_not_isClassOrInterface x imports hs, Event.isClassified]

end

/-! ## A source -/

theorem extract_log (x : Extractor) (unit : CompilationUnit) : (x.extract unit).log =
    unit.sites.flatMap (x.eventsAt (ImportTable.ofImports unit.imports)) ++
      [.extracted (x.extract unit).view.classifiers.length (x.extract unit).view.relations.length x.package] := by
  rw [extract_eq_note]
  show (x.footprints _ unit.sites).log ++ _ = _
  rw [footprints_log]
  rfl

/-- What the log of a diagram says. -/
structure Chronicled (x : Extractor) (unit : CompilationUnit) (s : Sketch) : Prop where
  /-- The events on the declarations, each before those inside it, and a last one. -/
  events : s.log = unit.sites.flatMap (x.eventsAt (ImportTable.ofImports unit.imports)) ++
    [.extracted s.view.classifiers.length s.view.relations.length x.package]
  lines : s.log.map Event.render = unit.sites.flatMap (x.linesAt (ImportTable.ofImports unit.imports)) ++
    [s.view.logLine x.package]
  /-- The relations that are told are those of the diagram, ownership left aside. -/
  relations : s.log.filterMap Event.relation? = s.view.relations.filter fun r => r.kind != .owns
  /-- The classifiers that are told are those of the diagram. -/
  classifiers : List.Forall₂ Event.Announces (s.log.filter Event.isClassified) s.view.classifiers

/-- The log of an extraction is true to its diagram, whatever the source, the package and the policy. -/
theorem extract_chronicled (x : Extractor) (unit : CompilationUnit) : Chronicled x unit (x.extract unit) where
  events := x.extract_log unit
  lines := by
    rw [extract_log, List.map_append, List.map_flatMap]
    congr 1
    exact List.flatMap_congr fun s _ => map_render_eventsAt x _ s
  relations := by
    rw [extract_log, List.filterMap_append, filterMap_relation?_flatMap, extract_relations]
    exact List.append_nil _
  classifiers := by
    rw [extract_log, List.filter_append, filter_isClassified_flatMap, extract_classifiers,
      List.filter_cons_of_neg (by simp [Event.isClassified]), List.filter_nil, List.append_nil,
      List.forall₂_map_left_iff, List.forall₂_map_right_iff]
    exact List.forall₂_same.2 fun s _ => ⟨s.header.line, rfl⟩

end Extractor

end ClassDiagram
