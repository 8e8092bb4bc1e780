/-
What a policy does to a diagram. A member is kept or left out before its attribute or operation is
made, by the modifiers that it was declared with; the outcome is as if the diagram with all members
had been made and each member tested by the level that it shows. So a policy takes members away and
changes nothing else, a wider policy only puts members in, and the levels for fields have no bearing
on methods nor those for methods on fields.
-/
import ClassDiagram.Proofs.Extraction.Footprint
import Mathlib.Data.List.Forall2

namespace ClassDiagram

/-- The classifier with the members whose level the policy lets through. -/
def Classifier.restrict (p : Policy) (c : Classifier) : Classifier :=
  { c with
    attributes := c.attributes.filter fun a => p.includesField a.visibility
    operations := c.operations.filter fun o => p.includesMethod o.visibility }

/-- The diagram with the members whose level the policy lets through. -/
def View.restrict (p : Policy) (v : View) : View := { v with classifiers := v.classifiers.map (·.restrict p) }

/-- Every level that one policy lets through, the other does too. -/
structure Policy.Within (p q : Policy) : Prop where
  fields : ∀ level, p.fields level = true → q.fields level = true
  methods : ∀ level, p.methods level = true → q.methods level = true

/-- The same classifier, with members put in. -/
structure Classifier.Grown (c d : Classifier) : Prop where
  packageName : d.packageName = c.packageName
  name : d.name = c.name
  kind : d.kind = c.kind
  attributes : c.attributes.Sublist d.attributes
  operations : c.operations.Sublist d.operations

/-! ## Members -/

/-- A field counts with the level that its attribute shows, if it has an attribute at all. -/
theorem filterMap_attribute?_filter (test : Option Visibility → Bool) : ∀ fields : List FieldDeclaration,
    (fields.filter fun f => test (Visibility.ofModifiers? f.modifiers)).filterMap FieldDeclaration.attribute? =
      (fields.filterMap FieldDeclaration.attribute?).filter fun a => test a.visibility
  | [] => rfl
  | f :: fields => by
    have ih := filterMap_attribute?_filter test fields
    cases hd : f.declared.head? with
    | none =>
      -- a field that declares nothing has no attribute, whether it passes the test or not
      have hnone : f.attribute? = none := by rw [FieldDeclaration.attribute?, hd]; rfl
      rw [List.filterMap_cons_none hnone, ← ih, List.filter_cons]
      split
      · rw [List.filterMap_cons_none hnone]
      · rfl
    | some v =>
      have hsome : f.attribute? = some ⟨Visibility.ofModifiers? f.modifiers, f.isStatic, v.typeName, v.name⟩ := by
        rw [FieldDeclaration.attribute?, hd]; rfl
      rw [List.filterMap_cons_some hsome, List.filter_cons, List.filter_cons]
      split
      · rw [List.filterMap_cons_some hsome, ih]
      · exact ih

theorem map_operation_filter (test : Option Visibility → Bool) (methods : List MethodDeclaration) :
    (methods.filter fun m => test (Visibility.ofModifiers? m.modifiers)).map MethodDeclaration.operation =
      (methods.map MethodDeclaration.operation).filter fun o => test o.visibility := by
  rw [List.filter_map]
  rfl

namespace Extractor

section
variable (package : String) (p : Policy)

theorem attributes_eq_filter (h : Header) : attributes ⟨package, p⟩ h =
    (attributes ⟨package, {}⟩ h).filter fun a => p.includesField a.visibility := by
  have hall : ∀ fields : List FieldDeclaration,
      (fields.filter fun f => Policy.includesField {} (Visibility.ofModifiers? f.modifiers)) = fields :=
    fun fields => List.filter_eq_self.2 fun _ _ => rfl
  unfold attributes
  rw [filterMap_attribute?_filter p.includesField, hall]

theorem operations_eq_filter (h : Header) : operations ⟨package, p⟩ h =
    (operations ⟨package, {}⟩ h).filter fun o => p.includesMethod o.visibility := by
  have hall : ∀ methods : List MethodDeclaration,
      (methods.filter fun m => Policy.includesMethod {} (Visibility.ofModifiers? m.modifiers)) = methods :=
    fun methods => List.filter_eq_self.2 fun _ _ => rfl
  unfold operations
  rw [map_operation_filter p.includesMethod, hall]

theorem classifier_eq_restrict (enclosing : List Header) (h : Header) :
    classifier ⟨package, p⟩ enclosing h = (classifier ⟨package, {}⟩ enclosing h).restrict p := by
  unfold classifier Classifier.restrict
  rw [attributes_eq_filter package p, operations_eq_filter package p]

/-- The relations of the sites do not depend on the policy. -/
theorem drawing_eq_restrict (imports : ImportTable) (ss : List Site) :
    drawing ⟨package, p⟩ imports ss = (drawing ⟨package, {}⟩ imports ss).restrict p := by
  have hc : (drawing ⟨package, p⟩ imports ss).classifiers =
      (drawing ⟨package, {}⟩ imports ss).classifiers.map (·.restrict p) := by
    unfold drawing
    rw [List.map_map]
    exact List.map_congr_left fun s _ => classifier_eq_restrict package p s.enclosing s.header
  calc drawing ⟨package, p⟩ imports ss
      = ⟨(drawing ⟨package, p⟩ imports ss).classifiers, (drawing ⟨package, {}⟩ imports ss).relations⟩ := rfl
    _ = (drawing ⟨package, {}⟩ imports ss).restrict p := by rw [hc]; rfl

theorem extract_eq_restrict (unit : CompilationUnit) :
    (extract ⟨package, p⟩ unit).view = (extract ⟨package, {}⟩ unit).view.restrict p := by
  rw [extract_view, extract_view]
  exact drawing_eq_restrict package p _ unit.sites

end

/-! ## Comparing policies -/

/-- A wider policy keeps every member that the narrower one keeps. -/
theorem restrict_grown {p q : Policy} (h : p.Within q) (c : Classifier) : (c.restrict p).Grown (c.restrict q) := by
  refine ⟨rfl, rfl, rfl, ?_, ?_⟩
  · exact List.monotone_filter_right _ fun a ha => h.fields _ ha
  · exact List.monotone_filter_right _ fun o ho => h.methods _ ho

theorem forall₂_restrict_grown {p q : Policy} (h : p.Within q) : ∀ cs : List Classifier,
    List.Forall₂ Classifier.Grown (cs.map (·.restrict p)) (cs.map (·.restrict q))
  | [] => .nil
  | c :: cs => .cons (restrict_grown h c) (forall₂_restrict_grown h cs)

/-- A policy filters the diagram that shows everything: the members are those that pass by the level
they show, in the same order, and the rest is the same. Hence a wider policy only puts members in, and
attributes depend only on the levels for fields and operations only on those for methods. -/
theorem extract_filters (package : String) (unit : CompilationUnit) :
    (∀ p : Policy, (extract ⟨package, p⟩ unit).view = (extract ⟨package, {}⟩ unit).view.restrict p) ∧
    (∀ p q : Policy, p.Within q →
      List.Forall₂ Classifier.Grown (extract ⟨package, p⟩ unit).view.classifiers
        (extract ⟨package, q⟩ unit).view.classifiers ∧
      (extract ⟨package, q⟩ unit).view.relations = (extract ⟨package, p⟩ unit).view.relations) ∧
    (∀ p q : Policy, p.fields = q.fields →
      (extract ⟨package, p⟩ unit).view.classifiers.map (·.attributes) =
        (extract ⟨package, q⟩ unit).view.classifiers.map (·.attributes)) ∧
    (∀ p q : Policy, p.methods = q.methods →
      (extract ⟨package, p⟩ unit).view.classifiers.map (·.operations) =
        (extract ⟨package, q⟩ unit).view.classifiers.map (·.operations)) := by
  refine ⟨fun p => extract_eq_restrict package p unit, ?_, ?_, ?_⟩
  · intro p q h
    rw [extract_eq_restrict package p, extract_eq_restrict package q]
    exact ⟨forall₂_restrict_grown h _, rfl⟩
  · intro p q h
    rw [extract_eq_restrict package p, extract_eq_restrict package q]
    simp [View.restrict, Classifier.restrict, Policy.includesField, h]
  · intro p q h
    rw [extract_eq_restrict package p, extract_eq_restrict package q]
    simp [View.restrict, Classifier.restrict, Policy.includesMethod, h]

end Extractor

end ClassDiagram
