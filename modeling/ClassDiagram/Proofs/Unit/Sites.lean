/-
The declarations of a source with their places, listed in the order in which they begin: each before
those inside it. A place is told by the path of names that leads to it; where siblings differ in name,
no two declarations of a source have the same path.
-/
import ClassDiagram.Proofs.Text.Dotted
import ClassDiagram.Unit

namespace ClassDiagram

open ClassDiagram.Text

/-- A declaration at its place: the declarations around it, the outermost first, and its own header. -/
structure Site where
  enclosing : List Header
  header : Header
  deriving DecidableEq

/-- Whether this is a class or an interface, which are drawn; an enum or a record is not. -/
def DeclarationKind.isClassOrInterface (kind : DeclarationKind) : Bool := kind == classType || kind == interfaceType

theorem DeclarationKind.isModeled_eq (kind : DeclarationKind) : kind.isModeled = kind.isClassOrInterface := by
  cases kind <;> rfl

namespace Site

def isClassOrInterface (s : Site) : Bool := s.header.kind.isClassOrInterface

/-- The names of the enclosing declarations, the outermost first. -/
def scope (s : Site) : List String := s.enclosing.map (·.name)

/-- The names of the enclosing declarations and the own name. -/
def path (s : Site) : List String := s.scope ++ [s.header.name]

theorem path_ne_nil (s : Site) : s.path ≠ [] := List.concat_ne_nil _ _

end Site

namespace Declaration

mutual

/-- A declaration that stands inside others, and then the declarations inside it. -/
def sites (enclosing : List Header) : Declaration → List Site
  | .node h members => ⟨enclosing, h⟩ :: sitesOf (enclosing ++ [h]) members

def sitesOf (enclosing : List Header) : List Declaration → List Site
  | [] => []
  | d :: ds => d.sites enclosing ++ sitesOf enclosing ds

end

mutual

/-- At every depth inside the declaration, siblings differ in name. -/
def DistinctInside : Declaration → Prop
  | .node _ members => DistinctSiblings members

/-- The declarations differ in name, and so do siblings at every depth inside them. -/
def DistinctSiblings : List Declaration → Prop
  | [] => True
  | d :: ds => d.header.name ∉ ds.map (·.header.name) ∧ d.DistinctInside ∧ DistinctSiblings ds

end

end Declaration

namespace CompilationUnit

/-- All declarations of the source, whatever their kind and depth. -/
def sites (unit : CompilationUnit) : List Site := Declaration.sitesOf [] unit.types

/-- No declaration has a dot in its name. -/
def DotFree (unit : CompilationUnit) : Prop := ∀ s ∈ unit.sites, Text.DotFree s.header.name

instance (unit : CompilationUnit) : Decidable unit.DotFree :=
  inferInstanceAs (Decidable (∀ s ∈ unit.sites, Text.DotFree s.header.name))

/-- Declarations with the same name do not stand side by side. -/
def DistinctSiblings (unit : CompilationUnit) : Prop := Declaration.DistinctSiblings unit.types

/-- An enum and a record that each enclose a class of the same name, one of them with an interface
inside it. -/
def twoHelpers : CompilationUnit where
  imports := [.single "q.Left"]
  types := [
    .node { name := "Red", kind := .enumType } [
      .node { name := "Helper", implemented := [{ name := "Left" }] } [
        .node { name := "Part", kind := .interfaceType } []]],
    .node { name := "Blue", kind := .recordType } [
      .node { name := "Helper", extended := [{ name := "Right" }] } []]]

end CompilationUnit

/-! ## Where a site stands -/

namespace Declaration

mutual

/-- A declaration encloses every declaration inside it: their paths go through it. -/
theorem path_of_mem_sites (enclosing : List Header) : ∀ (d : Declaration), ∀ s ∈ d.sites enclosing,
    ∃ rest, s.path = enclosing.map (·.name) ++ d.header.name :: rest
  | .node h members, s, hs => by
    rcases List.mem_cons.1 hs with rfl | hs
    · exact ⟨[], rfl⟩
    · obtain ⟨d, -, rest, hp⟩ := path_of_mem_sitesOf (enclosing ++ [h]) members s hs
      exact ⟨d.header.name :: rest, by simpa [header] using hp⟩

theorem path_of_mem_sitesOf (enclosing : List Header) : ∀ (ds : List Declaration),
    ∀ s ∈ sitesOf enclosing ds,
    ∃ d ∈ ds, ∃ rest, s.path = enclosing.map (·.name) ++ d.header.name :: rest
  | [], s, hs => by cases hs
  | d :: ds, s, hs => by
    rcases List.mem_append.1 hs with hs | hs
    · exact ⟨d, List.mem_cons_self .., path_of_mem_sites enclosing d s hs⟩
    · obtain ⟨e, he, h⟩ := path_of_mem_sitesOf enclosing ds s hs
      exact ⟨e, List.mem_cons_of_mem _ he, h⟩

end

mutual

/-- If all declarations inside it and those around it have names that satisfy a condition, so has
every path through the declaration. -/
theorem forall_path_of_mem_sites {P : String → Prop} (enclosing : List Header)
    (he : ∀ h ∈ enclosing, P h.name) : ∀ (d : Declaration),
    (∀ s ∈ d.sites enclosing, P s.header.name) → ∀ s ∈ d.sites enclosing, ∀ n ∈ s.path, P n
  | .node h members, hd, s, hs => by
    have hh : P h.name := hd ⟨enclosing, h⟩ (List.mem_cons_self ..)
    rcases List.mem_cons.1 hs with rfl | hs
    · intro n hn
      simp only [Site.path, Site.scope, List.mem_append, List.mem_map, List.mem_singleton] at hn
      rcases hn with ⟨g, hg, rfl⟩ | rfl
      · exact he g hg
      · exact hh
    · have he' : ∀ g ∈ enclosing ++ [h], P g.name := by
        intro g hg
        rcases List.mem_append.1 hg with hg | hg
        · exact he g hg
        · rw [List.mem_singleton.1 hg]; exact hh
      exact forall_path_of_mem_sitesOf (enclosing ++ [h]) he' members
        (fun t ht => hd t (List.mem_cons_of_mem _ ht)) s hs

theorem forall_path_of_mem_sitesOf {P : String → Prop} (enclosing : List Header)
    (he : ∀ h ∈ enclosing, P h.name) : ∀ (ds : List Declaration),
    (∀ s ∈ sitesOf enclosing ds, P s.header.name) → ∀ s ∈ sitesOf enclosing ds, ∀ n ∈ s.path, P n
  | [], _, s, hs => by cases hs
  | d :: ds, hd, s, hs => by
    rcases List.mem_append.1 hs with hs | hs
    · exact forall_path_of_mem_sites enclosing he d (fun t ht => hd t (List.mem_append_left _ ht)) s hs
    · exact forall_path_of_mem_sitesOf enclosing he ds (fun t ht => hd t (List.mem_append_right _ ht)) s hs

end

end Declaration

namespace Declaration

mutual

/-- A condition that is handed down from a declaration to its members holds at every site inside it. -/
theorem exists_of_mem_sites {P : Declaration → Prop} (hP : ∀ d, P d → ∀ m ∈ d.members, P m)
    (enclosing : List Header) : ∀ {d : Declaration}, P d → ∀ s ∈ d.sites enclosing, ∃ e, P e ∧ e.header = s.header
  | .node h members, hd, s, hs => by
    rcases List.mem_cons.1 hs with rfl | hs
    · exact ⟨.node h members, hd, rfl⟩
    · exact exists_of_mem_sitesOf hP (enclosing ++ [h]) (hP _ hd) s hs

theorem exists_of_mem_sitesOf {P : Declaration → Prop} (hP : ∀ d, P d → ∀ m ∈ d.members, P m)
    (enclosing : List Header) : ∀ {ds : List Declaration}, (∀ d ∈ ds, P d) →
    ∀ s ∈ sitesOf enclosing ds, ∃ e, P e ∧ e.header = s.header
  | [], _, s, hs => by cases hs
  | d :: ds, hds, s, hs => by
    rcases List.mem_append.1 hs with hs | hs
    · exact exists_of_mem_sites hP enclosing (hds d (List.mem_cons_self ..)) s hs
    · exact exists_of_mem_sitesOf hP enclosing (fun e he => hds e (List.mem_cons_of_mem _ he)) s hs

end

end Declaration

/-- In a source without dots in names, no path has one. -/
theorem CompilationUnit.DotFree.path {unit : CompilationUnit} (h : unit.DotFree) :
    ∀ s ∈ unit.sites, ∀ n ∈ s.path, Text.DotFree n :=
  Declaration.forall_path_of_mem_sitesOf [] (by simp) unit.types h

/-! ## Distinct paths -/

namespace Declaration

mutual

theorem nodup_paths_sites (enclosing : List Header) : ∀ (d : Declaration), d.DistinctInside →
    ((d.sites enclosing).map Site.path).Nodup
  | .node h members, hd => by
    rw [sites, List.map_cons, List.nodup_cons]
    refine ⟨fun hmem => ?_, nodup_paths_sitesOf (enclosing ++ [h]) members hd⟩
    -- the paths of what is inside are longer
    obtain ⟨s, hs, hp⟩ := List.mem_map.1 hmem
    obtain ⟨d, -, rest, hr⟩ := path_of_mem_sitesOf (enclosing ++ [h]) members s hs
    rw [hp] at hr
    have := congrArg List.length hr
    simp [Site.path, Site.scope] at this

theorem nodup_paths_sitesOf (enclosing : List Header) : ∀ (ds : List Declaration),
    DistinctSiblings ds → ((sitesOf enclosing ds).map Site.path).Nodup
  | [], _ => List.nodup_nil
  | d :: ds, hd => by
    obtain ⟨hnew, hin, hrest⟩ := hd
    rw [sitesOf, List.map_append, List.nodup_append]
    refine ⟨nodup_paths_sites enclosing d hin, nodup_paths_sitesOf enclosing ds hrest, ?_⟩
    -- the paths part at the name of the sibling that they go through
    rintro p hp q hq rfl
    obtain ⟨s, hs, rfl⟩ := List.mem_map.1 hp
    obtain ⟨t, ht, hst⟩ := List.mem_map.1 hq
    obtain ⟨r, hr⟩ := path_of_mem_sites enclosing d s hs
    obtain ⟨e, he, r', hr'⟩ := path_of_mem_sitesOf enclosing ds t ht
    rw [hst, hr] at hr'
    have hn : d.header.name = e.header.name := (List.cons.inj (List.append_cancel_left hr')).1
    exact hnew (hn ▸ List.mem_map.2 ⟨e, he, rfl⟩)

end

end Declaration

/-- Where siblings differ in name, a path leads to one declaration only. -/
theorem CompilationUnit.DistinctSiblings.nodup_paths {unit : CompilationUnit} (h : unit.DistinctSiblings) :
    (unit.sites.map Site.path).Nodup :=
  Declaration.nodup_paths_sitesOf [] unit.types h

end ClassDiagram
