/-
A visit is local. Whatever the sketch holds, the visit of a declaration appends the drawing of the
declaration and of all that is inside it, and nothing else. In the diagram of the whole source this
drawing stands as one piece, after the drawing of what begins before the declaration and before that
of what begins after its end. An address tells where the declaration stands.
-/
import ClassDiagram.Proofs.Extraction.Footprint
import ClassDiagram.Proofs.Unit.Address

namespace ClassDiagram

/-! ## Before and after an address -/

namespace Declaration

/-- The declarations around an address, the outermost first. -/
def around : List Declaration → List Nat → List Header
  | _, [] => []
  | ds, i :: p => if p = [] then [] else ds[i]?.elim [] fun d => d.header :: around d.members p

/-- The sites that begin before an address: those of the earlier siblings of what is on the way down,
and on the way down each declaration itself. -/
def sitesBefore (enclosing : List Header) : List Declaration → List Nat → List Site
  | _, [] => []
  | ds, i :: p => sitesOf enclosing (ds.take i) ++ if p = [] then [] else
      ds[i]?.elim [] fun d => ⟨enclosing, d.header⟩ :: sitesBefore (enclosing ++ [d.header]) d.members p

/-- The sites that begin after the end of what stands at an address: those of the later siblings. -/
def sitesAfter (enclosing : List Header) : List Declaration → List Nat → List Site
  | _, [] => []
  | ds, i :: p => (if p = [] then [] else
      ds[i]?.elim [] fun d => sitesAfter (enclosing ++ [d.header]) d.members p) ++
        sitesOf enclosing (ds.drop (i + 1))

theorem sitesOf_append (enclosing : List Header) : ∀ ds es : List Declaration,
    sitesOf enclosing (ds ++ es) = sitesOf enclosing ds ++ sitesOf enclosing es
  | [], es => rfl
  | d :: ds, es => by
    rw [List.cons_append, sitesOf, sitesOf, sitesOf_append enclosing ds es, List.append_assoc]

theorem sites_eq (enclosing : List Header) (d : Declaration) :
    d.sites enclosing = ⟨enclosing, d.header⟩ :: sitesOf (enclosing ++ [d.header]) d.members := by
  cases d
  rw [sites, header, members]

/-- The sites of siblings, cut at one of them. -/
theorem sitesOf_eq_append (enclosing : List Header) {ds : List Declaration} {i : Nat} {d : Declaration}
    (hi : ds[i]? = some d) : sitesOf enclosing ds =
      sitesOf enclosing (ds.take i) ++ (d.sites enclosing ++ sitesOf enclosing (ds.drop (i + 1))) := by
  obtain ⟨hlt, rfl⟩ := List.getElem?_eq_some_iff.1 hi
  calc sitesOf enclosing ds
      = sitesOf enclosing (ds.take i ++ ds[i] :: ds.drop (i + 1)) := by
        rw [List.getElem_cons_drop, List.take_append_drop]
    _ = _ := by rw [sitesOf_append, sitesOf]

/-- The sites of a declaration lie together, between those before and those after its address. -/
theorem sitesOf_eq_of_locate {enclosing : List Header} {ds : List Declaration} {a : List Nat} {d : Declaration}
    (h : locate members ds a = some d) : sitesOf enclosing ds =
      sitesBefore enclosing ds a ++ (d.sites (enclosing ++ around ds a) ++ sitesAfter enclosing ds a) := by
  induction a generalizing enclosing ds with
  | nil => cases h
  | cons i p ih =>
    obtain ⟨e, he, h⟩ := Option.bind_eq_some_iff.1 h
    rw [sitesOf_eq_append enclosing he]
    by_cases hp : p = []
    · subst hp
      cases h
      simp [sitesBefore, around, sitesAfter]
    · -- one step down: the way goes through `e`, whose own site comes first
      rw [sites_eq, ih (locate_of_descend hp h)]
      simp [sitesBefore, around, sitesAfter, hp, he]

end Declaration

namespace CompilationUnit

/-- The declarations around an address, the outermost first. -/
def around (unit : CompilationUnit) (a : List Nat) : List Header := Declaration.around unit.types a

/-- The sites that begin before an address. -/
def sitesBefore (unit : CompilationUnit) (a : List Nat) : List Site := Declaration.sitesBefore [] unit.types a

/-- The sites that begin after the end of what stands at an address. -/
def sitesAfter (unit : CompilationUnit) (a : List Nat) : List Site := Declaration.sitesAfter [] unit.types a

theorem sites_eq_of_locate {unit : CompilationUnit} {a : List Nat} {d : Declaration}
    (h : locate Declaration.members unit.types a = some d) :
    unit.sites = unit.sitesBefore a ++ (d.sites (unit.around a) ++ unit.sitesAfter a) :=
  Declaration.sitesOf_eq_of_locate h

end CompilationUnit

/-! ## One visit and the whole extraction -/

namespace Extractor

theorem visit_view (x : Extractor) (imports : ImportTable) (enclosing : List Header) (d : Declaration)
    (s : Sketch) :
    (x.visit imports enclosing d s).view = s.view.append (x.drawing imports (d.sites enclosing)) := by
  rw [visit_eq_append, ← footprints_view]
  rfl

/-- The visit of a declaration at an address, with the declarations around it, appends one piece to
whatever the sketch holds, and the piece stands in the diagram of the source in the place of the
declaration: behind what begins before it and ahead of what begins after its end. -/
theorem visit_local (x : Extractor) (unit : CompilationUnit) (a : List Nat) (d : Declaration)
    (h : locate Declaration.members unit.types a = some d) :
    ∃ piece : View,
      (∀ s : Sketch, (x.visit (ImportTable.ofImports unit.imports) (unit.around a) d s).view =
        ⟨s.view.classifiers ++ piece.classifiers, s.view.relations ++ piece.relations⟩) ∧
      (x.extract unit).view.classifiers =
        (x.drawing (ImportTable.ofImports unit.imports) (unit.sitesBefore a)).classifiers ++
          (piece.classifiers ++
            (x.drawing (ImportTable.ofImports unit.imports) (unit.sitesAfter a)).classifiers) ∧
      (x.extract unit).view.relations =
        (x.drawing (ImportTable.ofImports unit.imports) (unit.sitesBefore a)).relations ++
          (piece.relations ++
            (x.drawing (ImportTable.ofImports unit.imports) (unit.sitesAfter a)).relations) ∧
      unit.sites = unit.sitesBefore a ++ (d.sites (unit.around a) ++ unit.sitesAfter a) := by
  have hsites := CompilationUnit.sites_eq_of_locate h
  refine ⟨x.drawing (ImportTable.ofImports unit.imports) (d.sites (unit.around a)),
    fun s => visit_view x _ _ d s, ?_, ?_, hsites⟩
  · rw [extract_view, hsites, drawing_append, drawing_append]
    rfl
  · rw [extract_view, hsites, drawing_append, drawing_append]
    rfl

theorem visit_local_twoHelpers :
    ∃ d, locate Declaration.members CompilationUnit.twoHelpers.types [0, 0] = some d ∧
      (CompilationUnit.twoHelpers.around [0, 0]).map (·.name) = ["Red"] ∧
      ∃ piece : View, piece.classifiers.map (·.name) = ["Red.Helper", "Red.Helper.Part"] ∧
        ∀ s : Sketch, (visit ⟨"p", {}⟩ (ImportTable.ofImports CompilationUnit.twoHelpers.imports)
          (CompilationUnit.twoHelpers.around [0, 0]) d s).view =
            ⟨s.view.classifiers ++ piece.classifiers, s.view.relations ++ piece.relations⟩ := by
  refine ⟨_, rfl, by decide, ?_⟩
  obtain ⟨piece, hvisit, -⟩ := visit_local ⟨"p", {}⟩ CompilationUnit.twoHelpers [0, 0] _ rfl
  refine ⟨piece, ?_, hvisit⟩
  -- the visit that begins with nothing leaves the piece alone
  have hempty := congrArg (fun v => v.classifiers.map (·.name)) (hvisit {})
  exact hempty.symm.trans (by decide)

end Extractor

end ClassDiagram
