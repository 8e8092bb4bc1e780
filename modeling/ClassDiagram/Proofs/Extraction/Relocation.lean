/-
What becomes of a diagram when its source is moved to another package. The declarations stay what they
are, and the relations too, one by one; only names change. Whatever the source itself declares gets the
package in front: every target, every owner, and the types in clauses that are taken to live in the same
package. A type that is imported, or whose name begins with a package of its own, keeps its name.
-/
import ClassDiagram.Proofs.Extraction.Imports

namespace ClassDiagram

open ClassDiagram.Text

theorem Text.qualify_of_ne {package : String} (h : package ≠ "") (name : String) :
    qualify package name = package ++ "." ++ name := by
  rw [qualify, if_neg (by simpa using h)]

/-! ## References -/

namespace TypeReference

/-- The first segment of the name that was written. -/
def firstSegment (r : TypeReference) : String :=
  match r.qualifier with
  | some qualifier => Text.firstSegment qualifier
  | none => r.name

/-- The reference means the same type in every package: its first segment is imported, or it is qualified
by what cannot be a type. -/
def IsAbsolute (imports : List ImportDeclaration) (r : TypeReference) : Prop :=
  (∃ i ∈ imports, i.isWildcard = false ∧ i.name = r.firstSegment) ∨
    r.qualifier ≠ none ∧ ¬ ImportTable.OpensUpper r.firstSegment

instance (imports : List ImportDeclaration) (r : TypeReference) : Decidable (r.IsAbsolute imports) :=
  inferInstanceAs (Decidable (_ ∨ _))

end TypeReference

namespace ImportTable

theorem get?_ofImports_eq_none_iff {imports : List ImportDeclaration} {name : String} :
    (ofImports imports).get? name = none ↔ ¬ ∃ i ∈ imports, i.isWildcard = false ∧ i.name = name := by
  constructor
  · rintro hnone ⟨i, hi, hsingle, hname⟩
    rw [get?_ofImports_eq_getLast?, Option.map_eq_none_iff, List.getLast?_eq_none_iff] at hnone
    have hmem := ImportDeclaration.mem_singlesOf.2 ⟨hi, hsingle, hname⟩
    rw [hnone] at hmem
    cases hmem
  · intro h
    exact get?_ofImports_eq_none fun i hi hsingle hname => h ⟨i, hi, hsingle, hname⟩

section
variable {imports : List ImportDeclaration} {r : TypeReference}

theorem resolve_of_isAbsolute (h : r.IsAbsolute imports) (package : String) :
    (ofImports imports).resolve package r = (ofImports imports).resolve "" r := by
  obtain ⟨name, qualifier⟩ := r
  cases qualifier with
  | none =>
    rcases h with himported | ⟨hqualified, -⟩
    · cases hget : (ofImports imports).get? name with
      | none => exact absurd himported (get?_ofImports_eq_none_iff.1 hget)
      | some imported => rw [resolve_simple, resolve_simple, hget, Option.getD_some, Option.getD_some]
    · exact absurd rfl hqualified
  | some qualifier =>
    rw [resolve_qualified, resolve_qualified]
    cases hget : (ofImports imports).get? (firstSegment qualifier) with
    | some imported => rfl
    | none =>
      rcases h with himported | ⟨-, hlower⟩
      · exact absurd himported (get?_ofImports_eq_none_iff.1 hget)
      · have hlower : ¬ OpensUpper (firstSegment qualifier) := hlower
        simp only [if_neg hlower]

theorem resolve_of_not_isAbsolute (h : ¬ r.IsAbsolute imports) (package : String) :
    (ofImports imports).resolve package r = qualify package ((ofImports imports).resolve "" r) := by
  obtain ⟨himported, hlocal⟩ := not_or.1 h
  have hget := get?_ofImports_eq_none_iff.2 himported
  obtain ⟨name, qualifier⟩ := r
  cases qualifier with
  | none =>
    rw [resolve_simple, resolve_simple, show (ofImports imports).get? name = none from hget]
    rfl
  | some qualifier =>
    have hget : (ofImports imports).get? (firstSegment qualifier) = none := hget
    have hupper : OpensUpper (firstSegment qualifier) := not_not.1 fun hlower => hlocal ⟨nofun, hlower⟩
    rw [resolve_qualified, resolve_qualified, hget]
    simp only [if_pos hupper]
    rfl

end

end ImportTable

/-! ## What relations are drawn for -/

/-- What ties a declaration to another type. -/
inductive Tie
  /-- It stands inside the other one. -/
  | nested
  /-- It implements what is referred to. -/
  | implementing (r : TypeReference)
  /-- It extends what is referred to. -/
  | extending (r : TypeReference)
  deriving DecidableEq

namespace Tie

def kind : Tie → RelationKind
  | nested => .owns
  | implementing _ => .realizes
  | extending _ => .generalizes

/-- The reference that stands in a clause. -/
def reference? : Tie → Option TypeReference
  | nested => none
  | implementing r | extending r => some r

/-- The relation of a tie in the package without a name, and its relation in another package. -/
structure Moved (package : String) (imports : List ImportDeclaration) (tie : Tie) (d e : Relation) : Prop where
  kind : d.kind = tie.kind ∧ e.kind = tie.kind
  target : e.target = package ++ "." ++ d.target
  owner : tie = nested → e.source = package ++ "." ++ d.source
  absolute : ∀ r ∈ tie.reference?, r.IsAbsolute imports → e.source = d.source
  relative : ∀ r ∈ tie.reference?, ¬ r.IsAbsolute imports → e.source = package ++ "." ++ d.source

end Tie

/-- The ties of a declaration: to what it stands in, to what it implements and to what it extends. -/
def Site.ties (s : Site) : List Tie :=
  (if s.enclosing = [] then [] else [.nested]) ++
    (s.header.implemented.map .implementing ++ s.header.extended.map .extending)

/-- The classes and interfaces of a source with their ties, one after the other. -/
def CompilationUnit.edges (unit : CompilationUnit) : List (Site × Tie) :=
  (unit.sites.filter Site.isClassOrInterface).flatMap fun s => s.ties.map (s, ·)

namespace Extractor

section
variable (x : Extractor) (imports : ImportTable)

/-- The name of what a declaration is tied to. -/
def sourceOf (s : Site) : Tie → String
  | .nested => qualify x.package ((owner? s.enclosing s.header).getD "")
  | .implementing r | .extending r => imports.resolve x.package r

/-- The relation that is drawn for a tie. -/
def relationOf (s : Site) (tie : Tie) : Relation := ⟨x.sourceOf imports s tie, x.fullNameAt s, tie.kind⟩

/-- What stands inside another declaration has an owner, dots in names notwithstanding. -/
theorem exists_owner? {s : Site} (h : s.enclosing ≠ []) : ∃ owner, owner? s.enclosing s.header = some owner := by
  have hscope : s.scope ≠ [] := by simpa [Site.scope] using h
  have hdotted : ¬ DotFree (qualifiedName s.enclosing s.header) := by
    rw [qualifiedName_eq_intercalate, Site.path, intercalate_concat hscope]
    exact not_dotFree_append _ _
  rw [owner?_eq, if_neg (by simpa using h)]
  cases hsplit : splitLast? (qualifiedName s.enclosing s.header) with
  | none => exact absurd (dotFree_of_splitLast?_eq_none hsplit) hdotted
  | some parts => exact ⟨parts.1, rfl⟩

theorem ownership_eq_map (s : Site) :
    x.ownership s = (if s.enclosing = [] then [] else [Tie.nested]).map (x.relationOf imports s) := by
  rw [ownership]
  by_cases he : s.enclosing = []
  · rw [if_pos he, owner?_eq, he]
    rfl
  · obtain ⟨owner, howner⟩ := exists_owner? he
    rw [if_neg he, howner]
    simp [relationOf, sourceOf, howner, Tie.kind]

theorem block_eq_map (s : Site) : x.ownership s ++ x.ancestry imports s = s.ties.map (x.relationOf imports s) := by
  rw [Site.ties, List.map_append, ← ownership_eq_map, ancestry, List.map_append, List.map_map, List.map_map]
  rfl

/-- Every relation of a diagram is drawn for a tie, and the relations follow the ties. -/
theorem extract_relations_eq_map (unit : CompilationUnit) : (x.extract unit).view.relations =
    unit.edges.map fun edge => x.relationOf (ImportTable.ofImports unit.imports) edge.1 edge.2 := by
  rw [extract_relations, CompilationUnit.edges, List.map_flatMap]
  refine List.flatMap_congr fun s _ => ?_
  rw [block_eq_map, List.map_map]
  rfl

end

/-! ## Another package -/

section
variable (policy : Policy) {package : String}

theorem fullNameAt_of_ne (h : package ≠ "") (s : Site) :
    fullNameAt ⟨package, policy⟩ s = package ++ "." ++ fullNameAt ⟨"", policy⟩ s :=
  qualify_of_ne h _

theorem relationOf_moved (h : package ≠ "") (imports : List ImportDeclaration) (s : Site) (tie : Tie) :
    tie.Moved package imports (relationOf ⟨"", policy⟩ (ImportTable.ofImports imports) s tie)
      (relationOf ⟨package, policy⟩ (ImportTable.ofImports imports) s tie) where
  kind := ⟨rfl, rfl⟩
  target := fullNameAt_of_ne policy h s
  owner := by
    rintro rfl
    exact qualify_of_ne h _
  absolute := by
    intro r hr habsolute
    have hresolve := ImportTable.resolve_of_isAbsolute habsolute package
    cases tie with
    | nested => cases hr
    | implementing => cases hr; exact hresolve
    | extending => cases hr; exact hresolve
  relative := by
    intro r hr hrelative
    have hresolve := (ImportTable.resolve_of_not_isAbsolute hrelative package).trans (qualify_of_ne h _)
    cases tie with
    | nested => cases hr
    | implementing => cases hr; exact hresolve
    | extending => cases hr; exact hresolve

/-- Moving a source to a package puts the package in front of names and does nothing else. The classifiers
are the same but for the package. The relations are as many, of the same kinds and in the same order, one for
each tie of a class or interface; each target and each owner has the package in front, and so has what a
clause refers to unless the reference is absolute. -/
theorem extract_relocated (unit : CompilationUnit) (h : package ≠ "") :
    let here := (extract ⟨"", policy⟩ unit).view
    let there := (extract ⟨package, policy⟩ unit).view
    there.classifiers = here.classifiers.map (fun c => { c with packageName := package }) ∧
    here.relations.length = unit.edges.length ∧ there.relations.length = unit.edges.length ∧
    ∀ (i : Nat) (s : Site) (tie : Tie) (d e : Relation), unit.edges[i]? = some (s, tie) →
      here.relations[i]? = some d → there.relations[i]? = some e → tie.Moved package unit.imports d e := by
  intro here there
  have hhere : here.relations = _ := extract_relations_eq_map ⟨"", policy⟩ unit
  have hthere : there.relations = _ := extract_relations_eq_map ⟨package, policy⟩ unit
  refine ⟨?_, by rw [hhere, List.length_map], by rw [hthere, List.length_map], ?_⟩
  · show (extract ⟨package, policy⟩ unit).view.classifiers = (extract ⟨"", policy⟩ unit).view.classifiers.map _
    rw [extract_classifiers, extract_classifiers, List.map_map]
    rfl
  · intro i s tie d e hi hd he
    rw [hhere, List.getElem?_map, hi] at hd
    rw [hthere, List.getElem?_map, hi] at he
    cases hd
    cases he
    exact relationOf_moved policy h unit.imports s tie

end

end Extractor

/-! ### A source with references of every sort -/

namespace CompilationUnit

def referringHeader : Header :=
  { name := "Helper", extended := [{ name := "Inner", qualifier := some "Outer" }],
    implemented := [{ name := "Left" }, { name := "Right" }, { name := "Closeable", qualifier := some "java.io" }] }

/-- A class inside an enum that refers to an imported type, to types of its package and to a type of another
package. -/
def referring : CompilationUnit where
  imports := [.single "q.Left", .wildcard "q.Right"]
  types := [.node { name := "Red", kind := .enumType } [.node referringHeader []]]

end CompilationUnit

section
open CompilationUnit

theorem Extractor.extract_relocated_referring :
    let s : Site := ⟨[{ name := "Red", kind := .enumType }], referringHeader⟩
    "p" ≠ "" ∧ referring.edges = s.ties.map (s, ·) ∧ s.ties.length = 5 ∧
    (extract ⟨"p", {}⟩ referring).view.relations.length = 5 ∧
    (extract ⟨"", {}⟩ referring).view.relations[4]? = some ⟨"Outer.Inner", "Red.Helper", .generalizes⟩ ∧
    ∀ e, (extract ⟨"p", {}⟩ referring).view.relations[4]? = some e →
      Tie.Moved "p" referring.imports (.extending { name := "Inner", qualifier := some "Outer" })
        ⟨"Outer.Inner", "Red.Helper", .generalizes⟩ e := by
  have hpackage : "p" ≠ "" := by decide
  obtain ⟨-, -, hlength, hmoved⟩ := extract_relocated {} referring hpackage
  have hfifth : (extract ⟨"", {}⟩ referring).view.relations[4]? = some ⟨"Outer.Inner", "Red.Helper", .generalizes⟩ := by
    decide
  exact ⟨hpackage, rfl, rfl, hlength, hfifth, fun e he => hmoved 4 _ _ _ e rfl hfifth he⟩

end

end ClassDiagram
