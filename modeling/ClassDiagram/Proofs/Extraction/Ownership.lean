/-
Who owns whom in the diagram of a source. Every relation leads to a classifier of the diagram. A
nested class or interface is owned by what directly contains it: a class or interface that was drawn
before it, or an enum or a record, which is not drawn. The name of the owner is the name of what it
owns without the last segment, so an owner's name is shorter, each name has one owner at most and no
chain of owners comes back to where it began.
-/
import ClassDiagram.Proofs.Extraction.Outline
import Mathlib.Logic.Relation

namespace ClassDiagram

open ClassDiagram.Text

/-! ## Containers -/

namespace Site

/-- Whether the declaration stands inside another one. -/
def isNested (s : Site) : Bool := !s.enclosing.isEmpty

/-- The declaration that directly contains this one. -/
def container? (s : Site) : Option Site := s.enclosing.getLast?.map fun h => ⟨s.enclosing.dropLast, h⟩

theorem path_of_container? {s c : Site} (h : s.container? = some c) : c.path = s.scope := by
  obtain ⟨g, hg, rfl⟩ := Option.map_eq_some_iff.1 h
  have hlast : s.enclosing = s.enclosing.dropLast ++ [g] := (List.dropLast_append_getLast? g hg).symm
  calc Site.path ⟨s.enclosing.dropLast, g⟩
      = (s.enclosing.dropLast ++ [g]).map (·.name) := by simp [path, scope]
    _ = s.scope := by rw [← hlast, scope]

theorem container?_concat (enclosing : List Header) (h g : Header) :
    container? ⟨enclosing ++ [h], g⟩ = some ⟨enclosing, h⟩ := by
  simp [container?]

end Site

namespace Declaration

mutual

/-- What contains a declaration is listed before it, unless it is around the whole list. -/
theorem container_mem_of_sites (enclosing : List Header) : ∀ (d : Declaration) (before : List Site) (s : Site)
    (after : List Site), d.sites enclosing = before ++ s :: after →
    s.enclosing = enclosing ∨ ∃ c ∈ before, s.container? = some c
  | .node h members, [], s, after, hs => by
    rw [sites, List.nil_append] at hs
    obtain ⟨rfl, -⟩ := List.cons.inj hs
    exact .inl rfl
  | .node h members, b :: before, s, after, hs => by
    rw [sites, List.cons_append] at hs
    obtain ⟨rfl, hrest⟩ := List.cons.inj hs
    right
    rcases container_mem_of_sitesOf (enclosing ++ [h]) members before s after hrest with he | ⟨c, hc, hcs⟩
    · refine ⟨⟨enclosing, h⟩, List.mem_cons_self .., ?_⟩
      obtain ⟨e, g⟩ := s
      rw [show e = enclosing ++ [h] from he]
      exact Site.container?_concat enclosing h g
    · exact ⟨c, List.mem_cons_of_mem _ hc, hcs⟩

theorem container_mem_of_sitesOf (enclosing : List Header) : ∀ (ds : List Declaration) (before : List Site)
    (s : Site) (after : List Site), sitesOf enclosing ds = before ++ s :: after →
    s.enclosing = enclosing ∨ ∃ c ∈ before, s.container? = some c
  | [], before, s, after, hs => by simp [sitesOf] at hs
  | d :: ds, before, s, after, hs => by
    rw [sitesOf] at hs
    rcases List.append_eq_append_iff.1 hs with ⟨mid, rfl, hrest⟩ | ⟨mid, hd, hrest⟩
    · -- the declaration is found among the later siblings
      rcases container_mem_of_sitesOf enclosing ds mid s after hrest with he | ⟨c, hc, hcs⟩
      · exact .inl he
      · exact .inr ⟨c, List.mem_append_right _ hc, hcs⟩
    · cases mid with
      | nil =>
        rcases container_mem_of_sitesOf enclosing ds [] s after hrest.symm with he | ⟨c, hc, -⟩
        · exact .inl he
        · cases hc
      | cons t mid =>
        obtain ⟨rfl, -⟩ := List.cons.inj hrest
        exact container_mem_of_sites enclosing d before s mid hd

end

end Declaration

/-- In the list of all declarations, what contains a declaration comes before it. -/
theorem CompilationUnit.container_mem {unit : CompilationUnit} {before after : List Site} {s : Site}
    (hs : unit.sites = before ++ s :: after) (hn : s.isNested = true) : ∃ c ∈ before, s.container? = some c := by
  rcases Declaration.container_mem_of_sitesOf [] unit.types before s after hs with he | hc
  · simp [Site.isNested, he] at hn
  · exact hc

/-! ## Dotted names of owners -/

namespace Text

theorem qualify_append_dot (package owner last : String) :
    qualify package (owner ++ "." ++ last) = qualify package owner ++ "." ++ last := by
  unfold qualify
  split
  · rfl
  · simp only [String.append_assoc]

/-- A name is cut before its last segment in one way only. -/
theorem owner_unique {owner owner' last last' : String} (h : DotFree last) (h' : DotFree last')
    (heq : owner ++ "." ++ last = owner' ++ "." ++ last') : owner = owner' := by
  have hcut := splitLast?_append owner h
  rw [heq, splitLast?_append owner' h'] at hcut
  exact (Prod.mk.inj (Option.some.inj hcut)).1.symm

end Text

/-! ## Forests of owners -/

/-- One full name owns another in the diagram. -/
def View.Owns (v : View) (owner owned : String) : Prop := ⟨owner, owned, .owns⟩ ∈ v.relations

/-- The relations of the diagram of a source lead to its classifiers, and ownership is a forest. -/
structure View.OwnershipForest (v : View) (package : String) (unit : CompilationUnit) : Prop where
  /-- The target of every relation is drawn. -/
  closed : ∀ r ∈ v.relations, ∃ c ∈ v.classifiers, r.target = c.fullName
  /-- The owner is drawn before what it owns, or it is the enum or record around it. -/
  owner : ∀ r ∈ v.relationsOfKind .owns, ∃ before c after, v.classifiers = before ++ c :: after ∧
    r.target = c.fullName ∧
    ((∃ o ∈ before, r.source = o.fullName) ∨
      ∃ s ∈ unit.sites, ∃ e ∈ unit.sites, c.name = ".".intercalate s.path ∧ s.container? = some e ∧
        (e.header.kind = .enumType ∨ e.header.kind = .recordType) ∧
        r.source = qualify package (".".intercalate e.path))
  /-- What is owned has one segment more in its name. -/
  segment : ∀ r ∈ v.relationsOfKind .owns, ∃ last, DotFree last ∧ r.target = r.source ++ "." ++ last
  /-- No name has two owners. -/
  unique : ∀ r ∈ v.relationsOfKind .owns, ∀ r' ∈ v.relationsOfKind .owns, r.target = r'.target →
    r.source = r'.source
  /-- Nothing owns itself, directly or through others. -/
  acyclic : ∀ name, ¬ Relation.TransGen v.Owns name name
  /-- Each nested class or interface is owned once. -/
  count : (v.relationsOfKind .owns).length = unit.sites.countP fun s => s.isClassOrInterface && s.isNested

theorem View.mem_relationsOfKind {v : View} {kind : RelationKind} {r : Relation} :
    r ∈ v.relationsOfKind kind ↔ r ∈ v.relations ∧ r.kind = kind := by
  simp [relationsOfKind]

/-- Where what is owned has a longer name, no chain of owners comes back. -/
theorem View.not_transGen_owns {v : View}
    (h : ∀ r ∈ v.relationsOfKind .owns, ∃ last, DotFree last ∧ r.target = r.source ++ "." ++ last)
    (name : String) : ¬ Relation.TransGen v.Owns name name := by
  have hstep : ∀ a b, v.Owns a b → a.length < b.length := by
    intro a b hab
    obtain ⟨last, -, htarget⟩ := h ⟨a, b, .owns⟩ (View.mem_relationsOfKind.2 ⟨hab, rfl⟩)
    rw [show b = a ++ "." ++ last from htarget]
    simp only [String.length_append]
    have hdot : ".".length = 1 := rfl
    omega
  have hrun : ∀ {a b}, Relation.TransGen v.Owns a b → a.length < b.length := by
    intro a b hab
    induction hab with
    | single hab => exact hstep _ _ hab
    | tail _ hbc ih => exact Nat.lt_trans ih (hstep _ _ hbc)
  intro hcycle
  exact Nat.lt_irrefl _ (hrun hcycle)

namespace Extractor

/-! ## Ownership in an extracted diagram -/

/-- The relation between a nested declaration and what contains it. -/
def ownsAt (x : Extractor) (s : Site) : Relation :=
  ⟨qualify x.package (".".intercalate s.scope), x.fullNameAt s, .owns⟩

theorem kind_of_mem_ancestry {x : Extractor} {imports : ImportTable} {s : Site} {r : Relation}
    (hr : r ∈ x.ancestry imports s) : r.kind ≠ .owns := by
  simp only [ancestry, relations, List.mem_append, List.mem_map] at hr
  rcases hr with ⟨_, -, rfl⟩ | ⟨_, -, rfl⟩
  · exact RelationKind.noConfusion
  · exact RelationKind.noConfusion

theorem target_of_mem_block {x : Extractor} {imports : ImportTable} {s : Site} {r : Relation}
    (hr : r ∈ x.ownership s ++ x.ancestry imports s) : r.target = x.fullNameAt s := by
  simp only [ownership, ancestry, relations, List.mem_append, List.mem_map] at hr
  rcases hr with ⟨_, -, rfl⟩ | ⟨_, -, rfl⟩ | ⟨_, -, rfl⟩
  · rfl
  · rfl
  · rfl

/-- Of a block of relations, only the first one says who owns the declaration. -/
theorem filter_owns_block (x : Extractor) (imports : ImportTable) {s : Site} (hn : DotFree s.header.name) :
    (x.ownership s ++ x.ancestry imports s).filter (·.kind == .owns) =
      if s.isNested then [x.ownsAt s] else [] := by
  have hancestry : (x.ancestry imports s).filter (·.kind == .owns) = [] := by
    rw [List.filter_eq_nil_iff]
    intro r hr
    simpa using kind_of_mem_ancestry hr
  rw [List.filter_append, hancestry, List.append_nil, ownership_eq x hn]
  by_cases he : s.enclosing = []
  · simp [Site.isNested, he]
  · simp [Site.isNested, he, ownsAt]

/-- The ownership relations of a diagram are those of the nested classes and interfaces in turn. -/
theorem extract_owns (x : Extractor) {unit : CompilationUnit} (h : unit.DotFree) :
    (x.extract unit).view.relationsOfKind .owns =
      (unit.sites.filter fun s => s.isClassOrInterface && s.isNested).map x.ownsAt := by
  have hblocks : ∀ ss : List Site, (∀ s ∈ ss, DotFree s.header.name) →
      ((ss.filter Site.isClassOrInterface).flatMap fun s =>
        x.ownership s ++ x.ancestry (ImportTable.ofImports unit.imports) s).filter (·.kind == .owns) =
      (ss.filter fun s => s.isClassOrInterface && s.isNested).map x.ownsAt := by
    intro ss hss
    induction ss with
    | nil => rfl
    | cons s ss ih =>
      have hs := filter_owns_block x (ImportTable.ofImports unit.imports) (hss s (List.mem_cons_self ..))
      have ih := ih fun t ht => hss t (List.mem_cons_of_mem _ ht)
      by_cases hm : s.isClassOrInterface = true
      · rw [List.filter_cons_of_pos hm, List.flatMap_cons, List.filter_append, hs, ih]
        by_cases hn : s.isNested = true
        · simp [hm, hn]
        · simp [hn]
      · rw [List.filter_cons_of_neg hm, ih, List.filter_cons_of_neg (by simp [hm])]
  unfold View.relationsOfKind
  rw [extract_relations]
  exact hblocks unit.sites h

theorem mem_extract_owns {x : Extractor} {unit : CompilationUnit} (h : unit.DotFree) {r : Relation}
    (hr : r ∈ (x.extract unit).view.relationsOfKind .owns) :
    ∃ s ∈ unit.sites, s.isClassOrInterface = true ∧ s.isNested = true ∧ r = x.ownsAt s := by
  rw [extract_owns x h] at hr
  obtain ⟨s, hs, rfl⟩ := List.mem_map.1 hr
  obtain ⟨hs, hkind⟩ := List.mem_filter.1 hs
  obtain ⟨hm, hn⟩ := Bool.and_eq_true_iff.1 hkind
  exact ⟨s, hs, hm, hn, rfl⟩

theorem ownsAt_segment (x : Extractor) {s : Site} (hn : s.isNested = true) :
    (x.ownsAt s).target = (x.ownsAt s).source ++ "." ++ s.header.name := by
  have hscope : s.scope ≠ [] := by simpa [Site.scope, Site.isNested] using hn
  show x.fullNameAt s = qualify x.package (".".intercalate s.scope) ++ "." ++ s.header.name
  rw [fullNameAt_eq, Site.path, intercalate_concat hscope, qualify_append_dot]

/-- The classifiers before that of a site are those of the sites before it. -/
theorem extract_classifiers_split (x : Extractor) {unit : CompilationUnit} {before after : List Site} {s : Site}
    (hs : unit.sites = before ++ s :: after) (hm : s.isClassOrInterface = true) :
    (x.extract unit).view.classifiers =
      ((before.filter Site.isClassOrInterface).map fun t => x.classifier t.enclosing t.header) ++
        x.classifier s.enclosing s.header ::
          (after.filter Site.isClassOrInterface).map fun t => x.classifier t.enclosing t.header := by
  rw [extract_classifiers, hs, List.filter_append, List.filter_cons_of_pos hm, List.map_append, List.map_cons]

theorem kind_of_not_isClassOrInterface {s : Site} (h : ¬ s.isClassOrInterface = true) :
    s.header.kind = .enumType ∨ s.header.kind = .recordType := by
  unfold Site.isClassOrInterface at h
  cases hk : s.header.kind with
  | classType => simp [hk, DeclarationKind.isClassOrInterface] at h
  | interfaceType => simp [hk, DeclarationKind.isClassOrInterface] at h
  | enumType => exact .inl rfl
  | recordType => exact .inr rfl

/-- In the diagram of a source without dots in names, every relation leads to a classifier and
ownership is a forest. -/
theorem extract_ownershipForest (x : Extractor) (unit : CompilationUnit) (h : unit.DotFree) :
    (x.extract unit).view.OwnershipForest x.package unit := by
  have segment : ∀ r ∈ (x.extract unit).view.relationsOfKind .owns,
      ∃ last, DotFree last ∧ r.target = r.source ++ "." ++ last := by
    intro r hr
    obtain ⟨s, hs, -, hn, rfl⟩ := mem_extract_owns h hr
    exact ⟨s.header.name, h s hs, ownsAt_segment x hn⟩
  refine ⟨?_, ?_, segment, ?_, View.not_transGen_owns segment, ?_⟩
  · intro r hr
    rw [extract_relations] at hr
    obtain ⟨s, hs, hr⟩ := List.mem_flatMap.1 hr
    rw [extract_classifiers]
    exact ⟨_, List.mem_map.2 ⟨s, hs, rfl⟩, target_of_mem_block hr⟩
  · intro r hr
    obtain ⟨s, hs, hm, hn, rfl⟩ := mem_extract_owns h hr
    obtain ⟨before, after, hsplit⟩ := List.append_of_mem hs
    obtain ⟨c, hc, hcontainer⟩ := CompilationUnit.container_mem hsplit hn
    have hsource : (x.ownsAt s).source = qualify x.package (".".intercalate c.path) := by
      rw [Site.path_of_container? hcontainer]
      rfl
    refine ⟨_, _, _, extract_classifiers_split x hsplit hm, rfl, ?_⟩
    by_cases hmc : c.isClassOrInterface = true
    · left
      refine ⟨_, List.mem_map.2 ⟨c, List.mem_filter.2 ⟨hc, hmc⟩, rfl⟩, ?_⟩
      rw [hsource, ← fullNameAt_eq]
      rfl
    · right
      have hcs : c ∈ unit.sites := by
        rw [hsplit]
        exact List.mem_append_left _ hc
      exact ⟨s, hs, c, hcs, qualifiedName_eq_intercalate s, hcontainer, kind_of_not_isClassOrInterface hmc, hsource⟩
  · intro r hr r' hr' htarget
    obtain ⟨last, hlast, hr⟩ := segment r hr
    obtain ⟨last', hlast', hr'⟩ := segment r' hr'
    exact owner_unique hlast hlast' (by rw [← hr, ← hr', htarget])
  · rw [extract_owns x h, List.length_map, List.countP_eq_length_filter]

theorem extract_ownershipForest_twoHelpers :
    CompilationUnit.twoHelpers.DotFree ∧
    (extract ⟨"p", {}⟩ CompilationUnit.twoHelpers).view.relationsOfKind .owns =
      [⟨"p.Red", "p.Red.Helper", .owns⟩, ⟨"p.Red.Helper", "p.Red.Helper.Part", .owns⟩,
        ⟨"p.Blue", "p.Blue.Helper", .owns⟩] ∧
    (extract ⟨"p", {}⟩ CompilationUnit.twoHelpers).view.OwnershipForest "p" CompilationUnit.twoHelpers := by
  have hd : CompilationUnit.twoHelpers.DotFree := by decide
  exact ⟨hd, by decide, extract_ownershipForest ⟨"p", {}⟩ CompilationUnit.twoHelpers hd⟩

end Extractor

end ClassDiagram
