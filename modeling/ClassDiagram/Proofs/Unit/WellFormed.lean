/-
What holds of every source that is read off a tree of the grammar. A class extends at most one type, an
interface implements none, and an enum or a record does neither. Every field declares a variable, every
declaration has a name without dots and a line, every import is named by the last segment of what it
imports, and the types that are referred to have names without white space and angle brackets, of which
the last segment holds no dot. Of the words of the tree it is only asked that identifiers are not empty
and hold no dot.
-/
import ClassDiagram.Proofs.Unit.Correspondence
import ClassDiagram.Proofs.Unit.Sites

namespace ClassDiagram

open ClassDiagram.Grammar ClassDiagram.Text

/-! ## The invariant -/

/-- No white space and no angle brackets. -/
def Text.Unbroken (s : String) : Prop := ∀ c ∈ s.toList, isWhiteSpace c = false ∧ c ≠ '<' ∧ c ≠ '>'

structure TypeReference.WellFormed (r : TypeReference) : Prop where
  dotFree : DotFree r.name
  unbroken : Unbroken r.name
  qualifier : ∀ q ∈ r.qualifier, Unbroken q

/-- The name is what follows the last dot of the imported name, which may have none. -/
structure ImportDeclaration.WellFormed (i : ImportDeclaration) : Prop where
  dotFree : DotFree i.name
  last : i.qualifiedName = i.name ∨ ∃ before, i.qualifiedName = before ++ "." ++ i.name

structure Header.WellFormed (h : Header) : Prop where
  named : h.name ≠ ""
  dotFree : DotFree h.name
  line : 1 ≤ h.line
  /-- A class extends at most one type. -/
  superclass : h.kind = .classType → h.extended.length ≤ 1
  /-- Only a class implements types. -/
  implemented : h.kind ≠ .classType → h.implemented = []
  /-- Enums and records extend no types. -/
  extended : h.kind = .enumType ∨ h.kind = .recordType → h.extended = []
  fields : ∀ f ∈ h.fields, f.declared ≠ []
  references : ∀ r ∈ h.implemented ++ h.extended, r.WellFormed

/-- The invariant of a source, at every depth. -/
structure CompilationUnit.WellFormed (unit : CompilationUnit) : Prop where
  imports : ∀ i ∈ unit.imports, i.WellFormed
  headers : ∀ s ∈ unit.sites, s.header.WellFormed

/-! ## Names of types -/

/-- Stripping leaves neither white space nor angle brackets. -/
theorem of_mem_stripFrom {c : Char} : ∀ {cs : List Char} {depth : Nat}, c ∈ stripFrom depth cs →
    isWhiteSpace c = false ∧ c ≠ '<' ∧ c ≠ '>'
  | d :: cs, depth, h => by
    rw [stripFrom] at h
    split at h
    · exact of_mem_stripFrom h
    · rename_i hopen
      split at h
      · exact of_mem_stripFrom h
      · rename_i hclose
        split at h
        · rename_i hkept
          rcases List.mem_cons.1 h with rfl | h
          · simp only [Bool.and_eq_true, Bool.not_eq_true'] at hkept
            exact ⟨hkept.2, by simpa using hopen, by simpa using hclose⟩
          · exact of_mem_stripFrom h
        · exact of_mem_stripFrom h

theorem unbroken_stripTypeArguments (s : String) : Unbroken (stripTypeArguments s) := by
  intro c hc
  rw [stripTypeArguments, String.toList_ofList] at hc
  exact of_mem_stripFrom hc

/-- The reference that an unbroken name denotes. -/
theorem TypeReference.wellFormed_ofDotted {name : String} (h : Unbroken name) : (ofDotted name).WellFormed := by
  unfold ofDotted
  cases hsplit : splitLast? name with
  | none => exact ⟨dotFree_of_splitLast?_eq_none hsplit, h, nofun⟩
  | some parts =>
    obtain ⟨before, last⟩ := parts
    obtain ⟨rfl, hlast⟩ := splitLast?_eq_some_iff.1 hsplit
    have hpart : ∀ c, c ∈ before.toList ∨ c ∈ last.toList → isWhiteSpace c = false ∧ c ≠ '<' ∧ c ≠ '>' := by
      intro c hc
      apply h c
      rcases hc with hc | hc
      · simp [hc]
      · simp [hc]
    refine ⟨hlast, fun c hc => hpart c (.inr hc), ?_⟩
    rintro q ⟨⟩ c hc
    exact hpart c (.inl hc)

section
variable {text : List Char} {t : Tree}

theorem wellFormed_of_reference? {r : TypeReference} (h : reference? text t = some r) : r.WellFormed := by
  unfold reference? at h
  dsimp only at h
  split at h
  · cases h
  · rw [← Option.some.inj h]
    exact TypeReference.wellFormed_ofDotted (unbroken_stripTypeArguments _)

theorem wellFormed_of_superclass? {r : TypeReference} (h : superclass? text t = some r) : r.WellFormed := by
  obtain ⟨clause, -, h⟩ := Option.bind_eq_some_iff.1 h
  obtain ⟨node, -, h⟩ := Option.bind_eq_some_iff.1 h
  exact wellFormed_of_reference? h

theorem wellFormed_of_mem_listedTypes {clause : Kind} {r : TypeReference} (h : r ∈ listedTypes text t clause) :
    r.WellFormed := by
  unfold listedTypes at h
  split at h
  · cases h
  · obtain ⟨n, -, hn⟩ := List.mem_filterMap.1 h
    exact wellFormed_of_reference? hn

theorem wellFormed_of_mem_implementedOf {kind : DeclarationKind} {r : TypeReference}
    (h : r ∈ implementedOf text t kind) : r.WellFormed := by
  unfold implementedOf at h
  split at h
  · exact wellFormed_of_mem_listedTypes h
  · cases h

theorem wellFormed_of_mem_extendedOf {kind : DeclarationKind} {r : TypeReference}
    (h : r ∈ extendedOf text t kind) : r.WellFormed := by
  unfold extendedOf at h
  split at h
  · exact wellFormed_of_superclass? (Option.mem_toList.1 h)
  · exact wellFormed_of_mem_listedTypes h
  · cases h

/-! ## Imports and fields -/

theorem ImportDeclaration.wellFormed_single (qualifiedName : String) : (single qualifiedName).WellFormed := by
  unfold single lastSegment
  cases hsplit : splitLast? qualifiedName with
  | none => exact ⟨dotFree_of_splitLast?_eq_none hsplit, .inl rfl⟩
  | some parts =>
    obtain ⟨hname, hlast⟩ := splitLast?_eq_some_iff.1 hsplit
    exact ⟨hlast, .inr ⟨parts.1, hname⟩⟩

theorem wellFormed_of_import? {i : ImportDeclaration} (h : import? text t = some i) : i.WellFormed := by
  obtain ⟨name, -, hi⟩ := Option.map_eq_some_iff.1 h
  have hsingle := ImportDeclaration.wellFormed_single (textOf text name)
  -- a wildcard has the names of a single import
  have hnames : i.name = (ImportDeclaration.single (textOf text name)).name ∧
      i.qualifiedName = (ImportDeclaration.single (textOf text name)).qualifiedName := by
    rw [← hi]
    dsimp only [ImportDeclaration.wildcard]
    split
    · exact ⟨rfl, rfl⟩
    · exact ⟨rfl, rfl⟩
  constructor
  · rw [hnames.1]
    exact hsingle.dotFree
  · rw [hnames.1, hnames.2]
    exact hsingle.last

theorem declared_ne_nil {f : FieldDeclaration} (h : fieldOf text t = .ok f) : f.declared ≠ [] := by
  unfold fieldOf at h
  split at h
  · cases h
  · dsimp only at h
    split at h
    · cases h
    · rename_i hsome
      cases h
      simpa using hsome

theorem declared_ne_nil_of_mem {cs : List Tree} {fields : List FieldDeclaration} (h : fieldsOf text cs = .ok fields) :
    ∀ f ∈ fields, f.declared ≠ [] := by
  intro f hf
  obtain ⟨c, -, hc⟩ := exists_of_mem_mapM h hf
  exact declared_ne_nil hc

/-! ## Declarations -/

/-- The identifiers inside a node are not empty and hold no dot. -/
def Spelled (text : List Char) (t : Tree) : Prop :=
  ∀ n ∈ t.nodes, n.isKind .identifier = true → textOf text n ≠ "" ∧ DotFree (textOf text n)

theorem Spelled.child {c : Tree} (h : Spelled text t) (hc : c ∈ t.children) : Spelled text c :=
  fun n hn => h n (Tree.mem_nodes_of_child hc hn)

theorem Spelled.member {c : Tree} (h : Spelled text t) (hc : c ∈ memberNodes t) : Spelled text c := by
  obtain ⟨body, hbody, hc | ⟨part, hpart, hc⟩⟩ := exists_of_mem_memberNodes hc
  · exact (h.child hbody).child hc
  · exact ((h.child hbody).child hpart).child hc

/-- The name of a declaration is an identifier. -/
theorem isKind_identifier_of_part? {name : Tree} (h : t.Conforms alternatives) (hd : t.label.declares = true)
    (hname : t.part? .name = some name) : name ∈ t.children ∧ name.isKind .identifier = true := by
  have hbounds : ∀ k ∈ Label.declarations, (Tree.childBounds alternatives
      (fun s => s.role == some .name && s.label != .kind .identifier) k).most = some 0 := by decide
  obtain ⟨k, hk, hl⟩ := Label.exists_of_declares hd
  have hmem := List.mem_of_find?_eq_some hname
  have hrole : (name.role == some .name) = true := List.find?_some (p := fun c : Tree => c.role == some .name) hname
  have hfalse := h.eq_false_of_mem hl (by decide) (hbounds k hk) hmem
  rw [Tree.slot, hrole, Bool.true_and] at hfalse
  exact ⟨hmem, by simpa [Tree.isKind] using hfalse⟩

theorem wellFormed_of_isOf {kind : DeclarationKind} {header : Header} (h : t.Conforms alternatives)
    (hspelled : Spelled text t) (hd : t.label.declares = true) (hheader : header.IsOf text kind t) :
    header.WellFormed := by
  obtain ⟨hname, rfl, -, hline, hfields, -, himplemented, hextended⟩ := hheader
  obtain ⟨name, hname, htext⟩ := Option.map_eq_some_iff.1 hname
  obtain ⟨hmem, hidentifier⟩ := isKind_identifier_of_part? h hd hname
  obtain ⟨hne, hdot⟩ := hspelled name (Tree.mem_nodes_of_child hmem name.self_mem_nodes) hidentifier
  rw [htext] at hne hdot
  refine ⟨hne, hdot, ?_, ?_, ?_, ?_, declared_ne_nil_of_mem hfields, ?_⟩
  · rw [hline]
    exact Nat.le_add_left 1 _
  · intro hkind
    rw [hextended, hkind]
    show (superclass? text t).toList.length ≤ 1
    cases superclass? text t <;> simp
  · intro hkind
    rw [himplemented]
    cases hk : header.kind with
    | classType => exact absurd hk hkind
    | interfaceType => rfl
    | enumType => rfl
    | recordType => rfl
  · intro hkind
    rw [hextended]
    cases hk : header.kind with
    | classType => simp [hk] at hkind
    | interfaceType => simp [hk] at hkind
    | enumType => rfl
    | recordType => rfl
  · intro r hr
    rw [himplemented, hextended] at hr
    rcases List.mem_append.1 hr with hr | hr
    · exact wellFormed_of_mem_implementedOf hr
    · exact wellFormed_of_mem_extendedOf hr

end

/-- A declaration that is read off a tree of the grammar with well spelled identifiers. -/
def IsReadOff (text : List Char) (d : Declaration) : Prop :=
  ∃ t kind, t.Conforms alternatives ∧ Spelled text t ∧ DeclarationKind.ofNode? t = some kind ∧
    declarationOf text kind t = .ok d

section
variable {text : List Char}

theorem isReadOff_of_mem {cs : List Tree} {ds : List Declaration} {d : Declaration}
    (hconforms : ∀ c ∈ cs, c.Conforms alternatives) (hspelled : ∀ c ∈ cs, Spelled text c)
    (h : declarationsAmong text cs = .ok ds) (hd : d ∈ ds) : IsReadOff text d := by
  obtain ⟨i, hi⟩ := List.mem_iff_getElem?.1 hd
  obtain ⟨c, kind, hc, hkind, hread⟩ := getElem?_declarationsAmong h hi
  have hmem := List.mem_of_getElem? hc
  exact ⟨c, kind, hconforms c hmem, hspelled c hmem, hkind, hread⟩

theorem IsReadOff.member {d m : Declaration} (h : IsReadOff text d) (hm : m ∈ d.members) : IsReadOff text m := by
  obtain ⟨t, kind, hconforms, hspelled, hkind, hread⟩ := h
  have hmembers := Members.memberNodes hconforms (DeclarationKind.declares_of_ofNode? hkind)
  exact isReadOff_of_mem hmembers.conforms (fun c hc => hspelled.member hc) (declarationOf_eq_ok_iff.1 hread).2 hm

theorem IsReadOff.wellFormed {d : Declaration} (h : IsReadOff text d) : d.header.WellFormed := by
  obtain ⟨t, kind, hconforms, hspelled, hkind, hread⟩ := h
  exact wellFormed_of_isOf hconforms hspelled (DeclarationKind.declares_of_ofNode? hkind)
    (declarationOf_eq_ok_iff.1 hread).1

end

/-! ## A whole source -/

theorem CompilationUnit.wellFormed_of_ofTree {file : String} {text : List Char} {tree : Tree} {unit : CompilationUnit}
    (hconforms : ∀ c ∈ tree.children, c.Conforms alternatives) (hspelled : Spelled text tree)
    (h : CompilationUnit.ofTree file text tree = .ok unit) : unit.WellFormed := by
  obtain ⟨htypes, himports⟩ := ofTree_eq_ok h
  constructor
  · intro i hi
    rw [himports] at hi
    obtain ⟨c, -, hc⟩ := List.mem_filterMap.1 hi
    exact wellFormed_of_import? hc
  · intro s hs
    obtain ⟨d, hd, hheader⟩ := Declaration.exists_of_mem_sitesOf (fun d hd m hm => IsReadOff.member hd hm) []
      (fun d hd => isReadOff_of_mem hconforms (fun c hc => hspelled.child hc) htypes hd) s hs
    rw [← hheader]
    exact hd.wellFormed

/-- Every program of the grammar with well spelled identifiers is read, and what is read is well formed. -/
theorem CompilationUnit.ofTree_wellFormed (file : String) {text : List Char} {tree : Tree}
    (hprogram : tree.isKind .program = true) (h : tree.Conforms alternatives) (hspelled : Spelled text tree) :
    ∃ unit, CompilationUnit.ofTree file text tree = .ok unit ∧ unit.WellFormed := by
  have hcs : Members tree.children := Members.children h (by decide) (eq_of_beq hprogram)
  obtain ⟨ds, hds⟩ : ∃ ds, declarationsAmong text tree.children = .ok ds := hcs.exists_declarationsAmong
  obtain ⟨unit, hunit⟩ : ∃ unit, CompilationUnit.ofTree file text tree = .ok unit := by
    unfold CompilationUnit.ofTree
    simp only [h.hasFault_eq_false, hds]
    exact ⟨_, rfl⟩
  exact ⟨unit, hunit, wellFormed_of_ofTree hcs.conforms hspelled hunit⟩

/-! ### A source -/

/-- A source with an import, and a class with a blank in the name of the type that it extends. -/
def smallSource : List Char := "import a.B;class C extends a. B<D>{int x;}".toList

/-- The tree of the source. -/
def smallTree : Tree :=
  .node none (.kind .program) ⟨0, 42⟩ [
    .node none (.kind .importDeclaration) ⟨0, 11⟩ [
      .leaf (.word .importWord) ⟨0, 6⟩,
      .node none (.kind .scopedIdentifier) ⟨7, 10⟩ [
        .leaf (.kind .identifier) ⟨7, 8⟩, .leaf (.word .dot) ⟨8, 9⟩,
        .node (some .name) (.kind .identifier) ⟨9, 10⟩ []],
      .leaf (.word .semicolon) ⟨10, 11⟩],
    .node none (.kind .classDeclaration) ⟨11, 42⟩ [
      .leaf (.word .classWord) ⟨11, 16⟩,
      .node (some .name) (.kind .identifier) ⟨17, 18⟩ [],
      .node none (.kind .superclass) ⟨19, 34⟩ [
        .leaf (.word .extendsWord) ⟨19, 26⟩,
        .node none (.kind .genericType) ⟨27, 34⟩ [
          .node none (.kind .scopedTypeIdentifier) ⟨27, 31⟩ [
            .leaf (.kind .typeIdentifier) ⟨27, 28⟩, .leaf (.word .dot) ⟨28, 29⟩,
            .leaf (.kind .typeIdentifier) ⟨30, 31⟩],
          .node none (.kind .typeArguments) ⟨31, 34⟩ [
            .leaf (.word .less) ⟨31, 32⟩, .leaf (.kind .typeIdentifier) ⟨32, 33⟩,
            .leaf (.word .greater) ⟨33, 34⟩]]],
      .node (some .body) (.kind .classBody) ⟨34, 42⟩ [
        .leaf (.word .openBrace) ⟨34, 35⟩,
        .node none (.kind .fieldDeclaration) ⟨35, 41⟩ [
          .node (some .type) (.kind .integralType) ⟨35, 38⟩ [.leaf (.word .intWord) ⟨35, 38⟩],
          .node (some .declarator) (.kind .variableDeclarator) ⟨39, 40⟩ [
            .node (some .name) (.kind .identifier) ⟨39, 40⟩ []],
          .leaf (.word .semicolon) ⟨40, 41⟩],
        .leaf (.word .closeBrace) ⟨41, 42⟩]]]

theorem CompilationUnit.ofTree_wellFormed_smallTree :
    smallTree.isKind .program = true ∧ smallTree.Conforms alternatives ∧ Spelled smallSource smallTree ∧
      ∃ unit, CompilationUnit.ofTree "C.java" smallSource smallTree = .ok unit ∧ unit.WellFormed ∧
        unit.imports = [⟨"B", "a.B", false, false⟩] ∧
        unit.types.map (·.header.name) = ["C"] ∧
        unit.types.map (·.header.extended) = [[⟨"B", some "a"⟩]] ∧
        unit.types.map (fun d => d.header.fields.map (·.declared)) = [[[⟨"int", "x"⟩]]] := by
  have hprogram : smallTree.isKind .program = true := by decide
  have hconforms : smallTree.Conforms alternatives := Tree.conforms_of_fits smallTree (by decide)
  have hspelled : Spelled smallSource smallTree := by
    unfold Spelled
    decide +kernel
  obtain ⟨unit, hunit, hwell⟩ := ofTree_wellFormed "C.java" hprogram hconforms hspelled
  refine ⟨hprogram, hconforms, hspelled, unit, hunit, hwell, ?_⟩
  cases hunit
  decide +kernel

end ClassDiagram
