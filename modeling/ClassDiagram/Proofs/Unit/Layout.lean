/-
Reading two sources that differ in layout only. Nodes of the same wording have parts of the same
wording, so reading two tidy sources of the same wording gives the same imports and the same
declarations, but for the texts of their fields and methods and the lines on which they begin.
-/
import ClassDiagram.Proofs.Unit.Tidy

namespace ClassDiagram

open ClassDiagram.Grammar ClassDiagram.Text

/-! ## Nodes of the same wording -/

theorem exists_of_map_eq_map {α β γ : Type} {f : α → γ} {g : β → γ} {a : Option α} {b : Option β}
    (h : a.map f = b.map g) : (a = none ∧ b = none) ∨ ∃ x y, a = some x ∧ b = some y ∧ f x = g y := by
  cases a with
  | none => exact .inl ⟨rfl, Option.map_eq_none_iff.1 h.symm⟩
  | some x =>
    obtain ⟨y, hy, hxy⟩ := Option.map_eq_some_iff.1 h.symm
    exact .inr ⟨x, y, rfl, hy, hxy.symm⟩

section
variable {text text' : List Char} {t u : Tree}

/-- The nodes picked by a property that no comment has are of the same wordings. -/
theorem map_filter_congr {q : Slot → Bool} (hq : ∀ s ∈ Slot.comments, q s = false) {cs ds : List Tree}
    (h : Tree.wordings text cs = Tree.wordings text' ds) :
    (cs.filter fun c => q c.slot).map (Tree.wording text) =
      (ds.filter fun d => q d.slot).map (Tree.wording text') := by
  have hnone : ∀ c : Tree, c.isComment = true → q c.slot = false :=
    fun c hc => hq c.slot (List.contains_iff_mem.1 hc)
  rw [← List.filterMap_eq_map, ← List.filterMap_eq_map, List.filterMap_filter, List.filterMap_filter]
  refine Tree.filterMap_congr ?_ ?_ h ?_
  · intro c hc
    rw [hnone c hc]
    rfl
  · intro d hd
    rw [hnone d hd]
    rfl
  · intro c _ d _ hcd
    simp only [Function.comp_apply, Tree.slot_eq_of_wording hcd, hcd]

theorem keywordNodes_congr (h : t.wording text = u.wording text') :
    (keywordNodes t).map (Tree.wording text) = (keywordNodes u).map (Tree.wording text') := by
  unfold keywordNodes
  rcases exists_of_map_eq_map (Tree.child?_congr h (k := .modifiers) (by decide)) with
    ⟨ht, hu⟩ | ⟨m, n, ht, hu, hmn⟩
  · rw [ht, hu]
    rfl
  · rw [ht, hu]
    exact map_filter_congr (q := fun s => !s.label.isNamed) (by decide) (Tree.wordings_children hmn)

/-! ### Types in clauses -/

theorem isClassType_congr (h : t.wording text = u.wording text') : isClassType t = isClassType u := by
  simp only [isClassType, Tree.isKind, Tree.label_eq_of_wording h]

theorem classType?_of_isComment {c : Tree} (h : c.isComment = true) : classType? c = none := by
  have hlabel : ∀ s ∈ Slot.comments, s.label ≠ .kind .typeIdentifier ∧ s.label ≠ .kind .scopedTypeIdentifier ∧
      s.label ≠ .kind .genericType ∧ s.label ≠ .kind .annotatedType := by decide
  obtain ⟨h₁, h₂, h₃, h₄⟩ := hlabel c.slot (List.contains_iff_mem.1 h)
  simp only [Tree.slot] at h₁ h₂ h₃ h₄
  simp [classType?, isClassType, Tree.isKind, h₁, h₂, h₃, h₄]

theorem classType?_congr (h : t.wording text = u.wording text') :
    (classType? t).map (Tree.wording text) = (classType? u).map (Tree.wording text') := by
  unfold classType?
  rw [isClassType_congr h]
  split
  · rw [Option.map_some, Option.map_some, h]
  · rw [Tree.isKind, Tree.isKind, Tree.label_eq_of_wording h]
    split
    · refine Tree.find?_congr (q := fun s => s.label == .kind .typeIdentifier ||
        s.label == .kind .scopedTypeIdentifier || s.label == .kind .genericType) (by decide) ?_
      exact Tree.wordings_namedChildren h
    · rfl

/-- The class types among nodes of the same wordings are of the same wordings. -/
theorem map_classTypes_congr (h : t.wording text = u.wording text') :
    (t.namedChildren.filterMap classType?).map (Tree.wording text) =
      (u.namedChildren.filterMap classType?).map (Tree.wording text') := by
  rw [List.map_filterMap, List.map_filterMap]
  refine Tree.filterMap_congr ?_ ?_ (Tree.wordings_namedChildren h) fun c _ d _ hcd => classType?_congr hcd
  · intro c hc
    rw [classType?_of_isComment hc]
    rfl
  · intro d hd
    rw [classType?_of_isComment hd]
    rfl

theorem superclassNode?_congr (h : t.wording text = u.wording text') :
    (superclassNode? t).map (Tree.wording text) = (superclassNode? u).map (Tree.wording text') := by
  unfold superclassNode?
  rcases exists_of_map_eq_map (Tree.child?_congr h (k := .superclass) (by decide)) with
    ⟨ht, hu⟩ | ⟨m, n, ht, hu, hmn⟩
  · rw [ht, hu]
    rfl
  · -- the first class type of the clause
    rw [ht, hu, Option.bind_some, Option.bind_some, ← List.head?_filterMap, ← List.head?_filterMap,
      ← List.head?_map, ← List.head?_map, map_classTypes_congr hmn]

theorem listedNodes_congr (h : t.wording text = u.wording text') {clause : Kind}
    (hc : clause ≠ .lineComment ∧ clause ≠ .blockComment) :
    (listedNodes t clause).map (Tree.wording text) = (listedNodes u clause).map (Tree.wording text') := by
  unfold listedNodes
  rcases exists_of_map_eq_map (Tree.child?_congr h hc) with ⟨ht, hu⟩ | ⟨m, n, ht, hu, hmn⟩
  · rw [ht, hu]
    rfl
  · rw [ht, hu, Option.bind_some, Option.bind_some]
    rcases exists_of_map_eq_map (Tree.child?_congr hmn (k := .typeList) (by decide)) with
      ⟨hm, hn⟩ | ⟨l, l', hm, hn, hll⟩
    · rw [hm, hn]
      rfl
    · rw [hm, hn]
      exact map_classTypes_congr hll

/-! ### Members -/

theorem body_eq (t : Tree) :
    (bodyIndex? t).bind (t.children[·]?) = (t.part? .body <|> t.children.find? isBody) := by
  unfold bodyIndex? Tree.part?
  rw [List.find?_eq_bind_findIdx?_getElem?, List.find?_eq_bind_findIdx?_getElem?]
  cases hp : t.children.findIdx? (·.role == some .body) with
  | none => rfl
  | some i =>
    obtain ⟨hlt, -⟩ := List.findIdx?_eq_some_iff_getElem.1 hp
    simp [List.getElem?_eq_getElem hlt]

theorem body_congr (h : t.wording text = u.wording text') :
    ((bodyIndex? t).bind (t.children[·]?)).map (Tree.wording text) =
      ((bodyIndex? u).bind (u.children[·]?)).map (Tree.wording text') := by
  have hbody := Tree.find?_congr (q := fun s => s.label == .kind .classBody || s.label == .kind .interfaceBody ||
    s.label == .kind .enumBody) (by decide) (Tree.wordings_children h)
  rw [body_eq, body_eq]
  rcases exists_of_map_eq_map (Tree.part?_congr h .body) with ⟨ht, hu⟩ | ⟨b, c, ht, hu, hbc⟩
  · rw [ht, hu]
    exact hbody
  · rw [ht, hu]
    exact congrArg some hbc

theorem afterConstants_congr (h : t.wording text = u.wording text') :
    ((afterConstants? t.children).bind (t.children[·]?)).map (Tree.wording text) =
      ((afterConstants? u.children).bind (u.children[·]?)).map (Tree.wording text') := by
  have hafter := Tree.find?_congr (q := fun s => s.label == .kind .enumBodyDeclarations) (by decide)
    (Tree.wordings_children h)
  rw [List.find?_eq_bind_findIdx?_getElem?, List.find?_eq_bind_findIdx?_getElem?] at hafter
  exact hafter

theorem memberNodes_congr (h : t.wording text = u.wording text') :
    Tree.wordings text (memberNodes t) = Tree.wordings text' (memberNodes u) := by
  unfold memberNodes
  rcases exists_of_map_eq_map (body_congr h) with ⟨ht, hu⟩ | ⟨b, c, ht, hu, hbc⟩
  · rw [ht, hu]
    rfl
  · have hkind : b.isKind .enumBody = c.isKind .enumBody := by
      rw [Tree.isKind, Tree.isKind, Tree.label_eq_of_wording hbc]
    simp only [ht, hu, hkind]
    split
    · rcases exists_of_map_eq_map (afterConstants_congr hbc) with ⟨hb, hc⟩ | ⟨e, f, hb, hc, hef⟩
      · simp only [hb, hc]
        rfl
      · simp only [hb, hc]
        exact Tree.wordings_children hef
    · exact Tree.wordings_children hbc

end

/-! ## What is read of nodes of the same wording -/

/-- A header without its fields and methods and the line on which it begins. -/
def Header.bare (h : Header) : Header := { h with fields := [], methods := [], line := 0 }

namespace Declaration

mutual

/-- A declaration with the bare headers only. -/
def bare : Declaration → Declaration
  | node h members => node h.bare (bareAll members)

def bareAll : List Declaration → List Declaration
  | [] => []
  | d :: ds => d.bare :: bareAll ds

end

theorem bareAll_eq_map : ∀ ds : List Declaration, bareAll ds = ds.map bare
  | [] => rfl
  | d :: ds => by rw [bareAll, bareAll_eq_map ds, List.map_cons]

theorem bare_eq (d : Declaration) : d.bare = node d.header.bare (d.members.map bare) := by
  cases d
  rw [bare, bareAll_eq_map]
  rfl

end Declaration

section
variable {text text' : List Char} {t u : Tree}

theorem textOf_congr (h : t.wording text = u.wording text') (ht : textOf text t = String.join (t.spellings text))
    (hu : textOf text' u = String.join (u.spellings text')) : textOf text t = textOf text' u := by
  rw [ht, hu, Tree.spellings, Tree.spellings, h]

theorem map_textOf_congr {ns ms : List Tree} (h : ns.map (Tree.wording text) = ms.map (Tree.wording text'))
    (hn : ∀ n ∈ ns, textOf text n = String.join (n.spellings text))
    (hm : ∀ m ∈ ms, textOf text' m = String.join (m.spellings text')) :
    ns.map (textOf text) = ms.map (textOf text') := by
  rw [map_textOf_of_tidy hn, map_textOf_of_tidy hm, h]

theorem filterMap_reference?_congr {ns ms : List Tree}
    (h : ns.map (Tree.wording text) = ms.map (Tree.wording text'))
    (hn : ∀ n ∈ ns, Laid 0 (n.spellings text) (textOf text n).toList)
    (hm : ∀ m ∈ ms, Laid 0 (m.spellings text') (textOf text' m).toList) :
    ns.filterMap (reference? text) = ms.filterMap (reference? text') := by
  rw [filterMap_reference?_of_tidy hn, filterMap_reference?_of_tidy hm, h]

theorem ofNode?_congr (h : t.wording text = u.wording text') :
    DeclarationKind.ofNode? t = DeclarationKind.ofNode? u := by
  rw [DeclarationKind.ofNode?, DeclarationKind.ofNode?, Tree.label_eq_of_wording h]

theorem ofNode?_of_isComment {c : Tree} (h : c.isComment = true) : DeclarationKind.ofNode? c = none := by
  have hlabel : ∀ s ∈ Slot.comments, s.label.declares = false := by decide
  have hc := hlabel c.slot (List.contains_iff_mem.1 h)
  rw [Tree.slot, ← DeclarationKind.isSome_ofNode?] at hc
  exact Option.not_isSome_iff_eq_none.1 (by simp [hc])

/-! ### Headers -/

theorem implementedOf_congr (h : t.wording text = u.wording text') {kind : DeclarationKind}
    (hkind : DeclarationKind.ofNode? t = some kind) (ht : TidyAt text t) (hu : TidyAt text' u) :
    implementedOf text t kind = implementedOf text' u kind := by
  have htypes := ht.types
  have htypes' := hu.types
  rw [typeNodes, hkind] at htypes
  rw [typeNodes, ← ofNode?_congr h, hkind] at htypes'
  cases kind with
  | classType =>
    simp only [implementedOf, listedTypes_eq]
    refine filterMap_reference?_congr (listedNodes_congr h (by decide)) ?_ ?_
    · exact fun n hn => htypes n (List.mem_append_left _ hn)
    · exact fun n hn => htypes' n (List.mem_append_left _ hn)
  | interfaceType => rfl
  | enumType => rfl
  | recordType => rfl

theorem extendedOf_congr (h : t.wording text = u.wording text') {kind : DeclarationKind}
    (hkind : DeclarationKind.ofNode? t = some kind) (ht : TidyAt text t) (hu : TidyAt text' u) :
    extendedOf text t kind = extendedOf text' u kind := by
  have htypes := ht.types
  have htypes' := hu.types
  rw [typeNodes, hkind] at htypes
  rw [typeNodes, ← ofNode?_congr h, hkind] at htypes'
  cases kind with
  | classType =>
    simp only [extendedOf, superclass?_eq]
    rcases exists_of_map_eq_map (superclassNode?_congr h) with ⟨hn, hm⟩ | ⟨n, m, hn, hm, hnm⟩
    · rw [hn, hm, Option.bind_none, Option.bind_none]
    · have hlaid := htypes n (List.mem_append_right _ (by simp [hn]))
      have hlaid' := htypes' m (List.mem_append_right _ (by simp [hm]))
      rw [hn, hm, Option.bind_some, Option.bind_some, reference?_eq_of_laid hlaid, reference?_eq_of_laid hlaid', hnm]
  | interfaceType =>
    simp only [extendedOf, listedTypes_eq]
    exact filterMap_reference?_congr (listedNodes_congr h (by decide)) htypes htypes'
  | enumType => rfl
  | recordType => rfl

/-- Tidy declarations of the same wording have the same bare header. -/
theorem bare_congr (h : t.wording text = u.wording text') {kind : DeclarationKind}
    (hkind : DeclarationKind.ofNode? t = some kind) (ht : TidyAt text t) (hu : TidyAt text' u)
    {g g' : Header} (hg : g.IsOf text kind t) (hg' : g'.IsOf text' kind u) :
    g.bare = g'.bare := by
  have hnames := ht.names
  have hnames' := hu.names
  rw [nameNodes, hkind] at hnames
  rw [nameNodes, ← ofNode?_congr h, hkind] at hnames'
  obtain ⟨n, hn, htext⟩ := Option.map_eq_some_iff.1 hg.name
  obtain ⟨n', hn', htext'⟩ := Option.map_eq_some_iff.1 hg'.name
  have hname : g.name = g'.name := by
    rw [← htext, ← htext']
    have hpart := Tree.part?_congr h .name
    rw [hn, hn'] at hpart
    refine textOf_congr (Option.some.inj hpart) ?_ ?_
    · exact hnames n (List.mem_append_left _ (by simp [hn]))
    · exact hnames' n' (List.mem_append_left _ (by simp [hn']))
  have hmodifiers : g.modifiers = g'.modifiers := by
    rw [hg.modifiers, hg'.modifiers, modifiersOf_eq, modifiersOf_eq]
    refine map_textOf_congr (keywordNodes_congr h) ?_ ?_
    · exact fun n hn => hnames n (List.mem_append_right _ hn)
    · exact fun n hn => hnames' n (List.mem_append_right _ hn)
  simp only [Header.bare, hname, hmodifiers, hg.kind, hg'.kind, hg.implemented, hg'.implemented, hg.extended,
    hg'.extended, implementedOf_congr h hkind ht hu, extendedOf_congr h hkind ht hu]

/-! ### Declarations -/

/-- The bare declaration that a node makes, if it makes one that can be read. -/
def bareOf? (text : List Char) (t : Tree) : Option Declaration :=
  (DeclarationKind.ofNode? t).bind fun kind => (declarationOf text kind t).toOption.map Declaration.bare

theorem map_bare_of_declarationsAmong : ∀ {cs : List Tree} {ds : List Declaration},
    declarationsAmong text cs = .ok ds → ds.map Declaration.bare = cs.filterMap (bareOf? text)
  | [], ds, h => by
    rw [declarationsAmong] at h
    cases h
    rfl
  | c :: cs, ds, h => by
    cases hc : DeclarationKind.ofNode? c with
    | none =>
      rw [declarationsAmong_cons_of_none hc] at h
      rw [List.filterMap_cons_none (by rw [bareOf?, hc]; rfl)]
      exact map_bare_of_declarationsAmong h
    | some kind =>
      obtain ⟨d, es, rfl, hd, hes⟩ := declarationsAmong_cons_eq_ok hc h
      have hbare : bareOf? text c = some d.bare := by
        rw [bareOf?, hc, Option.bind_some, hd]
        rfl
      rw [List.filterMap_cons_some hbare, List.map_cons, map_bare_of_declarationsAmong hes]

theorem exists_of_declarationsAmong {c : Tree} {kind : DeclarationKind} (hc : DeclarationKind.ofNode? c = some kind) :
    ∀ {cs : List Tree} {ds : List Declaration}, declarationsAmong text cs = .ok ds → c ∈ cs →
      ∃ d, declarationOf text kind c = .ok d
  | e :: cs, ds, h, hmem => by
    rcases List.mem_cons.1 hmem with rfl | hmem
    · obtain ⟨d, _, -, hd, -⟩ := declarationsAmong_cons_eq_ok hc h
      exact ⟨d, hd⟩
    · cases he : DeclarationKind.ofNode? e with
      | none =>
        rw [declarationsAmong_cons_of_none he] at h
        exact exists_of_declarationsAmong hc h hmem
      | some kind' =>
        obtain ⟨_, es, -, -, hes⟩ := declarationsAmong_cons_eq_ok he h
        exact exists_of_declarationsAmong hc hes hmem

/-- If nodes of the same wording make the same bare declarations one by one, so they do together. -/
theorem declarationsAmong_congr {cs cs' : List Tree} (h : Tree.wordings text cs = Tree.wordings text' cs')
    {ds ds' : List Declaration} (hds : declarationsAmong text cs = .ok ds)
    (hds' : declarationsAmong text' cs' = .ok ds')
    (heach : ∀ c ∈ cs, ∀ c' ∈ cs', c.wording text = c'.wording text' → ∀ kind d d',
      DeclarationKind.ofNode? c = some kind → declarationOf text kind c = .ok d →
      declarationOf text' kind c' = .ok d' → d.bare = d'.bare) :
    ds.map Declaration.bare = ds'.map Declaration.bare := by
  rw [map_bare_of_declarationsAmong hds, map_bare_of_declarationsAmong hds']
  refine Tree.filterMap_congr ?_ ?_ h ?_
  · intro c hc
    rw [bareOf?, ofNode?_of_isComment hc]
    rfl
  · intro c hc
    rw [bareOf?, ofNode?_of_isComment hc]
    rfl
  · intro c hc c' hc' hcc
    have hkind := ofNode?_congr hcc
    cases hk : DeclarationKind.ofNode? c with
    | none => rw [bareOf?, bareOf?, ← hkind, hk]; rfl
    | some kind =>
      obtain ⟨d, hd⟩ := exists_of_declarationsAmong hk hds hc
      obtain ⟨d', hd'⟩ := exists_of_declarationsAmong (hkind ▸ hk) hds' hc'
      rw [bareOf?, bareOf?, ← hkind, hk, Option.bind_some, Option.bind_some, hd, hd']
      exact congrArg some (heach c hc c' hc' hcc kind d d' hk hd hd')

variable {tree tree' : Tree}

/-- Declarations of the same wording that are read in tidy sources are the same but for what is bared. -/
theorem declarationOf_congr (htidy : Tidy text tree) (htidy' : Tidy text' tree') (t : Tree) :
    ∀ u : Tree, IsRead tree t → IsRead tree' u → t.wording text = u.wording text' → ∀ kind d e,
      DeclarationKind.ofNode? t = some kind → declarationOf text kind t = .ok d →
      declarationOf text' kind u = .ok e → d.bare = e.bare := by
  intro u ht hu h kind d e hkind hd he
  obtain ⟨hheader, hmembers⟩ := declarationOf_eq_ok_iff.1 hd
  obtain ⟨hheader', hmembers'⟩ := declarationOf_eq_ok_iff.1 he
  have hdeclares := DeclarationKind.declares_of_ofNode? hkind
  have hdeclares' : u.label.declares = true := Tree.label_eq_of_wording h ▸ hdeclares
  have hbare := bare_congr h hkind (htidy t ht) (htidy' u hu) hheader hheader'
  -- the members are smaller trees that are read as well, so they are alike by recursion
  have hinside := declarationsAmong_congr (memberNodes_congr h) hmembers hmembers' fun c hc c' hc' =>
    declarationOf_congr htidy htidy' c c' (ht.member hdeclares hc) (hu.member hdeclares' hc')
  rw [Declaration.bare_eq, Declaration.bare_eq, hbare, hinside]
termination_by sizeOf t
decreasing_by exact sizeOf_lt_of_mem_memberNodes hc

/-! ### Imports -/

theorem dottedName?_congr (h : t.wording text = u.wording text') :
    (dottedName? t).map (Tree.wording text) = (dottedName? u).map (Tree.wording text') :=
  Tree.find?_congr (q := fun s => s.label == .kind .scopedIdentifier || s.label == .kind .identifier) (by decide)
    (Tree.wordings_namedChildren h)

theorem import?_congr (h : t.wording text = u.wording text') (hkind : t.isKind .importDeclaration = true)
    (ht : TidyAt text t) (hu : TidyAt text' u) : import? text t = import? text' u := by
  have hnone : DeclarationKind.ofNode? t = none := by
    rw [DeclarationKind.ofNode?, eq_of_beq hkind]
    rfl
  have hkind' : u.isKind .importDeclaration = true := by
    rw [← hkind, Tree.isKind, Tree.isKind, Tree.label_eq_of_wording h]
  -- an import declares nothing, so the name in it is all that is taken as it stands
  have hnames := ht.names
  have hnames' := hu.names
  rw [nameNodes, hnone] at hnames
  rw [nameNodes, ← ofNode?_congr h, hnone] at hnames'
  simp only [hkind, hkind', if_true] at hnames hnames'
  have hstar : (t.child? .asterisk).isSome = (u.child? .asterisk).isSome := by
    have hfound := congrArg Option.isSome (Tree.child?_congr h (k := .asterisk) (by decide))
    rw [Option.isSome_map, Option.isSome_map] at hfound
    exact hfound
  have hstatic : t.children.any (·.label == .word .staticWord) = u.children.any (·.label == .word .staticWord) := by
    have hfound := congrArg Option.isSome (Tree.find?_congr (q := fun s => s.label == .word .staticWord) (by decide)
      (Tree.wordings_children h))
    rw [Option.isSome_map, Option.isSome_map, List.isSome_find?, List.isSome_find?] at hfound
    exact hfound
  unfold import?
  rcases exists_of_map_eq_map (dottedName?_congr h) with ⟨hn, hm⟩ | ⟨n, m, hn, hm, hnm⟩
  · rw [hn, hm]
    rfl
  · have hname := textOf_congr hnm (hnames n (by simp [hn])) (hnames' m (by simp [hm]))
    rw [hn, hm, Option.map_some, Option.map_some, hname, hstar, hstatic]

end

/-! ## Sources -/

namespace CompilationUnit

/-- The imports and the bare declarations of a source. -/
def bare (unit : CompilationUnit) : CompilationUnit where
  imports := unit.imports
  types := unit.types.map Declaration.bare

section
variable {text text' : List Char} {tree tree' : Tree}

theorem imports_congr (h : Tree.wordings text tree.children = Tree.wordings text' tree'.children)
    (htidy : Tidy text tree) (htidy' : Tidy text' tree') :
    (tree.children.filter (·.isKind .importDeclaration)).filterMap (import? text) =
      (tree'.children.filter (·.isKind .importDeclaration)).filterMap (import? text') := by
  have hcomment : ∀ c : Tree, c.isComment = true → c.isKind .importDeclaration = false := by
    intro c hc
    have hlabel : ∀ s ∈ Slot.comments, (s.label == .kind .importDeclaration) = false := by decide
    exact hlabel c.slot (List.contains_iff_mem.1 hc)
  rw [List.filterMap_filter, List.filterMap_filter]
  refine Tree.filterMap_congr ?_ ?_ h ?_
  · intro c hc
    rw [hcomment c hc]
    rfl
  · intro c hc
    rw [hcomment c hc]
    rfl
  · intro c hc c' hc' hcc
    have hkind : c'.isKind .importDeclaration = c.isKind .importDeclaration := by
      rw [Tree.isKind, Tree.isKind, Tree.label_eq_of_wording hcc]
    rw [hkind]
    split
    · rename_i hk
      exact import?_congr hcc hk (htidy c (.top hc)) (htidy' c' (.top hc'))
    · rfl

/-- Tidy sources of the same wording are the same but for what is bared. -/
theorem bare_congr {file file' : String} {unit unit' : CompilationUnit} (hunit : ofTree file text tree = .ok unit)
    (hunit' : ofTree file' text' tree' = .ok unit')
    (h : Tree.wordings text tree.children = Tree.wordings text' tree'.children)
    (htidy : Tidy text tree) (htidy' : Tidy text' tree') : unit.bare = unit'.bare := by
  obtain ⟨htypes, himports⟩ := ofTree_eq_ok hunit
  obtain ⟨htypes', himports'⟩ := ofTree_eq_ok hunit'
  have hdeclarations := declarationsAmong_congr h htypes htypes' fun c hc c' hc' =>
    declarationOf_congr htidy htidy' c c' (.top hc) (.top hc')
  rw [bare, bare, himports, himports', imports_congr h htidy htidy', hdeclarations]

end

end CompilationUnit

end ClassDiagram
