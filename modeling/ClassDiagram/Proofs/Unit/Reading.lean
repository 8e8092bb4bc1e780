/-
Reading declarations node by node. The body of a declaration is read in one pass, which finds the same
fields, methods and declarations as three searches, and the body is what is read off the member nodes of the
declaration. Every declaration in a tree of the grammar is read.
-/
import ClassDiagram.Proofs.Unit.Shape

namespace ClassDiagram

open ClassDiagram.Grammar ClassDiagram.Text

section
variable {text : List Char}

/-! ## One node at a time -/

theorem declarationsAmong_cons_of_none {c : Tree} (hc : DeclarationKind.ofNode? c = none) (cs : List Tree) :
    declarationsAmong text (c :: cs) = declarationsAmong text cs := by
  rw [declarationsAmong, hc]

theorem declarationsAmong_cons_eq_ok {c : Tree} {cs : List Tree} {kind : DeclarationKind} {ds : List Declaration}
    (hc : DeclarationKind.ofNode? c = some kind) (h : declarationsAmong text (c :: cs) = .ok ds) :
    ∃ d es, ds = d :: es ∧ declarationOf text kind c = .ok d ∧ declarationsAmong text cs = .ok es := by
  rw [declarationsAmong, hc] at h
  obtain ⟨d, hd, h⟩ := exists_of_bind_eq_ok h
  obtain ⟨es, hes, h⟩ := exists_of_bind_eq_ok h
  cases h
  exact ⟨d, es, rfl, hd, hes⟩

theorem declarationsAmong_cons_of_ok {c : Tree} {cs : List Tree} {kind : DeclarationKind} {d : Declaration}
    {ds : List Declaration} (hc : DeclarationKind.ofNode? c = some kind) (hd : declarationOf text kind c = .ok d)
    (hds : declarationsAmong text cs = .ok ds) : declarationsAmong text (c :: cs) = .ok (d :: ds) := by
  rw [declarationsAmong, hc]
  simp only [hd, hds]
  rfl

theorem exists_declarationsAmong : ∀ {cs : List Tree},
    (∀ c ∈ cs, ∀ kind, DeclarationKind.ofNode? c = some kind → ∃ d, declarationOf text kind c = .ok d) →
    ∃ ds, declarationsAmong text cs = .ok ds
  | [], _ => ⟨[], rfl⟩
  | c :: cs, h => by
    obtain ⟨ds, hds⟩ := exists_declarationsAmong fun e he => h e (List.mem_cons_of_mem _ he)
    cases hc : DeclarationKind.ofNode? c with
    | none =>
      rw [declarationsAmong_cons_of_none hc]
      exact ⟨ds, hds⟩
    | some kind =>
      obtain ⟨d, hd⟩ := h c (List.mem_cons_self ..) kind hc
      exact ⟨d :: ds, declarationsAmong_cons_of_ok hc hd hds⟩

/-! ## Bodies -/

/-- The body holds what is found among the nodes if fields, methods and declarations are each looked for by
themselves. -/
structure Body.IsOf (text : List Char) (cs : List Tree) (b : Body) : Prop where
  fields : fieldsOf text cs = .ok b.fields
  methods : methodsOf text cs = .ok b.methods
  members : declarationsAmong text cs = .ok b.members

/-- Two steps that are put together succeed if both do. -/
theorem bind_bind_eq_ok_iff {α β γ ε : Type} {x : Except ε α} {y : Except ε β} {f : α → β → γ} {c : γ} :
    (do let a ← x; let b ← y; return f a b) = .ok c ↔ ∃ a b, x = .ok a ∧ y = .ok b ∧ c = f a b := by
  constructor
  · intro h
    obtain ⟨a, ha, h⟩ := exists_of_bind_eq_ok h
    obtain ⟨b, hb, h⟩ := exists_of_bind_eq_ok h
    cases h
    exact ⟨a, b, ha, hb, rfl⟩
  · rintro ⟨a, b, rfl, rfl, rfl⟩
    rfl

section
variable {c : Tree} {cs : List Tree} {b : Body}

/-- No node is two of a field, a method and a declaration. -/
theorem member_cases (c : Tree) :
    (isField c = true ∧ c.isKind .methodDeclaration = false ∧ DeclarationKind.ofNode? c = none) ∨
    (isField c = false ∧ c.isKind .methodDeclaration = true ∧ DeclarationKind.ofNode? c = none) ∨
    (isField c = false ∧ c.isKind .methodDeclaration = false) := by
  unfold isField DeclarationKind.ofNode? Tree.isKind
  by_cases hfield : c.label = .kind .fieldDeclaration
  · exact .inl (by rw [hfield]; exact ⟨rfl, rfl, rfl⟩)
  by_cases hconstant : c.label = .kind .constantDeclaration
  · exact .inl (by rw [hconstant]; exact ⟨rfl, rfl, rfl⟩)
  by_cases hmethod : c.label = .kind .methodDeclaration
  · exact .inr (.inl (by rw [hmethod]; exact ⟨rfl, rfl, rfl⟩))
  · exact .inr (.inr (by simp [hfield, hconstant, hmethod]))

theorem mapM_filter_cons_iff {β ε : Type} {f : Tree → Except ε β} {p : Tree → Bool} (h : p c = true) {ys : List β} :
    ((c :: cs).filter p).mapM f = .ok ys ↔ ∃ z zs, f c = .ok z ∧ (cs.filter p).mapM f = .ok zs ∧ ys = z :: zs := by
  rw [List.filter_cons_of_pos h, List.mapM_cons]
  exact bind_bind_eq_ok_iff

theorem fieldsOf_cons_of_not (h : isField c = false) : fieldsOf text (c :: cs) = fieldsOf text cs := by
  rw [fieldsOf, List.filter_cons, h]
  rfl

theorem methodsOf_cons_of_not (h : c.isKind .methodDeclaration = false) :
    methodsOf text (c :: cs) = methodsOf text cs := by
  rw [methodsOf, List.filter_cons, h]
  rfl

namespace Body

theorem isOf_cons_field (hfield : isField c = true) (hmethod : c.isKind .methodDeclaration = false)
    (hkind : DeclarationKind.ofNode? c = none) : b.IsOf text (c :: cs) ↔
      ∃ field body, fieldOf text c = .ok field ∧ IsOf text cs body ∧
        b = { body with fields := field :: body.fields } := by
  constructor
  · rintro ⟨hfields, hmethods, hmembers⟩
    obtain ⟨field, fields, hread, hfields, heq⟩ := (mapM_filter_cons_iff hfield).1 hfields
    rw [methodsOf_cons_of_not hmethod] at hmethods
    rw [declarationsAmong_cons_of_none hkind] at hmembers
    exact ⟨field, { b with fields }, hread, ⟨hfields, hmethods, hmembers⟩, by rw [← heq]⟩
  · rintro ⟨field, body, hread, ⟨hfields, hmethods, hmembers⟩, rfl⟩
    refine ⟨(mapM_filter_cons_iff hfield).2 ⟨field, body.fields, hread, hfields, rfl⟩, ?_, ?_⟩
    · rw [methodsOf_cons_of_not hmethod, hmethods]
    · rw [declarationsAmong_cons_of_none hkind, hmembers]

theorem isOf_cons_method (hfield : isField c = false) (hmethod : c.isKind .methodDeclaration = true)
    (hkind : DeclarationKind.ofNode? c = none) : b.IsOf text (c :: cs) ↔
      ∃ method body, methodOf text c = .ok method ∧ IsOf text cs body ∧
        b = { body with methods := method :: body.methods } := by
  constructor
  · rintro ⟨hfields, hmethods, hmembers⟩
    obtain ⟨method, methods, hread, hmethods, heq⟩ := (mapM_filter_cons_iff hmethod).1 hmethods
    rw [fieldsOf_cons_of_not hfield] at hfields
    rw [declarationsAmong_cons_of_none hkind] at hmembers
    exact ⟨method, { b with methods }, hread, ⟨hfields, hmethods, hmembers⟩, by rw [← heq]⟩
  · rintro ⟨method, body, hread, ⟨hfields, hmethods, hmembers⟩, rfl⟩
    refine ⟨?_, (mapM_filter_cons_iff hmethod).2 ⟨method, body.methods, hread, hmethods, rfl⟩, ?_⟩
    · rw [fieldsOf_cons_of_not hfield, hfields]
    · rw [declarationsAmong_cons_of_none hkind, hmembers]

theorem isOf_cons_declaration {kind : DeclarationKind} (hfield : isField c = false)
    (hmethod : c.isKind .methodDeclaration = false) (hkind : DeclarationKind.ofNode? c = some kind) :
    b.IsOf text (c :: cs) ↔ ∃ d body, declarationOf text kind c = .ok d ∧ IsOf text cs body ∧
      b = { body with members := d :: body.members } := by
  constructor
  · rintro ⟨hfields, hmethods, hmembers⟩
    obtain ⟨d, members, heq, hread, hmembers⟩ := declarationsAmong_cons_eq_ok hkind hmembers
    rw [fieldsOf_cons_of_not hfield] at hfields
    rw [methodsOf_cons_of_not hmethod] at hmethods
    exact ⟨d, { b with members }, hread, ⟨hfields, hmethods, hmembers⟩, by rw [← heq]⟩
  · rintro ⟨d, body, hread, ⟨hfields, hmethods, hmembers⟩, rfl⟩
    refine ⟨?_, ?_, declarationsAmong_cons_of_ok hkind hread hmembers⟩
    · rw [fieldsOf_cons_of_not hfield, hfields]
    · rw [methodsOf_cons_of_not hmethod, hmethods]

theorem isOf_cons_other (hfield : isField c = false) (hmethod : c.isKind .methodDeclaration = false)
    (hkind : DeclarationKind.ofNode? c = none) : b.IsOf text (c :: cs) ↔ b.IsOf text cs := by
  constructor
  · rintro ⟨hfields, hmethods, hmembers⟩
    rw [fieldsOf_cons_of_not hfield] at hfields
    rw [methodsOf_cons_of_not hmethod] at hmethods
    rw [declarationsAmong_cons_of_none hkind] at hmembers
    exact ⟨hfields, hmethods, hmembers⟩
  · rintro ⟨hfields, hmethods, hmembers⟩
    rw [← fieldsOf_cons_of_not hfield] at hfields
    rw [← methodsOf_cons_of_not hmethod] at hmethods
    rw [← declarationsAmong_cons_of_none hkind] at hmembers
    exact ⟨hfields, hmethods, hmembers⟩

end Body

end

/-- One pass over the nodes of a body finds what is found by looking for the fields, the methods and the
declarations one after the other. -/
theorem readBody_eq_ok_iff : ∀ {cs : List Tree} {b : Body}, readBody text cs = .ok b ↔ b.IsOf text cs
  | [], b => by
    rw [readBody]
    constructor
    · rintro ⟨⟩
      exact ⟨rfl, rfl, rfl⟩
    · rintro ⟨hfields, hmethods, hmembers⟩
      obtain ⟨fields, methods, members⟩ := b
      cases hfields
      cases hmethods
      cases hmembers
      rfl
  | c :: cs, b => by
    have ih : ∀ {b : Body}, readBody text cs = .ok b ↔ b.IsOf text cs := readBody_eq_ok_iff
    rw [readBody, ← isField]
    rcases member_cases c with ⟨hfield, hmethod, hkind⟩ | ⟨hfield, hmethod, hkind⟩ | ⟨hfield, hmethod⟩
    · rw [if_pos hfield, bind_bind_eq_ok_iff, Body.isOf_cons_field hfield hmethod hkind]
      simp only [ih]
    · rw [if_neg (Bool.eq_false_iff.1 hfield), if_pos hmethod, bind_bind_eq_ok_iff,
        Body.isOf_cons_method hfield hmethod hkind]
      simp only [ih]
    · rw [if_neg (Bool.eq_false_iff.1 hfield), if_neg (Bool.eq_false_iff.1 hmethod)]
      cases hkind : DeclarationKind.ofNode? c with
      | none => rw [Body.isOf_cons_other hfield hmethod hkind, ih]
      | some kind =>
        rw [bind_bind_eq_ok_iff, Body.isOf_cons_declaration hfield hmethod hkind]
        simp only [ih]

theorem bodyAt_eq : ∀ (i : Option Nat) (cs : List Tree), bodyAt text i cs =
    match i.bind (cs[·]?) with
    | none => .ok {}
    | some c => bodyInside text c
  | none, [] => by rw [bodyAt]; rfl
  | some _, [] => by rw [bodyAt]; rfl
  | none, c :: cs => by rw [bodyAt]; rfl
  | some 0, c :: cs => by rw [bodyAt]; rfl
  | some (i + 1), c :: cs => by
    rw [bodyAt, bodyAt_eq (some i) cs]
    rfl

theorem bodyInside_eq (t : Tree) : bodyInside text t =
    if t.isKind .enumBody then bodyAt text (afterConstants? t.children) t.children
    else readBody text t.children := by
  cases t
  rw [bodyInside]
  rfl

/-- What a declaration holds is read off its member nodes. -/
theorem bodyAt_bodyIndex? (t : Tree) : bodyAt text (bodyIndex? t) t.children = readBody text (memberNodes t) := by
  rw [bodyAt_eq, memberNodes]
  cases (bodyIndex? t).bind (t.children[·]?) with
  | none => rw [readBody]; rfl
  | some body =>
    simp only [bodyInside_eq body]
    split
    · rw [bodyAt_eq]
      cases hi : afterConstants? body.children with
      | none => rw [Option.bind_none, readBody]; rfl
      | some i =>
        obtain ⟨c, hc, hlabel⟩ := label_of_afterConstants? hi
        have hne : c.isKind .enumBody = false := by
          rw [Tree.isKind, hlabel]
          rfl
        simp only [Option.bind_some, hc, bodyInside_eq c, hne, Bool.false_eq_true, if_false]
    · rfl

/-! ## Declarations -/

/-- What the header of a declaration consists of that is read off a node. -/
structure Header.IsOf (text : List Char) (k : DeclarationKind) (t : Tree) (h : Header) : Prop where
  name : (t.part? .name).map (textOf text) = some h.name
  kind : h.kind = k
  modifiers : h.modifiers = modifiersOf text t
  line : h.line = lineOf text t
  fields : fieldsOf text (memberNodes t) = .ok h.fields
  methods : methodsOf text (memberNodes t) = .ok h.methods
  implemented : h.implemented = implementedOf text t k
  extended : h.extended = extendedOf text t k

theorem declarationOf_eq (kind : DeclarationKind) (t : Tree) : declarationOf text kind t = do
    let header ← headerOf text kind t
    let body ← readBody text (memberNodes t)
    return .node { header with fields := body.fields, methods := body.methods } body.members := by
  rw [← bodyAt_bodyIndex?]
  cases t
  rw [declarationOf]
  rfl

/-- A declaration is read off a node together with those inside it, which are read off its member nodes. -/
theorem declarationOf_eq_ok_iff {t : Tree} {kind : DeclarationKind} {d : Declaration} :
    declarationOf text kind t = .ok d ↔
      d.header.IsOf text kind t ∧ declarationsAmong text (memberNodes t) = .ok d.members := by
  rw [declarationOf_eq, bind_bind_eq_ok_iff]
  simp only [readBody_eq_ok_iff, headerOf]
  constructor
  · rintro ⟨header, body, hheader, ⟨hfields, hmethods, hmembers⟩, rfl⟩
    cases hname : t.part? .name with
    | none =>
      rw [hname] at hheader
      cases hheader
    | some name =>
      rw [hname] at hheader
      cases hheader
      exact ⟨⟨by rw [hname]; rfl, rfl, rfl, rfl, hfields, hmethods, rfl, rfl⟩, hmembers⟩
  · rintro ⟨⟨hname, hkind, hmodifiers, hline, hfields, hmethods, himplemented, hextended⟩, hmembers⟩
    obtain ⟨name, hpart, hname⟩ := Option.map_eq_some_iff.1 hname
    rw [hpart]
    refine ⟨_, ⟨d.header.fields, d.header.methods, d.members⟩, rfl, ⟨hfields, hmethods, hmembers⟩, ?_⟩
    rw [hname, ← hmodifiers, ← hline, ← himplemented, ← hextended, ← hkind]
    cases d
    rfl

/-- In a tree of the grammar each declaration is read. -/
theorem exists_declarationOf (t : Tree) (h : t.Conforms alternatives) {kind : DeclarationKind}
    (hkind : DeclarationKind.ofNode? t = some kind) : ∃ d, declarationOf text kind t = .ok d := by
  have hd := DeclarationKind.declares_of_ofNode? hkind
  have hmembers := Members.memberNodes h hd
  obtain ⟨fields, hfields⟩ := hmembers.exists_fieldsOf text
  obtain ⟨methods, hmethods⟩ := hmembers.exists_methodsOf text
  obtain ⟨ds, hds⟩ : ∃ ds, declarationsAmong text (memberNodes t) = .ok ds :=
    exists_declarationsAmong fun c hc kind hkind => exists_declarationOf c (hmembers.conforms c hc) hkind
  obtain ⟨header, hheader⟩ := exists_headerOf text h hd kind
  have hbody : readBody text (memberNodes t) = .ok ⟨fields, methods, ds⟩ :=
    readBody_eq_ok_iff.2 ⟨hfields, hmethods, hds⟩
  rw [declarationOf_eq]
  exact ⟨_, bind_bind_eq_ok_iff.2 ⟨header, _, hheader, hbody, rfl⟩⟩
termination_by sizeOf t
decreasing_by exact sizeOf_lt_of_mem_memberNodes hc

theorem Members.exists_declarationsAmong {cs : List Tree} (h : Members cs) :
    ∃ ds, declarationsAmong text cs = .ok ds :=
  ClassDiagram.exists_declarationsAmong fun c hc _ hkind => exists_declarationOf c (h.conforms c hc) hkind

end

/-! ## A whole source -/

/-- A source that is read consists of what is read off the children of its tree. -/
theorem CompilationUnit.ofTree_eq_ok {file : String} {text : List Char} {tree : Tree} {unit : CompilationUnit}
    (h : ofTree file text tree = .ok unit) : declarationsAmong text tree.children = .ok unit.types ∧
      unit.imports = (tree.children.filter (·.isKind .importDeclaration)).filterMap (import? text) := by
  unfold ofTree at h
  split at h
  · cases h
  · obtain ⟨ds, hds, h⟩ := exists_of_bind_eq_ok h
    cases h
    exact ⟨hds, rfl⟩

/-- A source is read only if its tree has no fault. -/
theorem CompilationUnit.hasFault_of_ofTree_eq_ok {file : String} {text : List Char} {tree : Tree}
    {unit : CompilationUnit} (h : ofTree file text tree = .ok unit) : tree.hasFault = false := by
  unfold ofTree at h
  split at h
  · cases h
  · next hfault => exact Bool.eq_false_iff.2 hfault

end ClassDiagram
