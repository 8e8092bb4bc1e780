/-
The shape of declarations in a tree of the grammar. A declaration has one body, which is the only one
of its children that can hold declarations; an enum's body holds them after the constants only. Names,
types and declarators are never absent, so every tree of the grammar can be read.
-/
import ClassDiagram.Proofs.Grammar.Count
import ClassDiagram.Unit.OfTree

namespace ClassDiagram

open ClassDiagram.Grammar ClassDiagram.Text

namespace Grammar.Label

/-- Whether this is a class, an interface, an enum or a record. -/
def declares : Label → Bool
  | .kind .classDeclaration | .kind .interfaceDeclaration | .kind .enumDeclaration | .kind .recordDeclaration => true
  | _ => false

/-- Whether this is a body of such a declaration, or the part of an enum's body after the constants. -/
def encloses : Label → Bool
  | .kind .classBody | .kind .interfaceBody | .kind .enumBody | .kind .enumBodyDeclarations => true
  | _ => false

/-- Whether this is a declaration or a body, so that there may be declarations further inside. -/
def opens (l : Label) : Bool := l.declares || l.encloses

/-- The phrases that are declarations. -/
def declarations : List Kind := [.classDeclaration, .interfaceDeclaration, .enumDeclaration, .recordDeclaration]

/-- The phrases between whose children declarations stand without a further body around them. -/
def scopes : List Kind := [.program, .classBody, .interfaceBody, .enumBodyDeclarations]

theorem exists_of_declares {l : Label} (h : l.declares = true) : ∃ k ∈ declarations, l = .kind k := by
  unfold declares at h
  split at h
  · exact ⟨_, by decide, rfl⟩
  · exact ⟨_, by decide, rfl⟩
  · exact ⟨_, by decide, rfl⟩
  · exact ⟨_, by decide, rfl⟩
  · cases h

theorem exists_of_encloses {l : Label} (h : l.encloses = true) :
    l = .kind .enumBody ∨ ∃ k ∈ scopes, l = .kind k := by
  unfold encloses at h
  split at h
  · exact .inr ⟨_, by decide, rfl⟩
  · exact .inr ⟨_, by decide, rfl⟩
  · exact .inl rfl
  · exact .inr ⟨_, by decide, rfl⟩
  · cases h

theorem encloses_of_declares {l : Label} (h : l.declares = true) : l.encloses = false := by
  obtain ⟨k, hk, rfl⟩ := exists_of_declares h
  revert k
  decide

end Grammar.Label

namespace DeclarationKind

/-- The phrase that makes a declaration. -/
def phrase : DeclarationKind → Kind
  | classType => .classDeclaration
  | interfaceType => .interfaceDeclaration
  | enumType => .enumDeclaration
  | recordType => .recordDeclaration

theorem label_of_ofNode? {t : Tree} {kind : DeclarationKind} (h : ofNode? t = some kind) :
    t.label = .kind kind.phrase := by
  unfold ofNode? ofPhrase? at h
  split at h
  · rename_i k hk
    rw [hk]
    split at h <;> cases h <;> rfl
  · cases h

theorem isSome_ofNode? (t : Tree) : (ofNode? t).isSome = t.label.declares := by
  unfold ofNode?
  cases t.label with
  | kind k => cases k <;> rfl
  | word => rfl
  | error => rfl
  | missing => rfl

theorem declares_of_ofNode? {t : Tree} {kind : DeclarationKind} (h : ofNode? t = some kind) :
    t.label.declares = true := by
  rw [← isSome_ofNode?, h]
  rfl

theorem declares_eq_false {t : Tree} (h : ofNode? t = none) : t.label.declares = false := by
  rw [← isSome_ofNode?, h]
  rfl

end DeclarationKind

/-! ## Where declarations can stand -/

/-- The one body in a list of nodes that holds no declarations besides, and its place. -/
structure Sole (cs : List Tree) (b : Nat) (body : Tree) : Prop where
  getElem? : cs[b]? = some body
  encloses : body.label.encloses = true
  unique : ∀ (i : Nat) (c : Tree), cs[i]? = some c → c.label.opens = true → i = b

section
variable {t c : Tree}

/-- A declaration has a body, and no other child of it is a declaration or a body. -/
theorem exists_body (h : t.Conforms alternatives) (hd : t.label.declares = true) :
    ∃ b body, bodyIndex? t = some b ∧ Sole t.children b body := by
  obtain ⟨k, hk, hl⟩ := Label.exists_of_declares hd
  have hsome : ∀ k ∈ Label.declarations,
      0 < (Tree.childBounds alternatives (fun s => s.role == some .body) k).least := by decide
  have hone : ∀ k ∈ Label.declarations,
      (Tree.childBounds alternatives (fun s => s.role == some .body) k).most = some 1 := by decide
  have hbody : ∀ k ∈ Label.declarations,
      (Tree.childBounds alternatives (fun s => s.role == some .body && !s.label.encloses) k).most = some 0 := by
    decide
  have hother : ∀ k ∈ Label.declarations,
      (Tree.childBounds alternatives (fun s => s.role != some .body && s.label.opens) k).most = some 0 := by
    decide
  have hplace : ∀ (i : Nat) (c : Tree), t.children[i]? = some c → (c.role == some .body) = true →
      bodyIndex? t = some i := by
    intro i c hi hc
    have hfind := h.findIdx?_eq_some hl (by decide) (hone k hk) hi hc
    rw [bodyIndex?, show t.children.findIdx? (·.role == some .body) = some i from hfind]
    rfl
  obtain ⟨body, hmem, hrole⟩ := h.exists_mem hl (by decide) (hsome k hk)
  obtain ⟨b, hb⟩ := List.mem_iff_getElem?.1 hmem
  refine ⟨b, body, hplace b body hb hrole, hb, ?_, ?_⟩
  · have hfalse := h.eq_false_of_mem hl (by decide) (hbody k hk) hmem
    rw [hrole, Bool.true_and, Bool.not_eq_false'] at hfalse
    exact hfalse
  · intro i c hi hc
    have hfalse := h.eq_false_of_mem hl (by decide) (hother k hk) (List.mem_of_getElem? hi)
    have hci : (c.role == some .body) = true := by simpa [Tree.slot, hc] using hfalse
    have hsame := (hplace i c hi hci).symm.trans (hplace b body hb hrole)
    exact Option.some.inj hsame

/-- Among the children of an enum's body only the part after the constants can hold declarations. -/
theorem afterConstants?_eq_some (h : t.Conforms alternatives) (hl : t.label = .kind .enumBody) {i : Nat}
    (hi : t.children[i]? = some c) (hc : c.label.opens = true) : afterConstants? t.children = some i := by
  have hother := h.eq_false_of_mem (q := fun s => s.label.opens && s.label != .kind .enumBodyDeclarations) hl
    (by decide) (by decide) (List.mem_of_getElem? hi)
  have hlabel : c.label = .kind .enumBodyDeclarations := by simpa [Tree.slot, hc] using hother
  refine h.findIdx?_eq_some (q := fun s => s.label == .kind .enumBodyDeclarations) hl (by decide) (by decide) hi ?_
  rw [Tree.slot, hlabel]
  rfl

theorem encloses_eq_false (h : t.Conforms alternatives) {k : Kind} (hk : k ∈ Label.scopes) (hl : t.label = .kind k)
    (hc : c ∈ t.children) : c.label.encloses = false := by
  have hnone : ∀ k ∈ Label.scopes, (Tree.childBounds alternatives (fun s => s.label.encloses) k).most = some 0 := by
    decide
  exact h.eq_false_of_mem hl (by decide) (hnone k hk) hc

end

/-! ## Members -/

/-- Nodes among which members stand: trees of the grammar, none of them a body. -/
structure Members (cs : List Tree) : Prop where
  conforms : ∀ c ∈ cs, c.Conforms alternatives
  plain : ∀ c ∈ cs, c.label.encloses = false

theorem Members.nil : Members [] := ⟨nofun, nofun⟩

theorem Members.children {t : Tree} (h : t.Conforms alternatives) {k : Kind} (hk : k ∈ Label.scopes)
    (hl : t.label = .kind k) : Members t.children :=
  ⟨fun _ hc => h.of_mem hc, fun _ hc => encloses_eq_false h hk hl hc⟩

theorem label_of_afterConstants? {cs : List Tree} {i : Nat} (hi : afterConstants? cs = some i) :
    ∃ c, cs[i]? = some c ∧ c.label = .kind .enumBodyDeclarations := by
  obtain ⟨hlt, hc, -⟩ := List.findIdx?_eq_some_iff_getElem.1 hi
  exact ⟨cs[i], List.getElem?_eq_getElem hlt, eq_of_beq hc⟩

/-- The children of a declaration's body; of an enum's body only those after the constants. -/
def memberNodes (t : Tree) : List Tree :=
  match (bodyIndex? t).bind (t.children[·]?) with
  | none => []
  | some body =>
    if body.isKind .enumBody then
      match (afterConstants? body.children).bind (body.children[·]?) with
      | some declarations => declarations.children
      | none => []
    else body.children

section
variable {t body : Tree} {b : Nat}

theorem memberNodes_of_scope (hb : bodyIndex? t = some b) (hbody : t.children[b]? = some body) {k : Kind}
    (hk : k ∈ Label.scopes) (hl : body.label = .kind k) : memberNodes t = body.children := by
  have hne : ∀ k ∈ Label.scopes, (Label.kind k == .kind .enumBody) = false := by decide
  simp only [memberNodes, hb, Option.bind_some, hbody, Tree.isKind, hl, hne k hk, Bool.false_eq_true, if_false]

theorem memberNodes_of_enumBody (hb : bodyIndex? t = some b) (hbody : t.children[b]? = some body)
    (hl : body.label = .kind .enumBody) {i : Nat} {c : Tree} (hi : afterConstants? body.children = some i)
    (hc : body.children[i]? = some c) : memberNodes t = c.children := by
  simp only [memberNodes, hb, Option.bind_some, hbody, Tree.isKind, hl, beq_self_eq_true, if_true, hi, hc]

theorem memberNodes_of_constants (hb : bodyIndex? t = some b) (hbody : t.children[b]? = some body)
    (hl : body.label = .kind .enumBody) (hi : afterConstants? body.children = none) : memberNodes t = [] := by
  simp only [memberNodes, hb, Option.bind_some, hbody, Tree.isKind, hl, beq_self_eq_true, if_true, hi, Option.bind_none]

/-- The member nodes are the children of a child, or those of a child of it. -/
theorem memberNodes_cases (t : Tree) : memberNodes t = [] ∨ ∃ body ∈ t.children, memberNodes t = body.children ∨
    ∃ part ∈ body.children, memberNodes t = part.children := by
  unfold ClassDiagram.memberNodes
  cases hb : (bodyIndex? t).bind (t.children[·]?) with
  | none => exact .inl rfl
  | some body =>
    obtain ⟨i, -, hi⟩ := Option.bind_eq_some_iff.1 hb
    simp only
    split
    · split
      · rename_i part hpart
        obtain ⟨j, -, hj⟩ := Option.bind_eq_some_iff.1 hpart
        exact .inr ⟨body, List.mem_of_getElem? hi, .inr ⟨part, List.mem_of_getElem? hj, rfl⟩⟩
      · exact .inl rfl
    · exact .inr ⟨body, List.mem_of_getElem? hi, .inl rfl⟩

/-- Members stand among the children of a child, or one step further inside. -/
theorem exists_of_mem_memberNodes {t c : Tree} (h : c ∈ memberNodes t) :
    ∃ body ∈ t.children, c ∈ body.children ∨ ∃ part ∈ body.children, c ∈ part.children := by
  rcases memberNodes_cases t with heq | ⟨body, hbody, heq | ⟨part, hpart, heq⟩⟩
  · rw [heq] at h
    cases h
  · exact ⟨body, hbody, .inl (heq ▸ h)⟩
  · exact ⟨body, hbody, .inr ⟨part, hpart, heq ▸ h⟩⟩

theorem sizeOf_lt_of_mem_memberNodes {t c : Tree} (h : c ∈ memberNodes t) : sizeOf c < sizeOf t := by
  have hchildren : ∀ t : Tree, sizeOf t.children < sizeOf t := by
    rintro ⟨r, l, s, cs⟩
    simp only [Tree.children, Tree.node.sizeOf_spec]
    omega
  have hchild : ∀ {c t : Tree}, c ∈ t.children → sizeOf c < sizeOf t :=
    fun hc => Nat.lt_trans (List.sizeOf_lt_of_mem hc) (hchildren _)
  obtain ⟨body, hbody, hc | ⟨part, hpart, hc⟩⟩ := exists_of_mem_memberNodes h
  · exact Nat.lt_trans (hchild hc) (hchild hbody)
  · exact Nat.lt_trans (Nat.lt_trans (hchild hc) (hchild hpart)) (hchild hbody)

/-- The members of a declaration stand among the children of its body. -/
theorem Members.memberNodes (h : t.Conforms alternatives) (hd : t.label.declares = true) :
    Members (memberNodes t) := by
  obtain ⟨b, body, hb, hbody, hencloses, -⟩ := exists_body h hd
  have hconforms := h.of_mem (List.mem_of_getElem? hbody)
  rcases Label.exists_of_encloses hencloses with hl | ⟨k, hk, hl⟩
  · cases hi : afterConstants? body.children with
    | none =>
      rw [memberNodes_of_constants hb hbody hl hi]
      exact Members.nil
    | some i =>
      obtain ⟨c, hc, hlabel⟩ := label_of_afterConstants? hi
      rw [memberNodes_of_enumBody hb hbody hl hi hc]
      exact Members.children (hconforms.of_mem (List.mem_of_getElem? hc)) (by decide) hlabel
  · rw [memberNodes_of_scope hb hbody hk hl]
    exact Members.children hconforms hk hl

end

/-! ## Every declaration can be read -/

theorem Grammar.Tree.of_child?_eq_some {t c : Tree} {k : Kind} (h : t.child? k = some c) :
    c ∈ t.children ∧ c.label = .kind k := by
  refine ⟨List.mem_of_find?_eq_some h, ?_⟩
  simpa [Tree.isKind] using List.find?_some h

theorem isSome_part? {t : Tree} {k : Kind} {r : Role} (h : t.Conforms alternatives) (hl : t.label = .kind k)
    (hb : 0 < (Tree.childBounds alternatives (fun s => s.role == some r) k).least) : (t.part? r).isSome = true := by
  obtain ⟨c, hc, hr⟩ := h.exists_mem hl (by simp [Slot.comments]) hb
  exact List.find?_isSome.2 ⟨c, hc, hr⟩

/-- A sequence of two steps that succeeds consists of steps that succeed. -/
theorem exists_of_bind_eq_ok {α β ε : Type} {x : Except ε α} {f : α → Except ε β} {b : β} (h : x >>= f = .ok b) :
    ∃ a, x = .ok a ∧ f a = .ok b := by
  cases x with
  | error => cases h
  | ok a => exact ⟨a, rfl, h⟩

theorem exists_mapM_eq_ok {α β ε : Type} {f : α → Except ε β} :
    ∀ {xs : List α}, (∀ x ∈ xs, ∃ y, f x = .ok y) → ∃ ys, xs.mapM f = .ok ys
  | [], _ => ⟨[], rfl⟩
  | x :: xs, h => by
    obtain ⟨y, hy⟩ := h x (List.mem_cons_self ..)
    obtain ⟨ys, hys⟩ := exists_mapM_eq_ok fun z hz => h z (List.mem_cons_of_mem _ hz)
    refine ⟨y :: ys, ?_⟩
    rw [List.mapM_cons, hy, hys]
    rfl

theorem exists_of_mem_mapM {α β ε : Type} {f : α → Except ε β} {y : β} :
    ∀ {xs : List α} {ys : List β}, xs.mapM f = .ok ys → y ∈ ys → ∃ x ∈ xs, f x = .ok y
  | [], ys, h, hy => by
    cases h
    cases hy
  | x :: xs, ys, h, hy => by
    rw [List.mapM_cons] at h
    obtain ⟨z, hz, h⟩ := exists_of_bind_eq_ok h
    obtain ⟨zs, hzs, h⟩ := exists_of_bind_eq_ok h
    cases h
    rcases List.mem_cons.1 hy with rfl | hy
    · exact ⟨x, List.mem_cons_self .., hz⟩
    · obtain ⟨w, hw, hwy⟩ := exists_of_mem_mapM hzs hy
      exact ⟨w, List.mem_cons_of_mem _ hw, hwy⟩

section
variable (text : List Char) {t : Tree}

theorem exists_fieldOf {k : Kind} (h : t.Conforms alternatives) (hk : k ∈ [Kind.fieldDeclaration, .constantDeclaration])
    (hl : t.label = .kind k) : ∃ f, fieldOf text t = .ok f := by
  have htype : ∀ k ∈ [Kind.fieldDeclaration, .constantDeclaration],
      0 < (Tree.childBounds alternatives (fun s => s.role == some .type) k).least := by decide
  have hsome : ∀ k ∈ [Kind.fieldDeclaration, .constantDeclaration],
      0 < (Tree.childBounds alternatives (fun s => s.role == some .declarator) k).least := by decide
  have hkind : ∀ k ∈ [Kind.fieldDeclaration, .constantDeclaration],
      (Tree.childBounds alternatives
        (fun s => s.role == some .declarator && s.label != .kind .variableDeclarator) k).most = some 0 := by decide
  obtain ⟨type, htype⟩ := Option.isSome_iff_exists.1 (isSome_part? h hl (htype k hk))
  obtain ⟨c, hc, hrole⟩ := h.exists_mem hl (by decide) (hsome k hk)
  have hlabel : c.label = .kind .variableDeclarator := by
    have hfalse := h.eq_false_of_mem hl (by decide) (hkind k hk) hc
    rw [hrole, Bool.true_and] at hfalse
    simpa [Tree.slot] using hfalse
  obtain ⟨name, hname⟩ := Option.isSome_iff_exists.1 (isSome_part? (r := .name) (h.of_mem hc) hlabel (by decide))
  have hvariable : ∃ v, declaredVariable? text (textOf text type) c = some v := by
    rw [declaredVariable?, hname]
    exact ⟨_, rfl⟩
  obtain ⟨v, hv⟩ := hvariable
  have hne : ((t.partsOf .declarator).filterMap (declaredVariable? text (textOf text type))).isEmpty = false :=
    List.isEmpty_eq_false_iff_exists_mem.2 ⟨v, List.mem_filterMap.2 ⟨c, List.mem_filter.2 ⟨hc, hrole⟩, hv⟩⟩
  rw [fieldOf, htype]
  simp only [hne]
  exact ⟨_, rfl⟩

theorem exists_methodOf (h : t.Conforms alternatives) (hl : t.label = .kind .methodDeclaration) :
    ∃ m, methodOf text t = .ok m := by
  obtain ⟨name, hname⟩ := Option.isSome_iff_exists.1 (isSome_part? (r := .name) h hl (by decide))
  rw [methodOf, hname]
  exact ⟨_, rfl⟩

/-- Whether a node declares a field or a constant. -/
def isField (t : Tree) : Bool := t.isKind .fieldDeclaration || t.isKind .constantDeclaration

/-- The fields among the members. -/
def fieldsOf (members : List Tree) : Except Fault (List FieldDeclaration) :=
  (members.filter isField).mapM (fieldOf text)

/-- The methods among the members. -/
def methodsOf (members : List Tree) : Except Fault (List MethodDeclaration) :=
  (members.filter (·.isKind .methodDeclaration)).mapM (methodOf text)

theorem Members.exists_fieldsOf {cs : List Tree} (h : Members cs) : ∃ fields, fieldsOf text cs = .ok fields := by
  refine exists_mapM_eq_ok fun c hc => ?_
  obtain ⟨hc, hkind⟩ := List.mem_filter.1 hc
  rcases Bool.or_eq_true_iff.1 hkind with hkind | hkind
  · exact exists_fieldOf text (h.conforms c hc) (by decide) (eq_of_beq hkind)
  · exact exists_fieldOf text (h.conforms c hc) (by decide) (eq_of_beq hkind)

theorem Members.exists_methodsOf {cs : List Tree} (h : Members cs) :
    ∃ methods, methodsOf text cs = .ok methods := by
  refine exists_mapM_eq_ok fun c hc => ?_
  obtain ⟨hc, hkind⟩ := List.mem_filter.1 hc
  exact exists_methodOf text (h.conforms c hc) (eq_of_beq hkind)

theorem exists_headerOf (h : t.Conforms alternatives) (hd : t.label.declares = true) (kind : DeclarationKind) :
    ∃ header, headerOf text kind t = .ok header := by
  have hbounds : ∀ k ∈ Label.declarations,
      0 < (Tree.childBounds alternatives (fun s => s.role == some .name) k).least := by decide
  obtain ⟨k, hk, hl⟩ := Label.exists_of_declares hd
  obtain ⟨name, hname⟩ := Option.isSome_iff_exists.1 (isSome_part? h hl (hbounds k hk))
  rw [headerOf, hname]
  exact ⟨_, rfl⟩

end

end ClassDiagram
