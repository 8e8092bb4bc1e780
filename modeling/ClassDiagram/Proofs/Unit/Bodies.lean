/-
What is read between the braces of a declaration. Every field and every method that stands there is
recorded once, in order, and nothing else is: constructors, initializers, annotation types, comments and
semicolons leave no trace. A field is recorded with all its declarators by their names, and declarations,
fields and methods with the keywords among their modifiers, whatever annotations and comments stand between
these.
-/
import ClassDiagram.Proofs.Unit.Dimensions
import ClassDiagram.Proofs.Unit.Reading
import ClassDiagram.Proofs.Unit.Tidy

namespace ClassDiagram

open ClassDiagram.Grammar ClassDiagram.Text

/-! ## Bodies -/

/-- The nodes among which the members of a declaration stand: the children of its body or, for an enum, the
children of the part of the body after the constants, if there is one. -/
inductive Holds (t : Tree) : List Tree → Prop
  | body {body : Tree} : body ∈ t.children → body.label ∈ [.kind .classBody, .kind .interfaceBody] →
      Holds t body.children
  | afterConstants {body part : Tree} : body ∈ t.children → body.label = .kind .enumBody → part ∈ body.children →
      part.label = .kind .enumBodyDeclarations → Holds t part.children
  | constants {body : Tree} : body ∈ t.children → body.label = .kind .enumBody →
      (∀ part ∈ body.children, part.label ≠ .kind .enumBodyDeclarations) → Holds t []

section
variable {t : Tree}

theorem bodyIndex?_of_mem {body : Tree} (h : t.Conforms alternatives) (hd : t.label.declares = true)
    (hbody : body ∈ t.children) (hencloses : body.label.encloses = true) :
    ∃ b, bodyIndex? t = some b ∧ t.children[b]? = some body := by
  obtain ⟨b, sole, hb, hsole⟩ := exists_body h hd
  obtain ⟨i, hi⟩ := List.mem_iff_getElem?.1 hbody
  have hib : i = b := hsole.unique i body hi (by rw [Label.opens, hencloses, Bool.or_true])
  exact ⟨b, hb, hib ▸ hi⟩

theorem Holds.eq_memberNodes {members : List Tree} (hholds : Holds t members) (h : t.Conforms alternatives)
    (hd : t.label.declares = true) : members = memberNodes t := by
  rcases hholds with ⟨hbody, hl⟩ | ⟨hbody, hl, hpart, hpartLabel⟩ | ⟨hbody, hl, hnone⟩
  · have hencloses : ∀ l ∈ [Label.kind .classBody, .kind .interfaceBody], l.encloses = true := by decide
    have hscope : ∀ l ∈ [Label.kind .classBody, .kind .interfaceBody], ∃ k ∈ Label.scopes, l = .kind k := by
      simp [Label.scopes]
    obtain ⟨b, hb, hi⟩ := bodyIndex?_of_mem h hd hbody (hencloses _ hl)
    obtain ⟨k, hk, hlk⟩ := hscope _ hl
    exact (memberNodes_of_scope hb hi hk hlk).symm
  · obtain ⟨b, hb, hi⟩ := bodyIndex?_of_mem h hd hbody (by rw [hl]; rfl)
    obtain ⟨j, hj⟩ := List.mem_iff_getElem?.1 hpart
    have hafter := afterConstants?_eq_some (h.of_mem hbody) hl hj (by rw [hpartLabel]; rfl)
    exact (memberNodes_of_enumBody hb hi hl hafter hj).symm
  · obtain ⟨b, hb, hi⟩ := bodyIndex?_of_mem h hd hbody (by rw [hl]; rfl)
    refine (memberNodes_of_constants hb hi hl ?_).symm
    rw [afterConstants?, List.findIdx?_eq_none_iff]
    intro part hpart
    simpa [Tree.isKind] using hnone part hpart

theorem holds_memberNodes (h : t.Conforms alternatives) (hd : t.label.declares = true) :
    Holds t (memberNodes t) := by
  obtain ⟨b, body, hb, hsole⟩ := exists_body h hd
  have hmem : body ∈ t.children := List.mem_of_getElem? hsole.getElem?
  rcases Label.exists_of_encloses hsole.encloses with hl | ⟨k, hk, hl⟩
  · cases hafter : afterConstants? body.children with
    | none =>
      rw [memberNodes_of_constants hb hsole.getElem? hl hafter]
      refine .constants hmem hl fun part hpart hlabel => ?_
      have hno := List.findIdx?_eq_none_iff.1 hafter part hpart
      rw [Tree.isKind, hlabel] at hno
      cases hno
    | some i =>
      obtain ⟨part, hpart, hlabel⟩ := label_of_afterConstants? hafter
      rw [memberNodes_of_enumBody hb hsole.getElem? hl hafter hpart]
      exact .afterConstants hmem hl (List.mem_of_getElem? hpart) hlabel
  · -- of the nodes that can stand around declarations only bodies stand directly in one
    have hbodies : ∀ k ∈ Label.declarations, (Tree.childBounds alternatives (fun s => s.label.encloses &&
        !decide (s.label ∈ [Label.kind .classBody, .kind .interfaceBody, .kind .enumBody])) k).most = some 0 := by
      decide
    have hne : ∀ k ∈ Label.scopes, Label.kind k ≠ .kind .enumBody := by decide
    obtain ⟨j, hj, htl⟩ := Label.exists_of_declares hd
    have hlabel := h.imp_of_mem htl (by decide) (hbodies j hj) hmem hsole.encloses
    have hnot := hne k hk
    rw [← hl] at hnot
    rw [memberNodes_of_scope hb hsole.getElem? hk hl]
    exact .body hmem (by simpa [Tree.slot, hnot] using hlabel)

/-- A declaration has one such list of nodes, which is where its members are looked for. -/
theorem holds_iff {members : List Tree} (h : t.Conforms alternatives) (hd : t.label.declares = true) :
    Holds t members ↔ members = memberNodes t :=
  ⟨fun hholds => hholds.eq_memberNodes h hd, fun heq => heq ▸ holds_memberNodes h hd⟩

end

/-! ## Modifiers -/

/-- Whether this is one of the keywords that are modifiers. -/
def Grammar.Label.isModifier : Label → Bool
  | .word w => modifierWords.contains w
  | _ => false

/-- The keywords among the modifiers of a declaration or member. -/
def keywordTokens (t : Tree) : List Tree :=
  (t.children.filter (·.isKind .modifiers)).flatMap fun modifiers =>
    modifiers.children.filter fun c => c.label.isModifier

/-- Everything that is read with its modifiers. -/
def modifiedKinds : List Kind := Label.declarations ++ [.fieldDeclaration, .constantDeclaration, .methodDeclaration]

theorem filter_eq_toList_find? {α : Type} {p : α → Bool} {xs : List α} (hone : xs.countP p ≤ 1) :
    xs.filter p = (xs.find? p).toList := by
  rw [List.countP_eq_length_filter] at hone
  rw [← List.head?_filter]
  match hxs : xs.filter p with
  | [] => rfl
  | [x] => rfl
  | x :: y :: rest => simp [hxs] at hone

/-- What has no name of its own among the modifiers is a keyword. -/
theorem isModifier_eq {m c : Tree} (h : m.Conforms alternatives) (hl : m.label = .kind .modifiers)
    (hc : c ∈ m.children) : c.label.isModifier = !c.label.isNamed := by
  have hkeyword := h.eq_false_of_mem (q := fun s => !s.label.isNamed && !s.label.isModifier) hl (by decide)
    (by decide) hc
  cases hlabel : c.label with
  | word w => simpa [Tree.slot, hlabel, Label.isNamed] using hkeyword
  | kind k => rfl
  | error => rfl
  | missing s => rfl

section
variable (text : List Char) {t : Tree} {k : Kind}

theorem modifiersOf_eq_keywordTokens (h : t.Conforms alternatives) (hk : k ∈ modifiedKinds) (hl : t.label = .kind k) :
    modifiersOf text t = (keywordTokens t).map (textOf text) := by
  have hone : ∀ k ∈ modifiedKinds,
      (Tree.childBounds alternatives (fun s => s.label == .kind .modifiers) k).most = some 1 := by decide
  have hcount := (h.hold_childBounds hl (by decide)).2 1 (hone k hk)
  have hfilter : t.children.filter (·.isKind .modifiers) = (t.child? .modifiers).toList :=
    filter_eq_toList_find? hcount
  rw [modifiersOf_eq, keywordTokens, keywordNodes, hfilter]
  congr 1
  cases hm : t.child? .modifiers with
  | none => rfl
  | some m =>
    obtain ⟨hmem, hlabel⟩ := Tree.of_child?_eq_some hm
    have hconforms := h.of_mem hmem
    rw [Option.elim_some, Option.toList_some, List.flatMap_singleton]
    exact List.filter_congr fun c hc => (isModifier_eq hconforms hlabel hc).symm

/-! ## Fields and methods -/

/-- The one part of a node that is its name has this text. -/
def IsNamed (t : Tree) (s : String) : Prop := (t.partsOf .name).map (textOf text) = [s]

/-- A field is recorded with the keywords among its modifiers and one variable for each declarator, by its
name. -/
structure RecordsField (t : Tree) (f : FieldDeclaration) : Prop where
  modifiers : f.modifiers = (keywordTokens t).map (textOf text)
  declared : List.Forall₂ (fun d v => IsNamed text d v.name) (t.children.filter (·.isKind .variableDeclarator))
    f.declared

structure RecordsMethod (t : Tree) (m : MethodDeclaration) : Prop where
  modifiers : m.modifiers = (keywordTokens t).map (textOf text)
  name : IsNamed text t m.name

theorem isNamed_of_part? {name : Tree} (h : t.Conforms alternatives) (hl : t.label = .kind k)
    (hb : (Tree.childBounds alternatives (fun s => s.role == some .name) k).most = some 1)
    (hname : t.part? .name = some name) : IsNamed text t (textOf text name) := by
  have hcount := (h.hold_childBounds hl (by decide)).2 1 hb
  have hparts : t.partsOf .name = (t.part? .name).toList := filter_eq_toList_find? hcount
  rw [IsNamed, hparts, hname]
  rfl

theorem exists_declaredVariable? (typeName : String) (h : t.Conforms alternatives)
    (hl : t.label = .kind .variableDeclarator) :
    ∃ v, declaredVariable? text typeName t = some v ∧ IsNamed text t v.name := by
  obtain ⟨name, -, -, hname⟩ := exists_part? (r := .name) h hl (by decide)
  rw [declaredVariable?, hname]
  exact ⟨_, rfl, isNamed_of_part? text h hl (by decide) hname⟩

/-- What plays the declarator of a field is a declarator, and nothing else is. -/
theorem partsOf_declarator (h : t.Conforms alternatives) (hk : k ∈ fieldKinds) (hl : t.label = .kind k) :
    t.partsOf .declarator = t.children.filter (·.isKind .variableDeclarator) := by
  have hkind : ∀ k ∈ fieldKinds, (Tree.childBounds alternatives
      (fun s => s.role == some .declarator && !(s.label == .kind .variableDeclarator)) k).most = some 0 := by decide
  have hrole : ∀ k ∈ fieldKinds, (Tree.childBounds alternatives
      (fun s => s.label == .kind .variableDeclarator && !(s.role == some .declarator)) k).most = some 0 := by decide
  refine List.filter_congr fun c hc => Bool.eq_iff_iff.2 ⟨fun hdeclarator => ?_, fun hvariable => ?_⟩
  · exact h.imp_of_mem hl (by decide) (hkind k hk) hc hdeclarator
  · exact h.imp_of_mem hl (by decide) (hrole k hk) hc hvariable

theorem recordsField_of_fieldOf {f : FieldDeclaration} (h : t.Conforms alternatives) (hk : k ∈ fieldKinds)
    (hl : t.label = .kind k) (hf : fieldOf text t = .ok f) : RecordsField text t f := by
  have hmodified : ∀ k ∈ fieldKinds, k ∈ modifiedKinds := by decide
  have hdeclared : ∀ typeName, List.Forall₂ (fun d v => IsNamed text d v.name)
      (t.children.filter (·.isKind .variableDeclarator))
      ((t.partsOf .declarator).filterMap (declaredVariable? text typeName)) := by
    intro typeName
    rw [partsOf_declarator h hk hl]
    have hall : List.Forall₂ (fun d v => IsNamed text d v.name)
        ((t.children.filter (·.isKind .variableDeclarator)).filter fun _ => true)
        ((t.children.filter (·.isKind .variableDeclarator)).filterMap (declaredVariable? text typeName)) := by
      refine forall₂_filterMap nofun fun d hd _ => ?_
      obtain ⟨hd, hkind⟩ := List.mem_filter.1 hd
      exact exists_declaredVariable? text typeName (h.of_mem hd) (eq_of_beq hkind)
    rwa [List.filter_eq_self.2 fun _ _ => rfl] at hall
  unfold fieldOf at hf
  split at hf
  · cases hf
  · dsimp only at hf
    split at hf
    · cases hf
    · cases hf
      exact ⟨modifiersOf_eq_keywordTokens text h (hmodified k hk) hl, hdeclared _⟩

theorem recordsMethod_of_methodOf {m : MethodDeclaration} (h : t.Conforms alternatives)
    (hl : t.label = .kind .methodDeclaration) (hm : methodOf text t = .ok m) : RecordsMethod text t m := by
  obtain ⟨name, -, -, hname⟩ := exists_part? (r := .name) h hl (by decide)
  rw [methodOf, hname] at hm
  cases hm
  exact ⟨modifiersOf_eq_keywordTokens text h (by decide) hl, isNamed_of_part? text h hl (by decide) hname⟩

/-! ## All members -/

theorem forall₂_of_mapM_eq_ok {α β ε : Type} {f : α → Except ε β} {R : α → β → Prop} :
    ∀ {xs : List α} {ys : List β}, (∀ x ∈ xs, ∀ y, f x = .ok y → R x y) → xs.mapM f = .ok ys → List.Forall₂ R xs ys
  | [], ys, _, h => by
    cases h
    exact .nil
  | x :: xs, ys, hR, h => by
    rw [List.mapM_cons] at h
    obtain ⟨y, hy, h⟩ := exists_of_bind_eq_ok h
    obtain ⟨zs, hzs, h⟩ := exists_of_bind_eq_ok h
    cases h
    exact .cons (hR x (List.mem_cons_self ..) y hy)
      (forall₂_of_mapM_eq_ok (fun z hz => hR z (List.mem_cons_of_mem x hz)) hzs)

/-- The members of a declaration that are recorded are those among these nodes. -/
structure RecordsMembers (members : List Tree) (h : Header) : Prop where
  fields : List.Forall₂ (RecordsField text) (members.filter isField) h.fields
  methods : List.Forall₂ (RecordsMethod text) (members.filter (·.isKind .methodDeclaration)) h.methods

theorem Members.recordsField {cs : List Tree} {fields : List FieldDeclaration} (h : Members cs)
    (hfields : fieldsOf text cs = .ok fields) : List.Forall₂ (RecordsField text) (cs.filter isField) fields := by
  refine forall₂_of_mapM_eq_ok (fun c hc f hf => ?_) hfields
  obtain ⟨hc, hfield⟩ := List.mem_filter.1 hc
  rcases Bool.or_eq_true_iff.1 hfield with hkind | hkind
  · exact recordsField_of_fieldOf text (h.conforms c hc) (by decide) (eq_of_beq hkind) hf
  · exact recordsField_of_fieldOf text (h.conforms c hc) (by decide) (eq_of_beq hkind) hf

theorem Members.recordsMethod {cs : List Tree} {methods : List MethodDeclaration} (h : Members cs)
    (hmethods : methodsOf text cs = .ok methods) :
    List.Forall₂ (RecordsMethod text) (cs.filter (·.isKind .methodDeclaration)) methods := by
  refine forall₂_of_mapM_eq_ok (fun c hc m hm => ?_) hmethods
  obtain ⟨hc, hkind⟩ := List.mem_filter.1 hc
  exact recordsMethod_of_methodOf text (h.conforms c hc) (eq_of_beq hkind) hm

/-- Every declaration of the grammar is read. It has one list of nodes where members stand, and its fields and
methods are those among them, one for one and in order; its modifiers are the keywords among the modifiers in
front of it. -/
theorem declarationOf_members {kind : DeclarationKind} (h : t.Conforms alternatives)
    (hkind : DeclarationKind.ofNode? t = some kind) :
    ∃ d members, declarationOf text kind t = .ok d ∧ (∀ ms, Holds t ms ↔ ms = members) ∧
      RecordsMembers text members d.header ∧ d.header.modifiers = (keywordTokens t).map (textOf text) := by
  have hd := DeclarationKind.declares_of_ofNode? hkind
  obtain ⟨d, hread⟩ : ∃ d, declarationOf text kind t = .ok d := exists_declarationOf t h hkind
  have hheader := (declarationOf_eq_ok_iff.1 hread).1
  have hmembers := Members.memberNodes h hd
  refine ⟨d, memberNodes t, hread, fun ms => holds_iff h hd, ?_, ?_⟩
  · exact ⟨hmembers.recordsField text hheader.fields, hmembers.recordsMethod text hheader.methods⟩
  · obtain ⟨k, hk, hl⟩ := Label.exists_of_declares hd
    rw [hheader.modifiers]
    exact modifiersOf_eq_keywordTokens text h (List.mem_append_left _ hk) hl

end

/-! ### An enum -/

def enumText : List Char := "enum E{A;@X(1)public/*c*/static int x,y;;void m();{}}".toList

/-- The field of the enum. -/
def enumField : Tree :=
  .node none (.kind .fieldDeclaration) ⟨9, 40⟩ [
    .node none (.kind .modifiers) ⟨9, 31⟩ [
      .node none (.kind .annotationCall) ⟨9, 14⟩ [
        .leaf (.word .atSign) ⟨9, 10⟩, .leaf (.kind .identifier) ⟨10, 11⟩,
        .node none (.kind .annotationArgumentList) ⟨11, 14⟩ [
          .leaf (.word .openParen) ⟨11, 12⟩, .leaf (.kind .decimalIntegerLiteral) ⟨12, 13⟩,
          .leaf (.word .closeParen) ⟨13, 14⟩]],
      .leaf (.word .publicWord) ⟨14, 20⟩, .leaf (.kind .blockComment) ⟨20, 25⟩,
      .leaf (.word .staticWord) ⟨25, 31⟩],
    .node (some .type) (.kind .integralType) ⟨32, 35⟩ [.leaf (.word .intWord) ⟨32, 35⟩],
    .node (some .declarator) (.kind .variableDeclarator) ⟨36, 37⟩ [.node (some .name) (.kind .identifier) ⟨36, 37⟩ []],
    .leaf (.word .comma) ⟨37, 38⟩,
    .node (some .declarator) (.kind .variableDeclarator) ⟨38, 39⟩ [.node (some .name) (.kind .identifier) ⟨38, 39⟩ []],
    .leaf (.word .semicolon) ⟨39, 40⟩]

/-- The method of the enum. -/
def enumMethod : Tree :=
  .node none (.kind .methodDeclaration) ⟨41, 50⟩ [
    .node (some .type) (.kind .voidType) ⟨41, 45⟩ [],
    .node (some .name) (.kind .identifier) ⟨46, 47⟩ [],
    .node (some .parameters) (.kind .formalParameters) ⟨47, 49⟩ [
      .leaf (.word .openParen) ⟨47, 48⟩, .leaf (.word .closeParen) ⟨48, 49⟩],
    .leaf (.word .semicolon) ⟨49, 50⟩]

/-- What stands after the constants of the enum: besides the field and the method two semicolons and an
initializer. -/
def enumMembers : List Tree :=
  [.leaf (.word .semicolon) ⟨8, 9⟩, enumField, .leaf (.word .semicolon) ⟨40, 41⟩, enumMethod,
    .node none (.kind .block) ⟨50, 52⟩ [.leaf (.word .openBrace) ⟨50, 51⟩, .leaf (.word .closeBrace) ⟨51, 52⟩]]

def enumPart : Tree :=
  .node none (.kind .enumBodyDeclarations) ⟨8, 52⟩ enumMembers

def enumBody : Tree :=
  .node (some .body) (.kind .enumBody) ⟨6, 53⟩ [
    .leaf (.word .openBrace) ⟨6, 7⟩,
    .node none (.kind .enumConstant) ⟨7, 8⟩ [.node (some .name) (.kind .identifier) ⟨7, 8⟩ []],
    enumPart,
    .leaf (.word .closeBrace) ⟨52, 53⟩]

def enumWithMembers : Tree :=
  .node none (.kind .enumDeclaration) ⟨0, 53⟩ [
    .leaf (.word .enumWord) ⟨0, 4⟩, .node (some .name) (.kind .identifier) ⟨5, 6⟩ [], enumBody]

/-- The annotation and the comment between the keywords of the field are passed over, and so are the semicolons
and the initializer. -/
theorem declarationOf_members_enumWithMembers : enumWithMembers.Conforms alternatives ∧
    DeclarationKind.ofNode? enumWithMembers = some .enumType ∧
    ∃ d, declarationOf enumText .enumType enumWithMembers = .ok d ∧ Holds enumWithMembers enumMembers ∧
      RecordsMembers enumText enumMembers d.header ∧
      d.header.fields.map (·.modifiers) = [["public", "static"]] ∧
      d.header.fields.map (·.declared) = [[⟨"int", "x"⟩, ⟨"int", "y"⟩]] ∧
      d.header.methods.map (·.name) = ["m"] := by
  have hconforms : enumWithMembers.Conforms alternatives := Tree.conforms_of_fits _ (by decide)
  have hkind : DeclarationKind.ofNode? enumWithMembers = some .enumType := rfl
  obtain ⟨d, members, hread, hholds, hrecords, -⟩ := declarationOf_members enumText hconforms hkind
  have hmembers : Holds enumWithMembers enumMembers :=
    @Holds.afterConstants enumWithMembers enumBody enumPart (by simp [enumWithMembers, Tree.children]) rfl
      (by simp [enumBody, Tree.children]) rfl
  rw [← (hholds enumMembers).1 hmembers] at hrecords
  refine ⟨hconforms, hkind, d, hread, hmembers, hrecords, ?_⟩
  cases hread
  decide +kernel

end ClassDiagram
