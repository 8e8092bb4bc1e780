/-
The parameters of a method. Every parameter in the parentheses is recorded, in order, and a receiver is not.
A parameter for one argument is recorded with its type and the brackets after its name. A parameter for any
number of arguments is recorded with the type of one of them, which is looked for by position: it is the
first named child that can be found behind the modifiers. A comment in front of the type is such a child too,
and is then taken for the type.
-/
import ClassDiagram.Proofs.Grammar.Check
import ClassDiagram.Proofs.Unit.Clauses
import ClassDiagram.Proofs.Unit.Shape
import Mathlib.Data.List.Forall2

namespace ClassDiagram

open ClassDiagram.Grammar ClassDiagram.Text

/-! ## Types -/

namespace Grammar

/-- What is a type without annotations in front of it. -/
def Label.types : List Label :=
  [.kind .voidType, .kind .integralType, .kind .floatingPointType, .kind .booleanType, .kind .typeIdentifier,
    .kind .scopedTypeIdentifier, .kind .genericType, .kind .arrayType]

namespace Rule

/-- A type is a single node. -/
theorem exists_of_allows_type {ss : List Slot} (h : (sub .unannotatedType).Allows alternatives ss) :
    ∃ s, ss = [s] ∧ s.label ∈ Label.types := by
  have hone := hold_phraseBounds hiddenDepth (fun _ => true) .unannotatedType ss h
  have hnone := hold_phraseBounds hiddenDepth (fun s => decide (s.label ∉ Label.types)) .unannotatedType ss h
  have hlength : ss.length = 1 := by
    rw [List.countP_true] at hone
    exact hone.eq_of_exactly (by decide)
  obtain ⟨s, rfl⟩ := List.length_eq_one_iff.1 hlength
  refine ⟨s, rfl, ?_⟩
  have hzero := List.countP_eq_zero.1 (hnone.eq_of_exactly (by decide)) s (List.mem_singleton.2 rfl)
  simpa using hzero

theorem exists_of_allows_spreadParameter {a : Alternative} {ss : List Slot} (ha : a ∈ alternatives .spreadParameter)
    (h : a.body.Allows alternatives ss) :
    ∃ modifiers type rest, ss = modifiers ++ type :: ⟨none, .word .ellipsis⟩ :: rest ∧
      (∀ m ∈ modifiers, m.label = .kind .modifiers) ∧ type.label ∈ Label.types := by
  cases List.mem_singleton.1 ha
  obtain ⟨modifiers, rest, rfl, hmodifiers, h⟩ := allows_seq_iff.1 h
  obtain ⟨types, rest, rfl, htypes, h⟩ := allows_seq_iff.1 h
  obtain ⟨dots, rest, rfl, hdots, -⟩ := allows_seq_iff.1 h
  obtain ⟨type, rfl, htype⟩ := exists_of_allows_type htypes
  refine ⟨modifiers, type, rest, ?_, ?_, htype⟩
  · rw [allows_word_iff.1 hdots]
    rfl
  · rcases allows_choice_iff.1 hmodifiers with hsome | hnone
    · rw [(allows_sub_iff rfl).1 hsome]
      simp
    · cases hnone
      simp

end Rule

end Grammar

/-! ## Looking for parts that are there once -/

section
variable {t c : Tree} {k : Kind}

theorem part?_eq_some_iff {r : Role} (h : t.Conforms alternatives) (hl : t.label = .kind k)
    (hb : (Tree.childBounds alternatives (fun s => s.role == some r) k).most = some 1) :
    t.part? r = some c ↔ c ∈ t.children ∧ c.role = some r := by
  constructor
  · intro hc
    exact ⟨List.mem_of_find?_eq_some hc, by simpa using List.find?_some hc⟩
  · rintro ⟨hc, hrole⟩
    have hone := (h.hold_childBounds hl (by simp [Slot.comments])).2 1 hb
    exact find?_eq_some_of_countP_le hone hc (by simpa using hrole)

theorem exists_part? {r : Role} (h : t.Conforms alternatives) (hl : t.label = .kind k)
    (hb : 0 < (Tree.childBounds alternatives (fun s => s.role == some r) k).least) :
    ∃ c ∈ t.children, c.role = some r ∧ t.part? r = some c := by
  obtain ⟨c, hc⟩ := Option.isSome_iff_exists.1 (isSome_part? h hl hb)
  exact ⟨c, List.mem_of_find?_eq_some hc, by simpa using List.find?_some hc, hc⟩

/-- The parameters of a method stand in one pair of parentheses. -/
theorem exists_parentheses (h : t.Conforms alternatives) (hl : t.label = .kind .methodDeclaration) :
    ∃ list, t.children.filter (·.isKind .formalParameters) = [list] ∧ t.part? .parameters = some list := by
  have hcount := h.hold_childBounds (q := fun s => s.label == .kind .formalParameters) hl (by decide)
  have hlength : (t.children.filter (·.isKind .formalParameters)).length = 1 := by
    rw [← List.countP_eq_length_filter]
    exact hcount.eq_of_exactly (by decide)
  obtain ⟨list, hlist⟩ := List.length_eq_one_iff.1 hlength
  have hmem : list ∈ t.children.filter (·.isKind .formalParameters) := hlist ▸ List.mem_singleton.2 rfl
  obtain ⟨hmem, hkind⟩ := List.mem_filter.1 hmem
  have hrole := h.imp_of_mem (p := fun s => s.label == .kind .formalParameters)
    (q := fun s => s.role == some .parameters) hl (by decide) (by decide) hmem hkind
  exact ⟨list, hlist, (part?_eq_some_iff h hl (by decide)).2 ⟨hmem, eq_of_beq hrole⟩⟩

end

/-! ## What is recorded of a parameter -/

/-- Whether a node is a parameter, for one argument or for any number of them. -/
def isParameter (t : Tree) : Bool := t.isKind .formalParameter || t.isKind .spreadParameter

/-- The parameters in the parentheses of a method. -/
def parameterNodes (t : Tree) : List Tree :=
  (t.children.filter (·.isKind .formalParameters)).flatMap fun list => list.children.filter isParameter

/-- A type stands before the dots of a parameter for any number of arguments, with nothing but comments
between them; `before` is what stands before the type. -/
structure IsElementType (t : Tree) (before : List Tree) (type : Tree) : Prop where
  isType : type.label ∈ Label.types
  beforeDots : ∃ comments dots after, t.children = before ++ type :: (comments ++ dots :: after) ∧
    (∀ c ∈ comments, c.isComment = true) ∧ dots.label = .word .ellipsis

section
variable (text : List Char)

/-- A parameter for one argument is recorded with its name and a type that begins with its type node. -/
structure RecordsFormal (t : Tree) (v : Variable) : Prop where
  name : ∃ n ∈ t.children, n.role = some .name ∧ v.name = textOf text n
  type : ∃ type ∈ t.children, type.role = some .type ∧ type.label ∈ Label.types ∧
    ∃ dimensions, v.typeName = textOf text type ++ dimensions

/-- A parameter for any number of arguments is recorded with the name in its declarator and its element type, if
no comment stands before that type; otherwise the first such comment is recorded. -/
structure RecordsSpread (t : Tree) (v : Variable) : Prop where
  name : ∃ d ∈ t.children, d.isKind .variableDeclarator = true ∧ ∃ n ∈ d.children, n.role = some .name ∧
    v.name = textOf text n
  type : ∃ before type, IsElementType t before type ∧
    ((∀ c ∈ before, c.isComment = false) → v.typeName = textOf text type) ∧
    ∀ c, before.find? Tree.isComment = some c → v.typeName = textOf text c

/-- What is recorded of a parameter. -/
structure RecordsParameter (t : Tree) (v : Variable) : Prop where
  formal : t.isKind .formalParameter = true → RecordsFormal text t v
  spread : t.isKind .spreadParameter = true → RecordsSpread text t v

variable {t : Tree}

/-! ## Parameters for one argument -/

theorem exists_formalParameter? (h : t.Conforms alternatives) (hl : t.label = .kind .formalParameter) :
    ∃ v, formalParameter? text t = some v ∧ RecordsFormal text t v := by
  obtain ⟨type, htypeMem, htypeRole, htype⟩ := exists_part? (r := .type) h hl (by decide)
  obtain ⟨name, hnameMem, hnameRole, hname⟩ := exists_part? (r := .name) h hl (by decide)
  have hlabel := h.imp_of_mem (p := fun s => s.role == some .type) (q := fun s => decide (s.label ∈ Label.types)) hl
    (by decide) (by decide) htypeMem (beq_iff_eq.2 htypeRole)
  rw [formalParameter?, htype, hname]
  exact ⟨_, rfl, ⟨name, hnameMem, hnameRole, rfl⟩, type, htypeMem, htypeRole, of_decide_eq_true hlabel, _, rfl⟩

/-! ## Parameters for any number of arguments -/

/-- Before the element type there are only modifiers and comments. -/
theorem exists_elementType (h : t.Conforms alternatives) (hl : t.label = .kind .spreadParameter) :
    ∃ before type, IsElementType t before type ∧
      ∀ c ∈ before, c.isComment = true ∨ c.isKind .modifiers = true := by
  obtain ⟨a, ha, hbody⟩ := h.exists_allows_parts hl (by decide)
  obtain ⟨ms, s, rest, hrow, hms, hs⟩ := Rule.exists_of_allows_spreadParameter ha hbody
  obtain ⟨modifiers, ps, hparts, rfl, hps⟩ := List.map_eq_append_iff.1 hrow
  obtain ⟨type, qs, rfl, rfl, hqs⟩ := List.map_eq_cons_iff.1 hps
  obtain ⟨dots, _, rfl, hdots, -⟩ := List.map_eq_cons_iff.1 hqs
  -- the parts are the children without the comments, so comments come in between
  obtain ⟨front, back, hchildren, hfront, hback⟩ := List.filter_eq_append_iff.1 hparts
  obtain ⟨between, back, rfl, hbetween, -, hback⟩ := List.filter_eq_cons_iff.1 hback
  obtain ⟨comments, after, rfl, hcomments, -, -⟩ := List.filter_eq_cons_iff.1 hback
  refine ⟨front ++ between, type, ⟨hs, comments, dots, after, ?_, ?_, congrArg Slot.label hdots⟩, ?_⟩
  · rw [hchildren, List.append_assoc]
  · exact fun c hc => by simpa using hcomments c hc
  · intro c hc
    rcases List.mem_append.1 hc with hc | hc
    · cases hcomment : c.isComment with
      | true => exact .inl rfl
      | false =>
        have hmem : c ∈ modifiers := hfront ▸ List.mem_filter.2 ⟨hc, by simp [hcomment]⟩
        exact .inr (beq_iff_eq.2 (hms _ (List.mem_map_of_mem hmem)))
    · exact .inl (by simpa using hbetween c hc)

/-- A search that stops at `x` finds what it would stop at before. -/
theorem find?_append_cons {α : Type} {p q : α → Bool} {x : α} (hx : p x = true) (after : List α) :
    ∀ {before : List α}, (∀ y ∈ before, p y = q y) → (before ++ x :: after).find? p = some ((before.find? q).getD x)
  | [], _ => by rw [List.nil_append, List.find?_cons_of_pos hx]; rfl
  | y :: ys, h => by
    have ih := find?_append_cons hx after fun z hz => h z (List.mem_cons_of_mem y hz)
    rw [List.cons_append, List.find?_cons, List.find?_cons, h y (List.mem_cons_self ..), ih]
    cases q y <;> rfl

/-- Where the search for the element type stops. -/
def stopsAt (l : Label) : Bool := l.isNamed && !(l == .kind .modifiers || l == .kind .variableDeclarator)

/-- The search for the type goes past the modifiers and stops at a comment or at the type. -/
theorem find?_elementType {before : List Tree} {type : Tree} (htype : IsElementType t before type)
    (hbefore : ∀ c ∈ before, c.isComment = true ∨ c.isKind .modifiers = true) :
    t.namedChildren.find? (fun c => !(c.isKind .modifiers || c.isKind .variableDeclarator)) =
      some ((before.find? Tree.isComment).getD type) := by
  have hsearch : t.namedChildren.find? (fun c => !(c.isKind .modifiers || c.isKind .variableDeclarator)) =
      t.children.find? fun c => stopsAt c.label := by
    rw [Tree.namedChildren, List.find?_filter]
    simp only [Bool.decide_and, Bool.decide_eq_true]
    rfl
  have hstops : stopsAt type.label = true :=
    (show ∀ l ∈ Label.types, stopsAt l = true by decide) _ htype.isType
  have hpasses : ∀ c ∈ before, stopsAt c.label = c.isComment := by
    intro c hc
    rcases hbefore c hc with hcomment | hmodifiers
    · rw [hcomment]
      exact (show ∀ s ∈ Slot.comments, stopsAt s.label = true by decide) c.slot (List.contains_iff_mem.1 hcomment)
    · have hlabel : c.label = .kind .modifiers := eq_of_beq hmodifiers
      rw [Tree.isComment, Tree.slot, hlabel]
      simp [Slot.comments, stopsAt]
  obtain ⟨comments, dots, after, hchildren, -, -⟩ := htype.beforeDots
  rw [hsearch, hchildren]
  exact find?_append_cons (p := fun c : Tree => stopsAt c.label) hstops _ hpasses

theorem exists_spreadParameter? (h : t.Conforms alternatives) (hl : t.label = .kind .spreadParameter) :
    ∃ v, spreadParameter? text t = some v ∧ RecordsSpread text t v := by
  obtain ⟨before, type, htype, hbefore⟩ := exists_elementType h hl
  obtain ⟨declarator, hmem, hkind⟩ := h.exists_mem (q := fun s => s.label == .kind .variableDeclarator) hl (by decide)
    (by decide)
  obtain ⟨name, hnameMem, hnameRole, hname⟩ := exists_part? (r := .name) (h.of_mem hmem) (eq_of_beq hkind) (by decide)
  have hdeclarator : t.namedChildren.find? (·.isKind .variableDeclarator) = some declarator := by
    have hone :=
      countP_namedChildren_le (q := fun s => s.label == .kind .variableDeclarator) h hl (by decide) (by decide)
    refine find?_eq_some_of_countP_le hone (List.mem_filter.2 ⟨hmem, ?_⟩) hkind
    rw [show declarator.label = _ from eq_of_beq hkind]
    rfl
  rw [spreadParameter?, find?_elementType htype hbefore, hdeclarator]
  simp only [Option.bind_eq_bind, Option.bind_some, hname]
  refine ⟨_, rfl, ⟨declarator, hmem, hkind, name, hnameMem, hnameRole, rfl⟩, before, type, htype, ?_, ?_⟩
  · intro hclear
    rw [List.find?_eq_none.2 fun c hc => by simp [hclear c hc], Option.getD_none]
  · intro c hc
    rw [hc, Option.getD_some]

/-! ## All parameters of a method -/

theorem forall₂_filterMap {α β : Type} {R : α → β → Prop} {p : α → Bool} {f : α → Option β} : ∀ {xs : List α},
    (∀ x ∈ xs, p x = false → f x = none) → (∀ x ∈ xs, p x = true → ∃ y, f x = some y ∧ R x y) →
    List.Forall₂ R (xs.filter p) (xs.filterMap f)
  | [], _, _ => .nil
  | x :: xs, hnone, hsome => by
    have ih := forall₂_filterMap (fun y hy => hnone y (List.mem_cons_of_mem x hy))
      (fun y hy => hsome y (List.mem_cons_of_mem x hy))
    cases hx : p x with
    | false =>
      rw [List.filter_cons_of_neg (by simp [hx]), List.filterMap_cons_none (hnone x (List.mem_cons_self ..) hx)]
      exact ih
    | true =>
      obtain ⟨y, hy, hR⟩ := hsome x (List.mem_cons_self ..) hx
      rw [List.filter_cons_of_pos hx, List.filterMap_cons_some hy]
      exact .cons hR ih

/-- The parentheses hold one record for each parameter. -/
theorem forall₂_parametersOf {list : Tree} (h : list.Conforms alternatives) :
    List.Forall₂ (RecordsParameter text) (list.children.filter isParameter) (parametersOf text list) := by
  have hnamed : list.children.filter isParameter = list.namedChildren.filter isParameter := by
    rw [Tree.namedChildren, List.filter_filter]
    refine List.filter_congr fun c _ => ?_
    cases hc : isParameter c with
    | false => rfl
    | true =>
      rcases Bool.or_eq_true_iff.1 hc with hkind | hkind
      · rw [show c.label = _ from eq_of_beq hkind]
        rfl
      · rw [show c.label = _ from eq_of_beq hkind]
        rfl
  rw [hnamed, parametersOf]
  refine forall₂_filterMap ?_ ?_
  · intro c _ hc
    obtain ⟨hformal, hspread⟩ := Bool.or_eq_false_iff.1 hc
    simp only [hformal, hspread, Bool.false_eq_true, if_false]
  · intro c hc hparameter
    have hconforms := h.of_mem (List.mem_filter.1 hc).1
    by_cases hformal : c.isKind .formalParameter = true
    · have hnot : ¬ c.isKind .spreadParameter = true := by
        simp [Tree.isKind, show c.label = _ from eq_of_beq hformal]
      obtain ⟨v, hv, hrecords⟩ := exists_formalParameter? text hconforms (eq_of_beq hformal)
      exact ⟨v, by rw [if_pos hformal, hv], fun _ => hrecords, fun hspread => absurd hspread hnot⟩
    · have hspread : c.isKind .spreadParameter = true := (Bool.or_eq_true_iff.1 hparameter).resolve_left hformal
      obtain ⟨v, hv, hrecords⟩ := exists_spreadParameter? text hconforms (eq_of_beq hspread)
      exact ⟨v, by rw [if_neg hformal, if_pos hspread, hv], fun h => absurd h hformal, fun _ => hrecords⟩

/-- Every method of the grammar is read, with one parameter for each of its parameter nodes, in order: none is
lost, and neither a receiver nor a comment becomes one. What is recorded of each is its name and its type; only a
comment before the element type of a parameter for any number of arguments takes the place of that type. -/
theorem methodOf_parameters (h : t.Conforms alternatives) (hl : t.label = .kind .methodDeclaration) :
    ∃ m, methodOf text t = .ok m ∧ List.Forall₂ (RecordsParameter text) (parameterNodes t) m.parameters := by
  obtain ⟨list, hfilter, hpart⟩ := exists_parentheses h hl
  obtain ⟨name, -, -, hname⟩ := exists_part? (r := .name) h hl (by decide)
  have hmem : list ∈ t.children := List.mem_of_find?_eq_some hpart
  rw [methodOf, hname, parameterNodes, hfilter, List.flatMap_singleton]
  refine ⟨_, rfl, ?_⟩
  simp only [hpart]
  exact forall₂_parametersOf text (h.of_mem hmem)

end

/-! ### Two methods -/

/-- The children of `void m` in front of its parameters. -/
def voidHead : List Tree :=
  [.node (some .type) (.kind .voidType) ⟨0, 4⟩ [],
    .node (some .name) (.kind .identifier) ⟨5, 6⟩ []]

def receivingText : List Char := "void m(T this,/*x*/int a[],final B/*y*/...c);".toList

/-- A method with a receiver, a parameter of each sort and comments between them and inside one. -/
def receivingMethod : Tree :=
  .node none (.kind .methodDeclaration) ⟨0, 45⟩ (voidHead ++ [
    .node (some .parameters) (.kind .formalParameters) ⟨6, 44⟩ [
      .leaf (.word .openParen) ⟨6, 7⟩,
      .node none (.kind .receiverParameter) ⟨7, 13⟩ [
        .leaf (.kind .typeIdentifier) ⟨7, 8⟩,
        .leaf (.kind .thisReference) ⟨9, 13⟩],
      .leaf (.word .comma) ⟨13, 14⟩,
      .leaf (.kind .blockComment) ⟨14, 19⟩,
      .node none (.kind .formalParameter) ⟨19, 26⟩ [
        .node (some .type) (.kind .integralType) ⟨19, 22⟩ [.leaf (.word .intWord) ⟨19, 22⟩],
        .node (some .name) (.kind .identifier) ⟨23, 24⟩ [],
        .node (some .dimensions) (.kind .dimensions) ⟨24, 26⟩ [
          .leaf (.word .openBracket) ⟨24, 25⟩, .leaf (.word .closeBracket) ⟨25, 26⟩]],
      .leaf (.word .comma) ⟨26, 27⟩,
      .node none (.kind .spreadParameter) ⟨27, 43⟩ [
        .node none (.kind .modifiers) ⟨27, 32⟩ [.leaf (.word .finalWord) ⟨27, 32⟩],
        .leaf (.kind .typeIdentifier) ⟨33, 34⟩,
        .leaf (.kind .blockComment) ⟨34, 39⟩,
        .leaf (.word .ellipsis) ⟨39, 42⟩,
        .node none (.kind .variableDeclarator) ⟨42, 43⟩ [.node (some .name) (.kind .identifier) ⟨42, 43⟩ []]],
      .leaf (.word .closeParen) ⟨43, 44⟩],
    .leaf (.word .semicolon) ⟨44, 45⟩])

theorem methodOf_parameters_receivingMethod : receivingMethod.Conforms alternatives ∧
    receivingMethod.label = .kind .methodDeclaration ∧ ∃ m, methodOf receivingText receivingMethod = .ok m ∧
      m.parameters = [⟨"int[]", "a"⟩, ⟨"B", "c"⟩] ∧
      List.Forall₂ (RecordsParameter receivingText) (parameterNodes receivingMethod) m.parameters := by
  have hconforms : receivingMethod.Conforms alternatives := Tree.conforms_of_fits _ (by decide)
  obtain ⟨m, hm, hparameters⟩ := methodOf_parameters receivingText hconforms rfl
  refine ⟨hconforms, rfl, m, hm, ?_, hparameters⟩
  cases hm
  decide

def commentedText : List Char := "void m(final/*c*/String...a);".toList

/-- The modifiers of the parameter and the comment after them. -/
def commentedFront : List Tree :=
  [.node none (.kind .modifiers) ⟨7, 12⟩ [.leaf (.word .finalWord) ⟨7, 12⟩], .leaf (.kind .blockComment) ⟨12, 17⟩]

def commentedType : Tree := .leaf (.kind .typeIdentifier) ⟨17, 23⟩

/-- A parameter with a comment in front of its type. -/
def commentedParameter : Tree :=
  .node none (.kind .spreadParameter) ⟨7, 27⟩ (commentedFront ++ [
    commentedType,
    .leaf (.word .ellipsis) ⟨23, 26⟩,
    .node none (.kind .variableDeclarator) ⟨26, 27⟩ [.node (some .name) (.kind .identifier) ⟨26, 27⟩ []]])

def commentedMethod : Tree :=
  .node none (.kind .methodDeclaration) ⟨0, 29⟩ (voidHead ++ [
    .node (some .parameters) (.kind .formalParameters) ⟨6, 28⟩ [
      .leaf (.word .openParen) ⟨6, 7⟩, commentedParameter, .leaf (.word .closeParen) ⟨27, 28⟩],
    .leaf (.word .semicolon) ⟨28, 29⟩])

/-- A comment between the modifiers and the type is recorded in place of the type. -/
theorem methodOf_commentedMethod : commentedMethod.Conforms alternatives ∧
    parameterNodes commentedMethod = [commentedParameter] ∧
    IsElementType commentedParameter commentedFront commentedType ∧ textOf commentedText commentedType = "String" ∧
    ∃ m, methodOf commentedText commentedMethod = .ok m ∧ m.parameters = [⟨"/*c*/", "a"⟩] := by
  refine ⟨Tree.conforms_of_fits _ (by decide), rfl, ⟨by decide, [], _, _, rfl, nofun, rfl⟩, by decide, _, rfl, ?_⟩
  decide

end ClassDiagram
