/-
The type that a clause refers to. A class type is a path of identifiers with dots between them, any of
which may have type arguments and annotations. A reference is made from the text by leaving out what
stands in angle brackets, so it is the path as long as the brackets in the text are those of the type
arguments, and nothing but blanks and the path stands outside of them. An annotation or a comment
between two identifiers of the path becomes part of the reference.
-/
import ClassDiagram.Proofs.Grammar.Check
import ClassDiagram.Proofs.Unit.Clauses
import ClassDiagram.Proofs.Unit.Stripping

namespace ClassDiagram

open ClassDiagram.Grammar ClassDiagram.Text

/-! ## The path of a class type -/

namespace Grammar.Wording

mutual

/-- The identifiers of a class type from left to right, without those in its arguments and
annotations. -/
def typePath : Wording → List String
  | word _ l s => if l = .kind .typeIdentifier then [s] else []
  | phrase _ l ps => if l ∈ Label.classTypes then typePathOf ps else []

def typePathOf : List Wording → List String
  | [] => []
  | p :: ps => p.typePath ++ typePathOf ps

end

mutual

/-- Whether a class type has no annotations on its identifiers, and all angle brackets in it are brackets
of type arguments. -/
def isPlain : Wording → Bool
  | word _ l _ => !l.isAnnotation
  | phrase r l ps =>
    if l = .kind .typeArguments then (phrase r l ps).isBracketed else !l.isAnnotation && isPlainAll ps

def isPlainAll : List Wording → Bool
  | [] => true
  | p :: ps => p.isPlain && isPlainAll ps

end

theorem isPlainAll_iff {ps : List Wording} : isPlainAll ps = true ↔ ∀ p ∈ ps, p.isPlain = true := by
  induction ps with
  | nil => simp [isPlainAll]
  | cons p ps ih => simp [isPlainAll, ih]

theorem typePathOf_eq (ps : List Wording) : typePathOf ps = ps.flatMap typePath := by
  induction ps with
  | nil => rfl
  | cons p ps ih => rw [typePathOf, List.flatMap_cons, ih]

theorem isAnnotation_of_isPlain {w : Wording} (h : w.isPlain = true) : w.slot.label.isAnnotation = false := by
  cases w with
  | word r l s => simpa [isPlain, slot] using h
  | phrase r l ps =>
    rw [isPlain] at h
    split at h
    · rename_i hl
      rw [slot, hl]
      rfl
    · simpa [slot] using (Bool.and_eq_true_iff.1 h).1

end Grammar.Wording

/-- A path that is left of a text after stripping. -/
structure ReadsAs (cs : List Char) (path : List String) : Prop where
  nonempty : path ≠ []
  identifiers : ∀ name ∈ path, isIdentifier name = true
  strips : Strips 0 cs (".".intercalate path).toList

namespace ReadsAs

variable {cs ds : List Char} {path : List String}

theorem identifier {name : String} (h : isIdentifier name = true) : ReadsAs name.toList [name] where
  nonempty := List.cons_ne_nil _ _
  identifiers := by simpa using h
  strips := by simpa using Strips.of_unbroken (unbroken_of_isIdentifier h)

theorem dot {name : String} (h : ReadsAs cs path) (hname : isIdentifier name = true) :
    ReadsAs (cs ++ ('.' :: name.toList)) (path ++ [name]) where
  nonempty := by simp
  identifiers := by
    intro n hn
    rcases List.mem_append.1 hn with hn | hn
    · exact h.identifiers n hn
    · rw [List.mem_singleton.1 hn]
      exact hname
  strips := by
    have hdot : Strips 0 ['.'] ['.'] := ⟨by decide, by decide⟩
    rw [intercalate_concat h.nonempty, String.toList_append, String.toList_append, List.append_assoc]
    exact h.strips.append (hdot.append (.of_unbroken (unbroken_of_isIdentifier hname)))

theorem append_stripped (h : ReadsAs cs path) (hds : Strips 0 ds []) : ReadsAs (cs ++ ds) path where
  nonempty := h.nonempty
  identifiers := h.identifiers
  strips := by simpa using h.strips.append hds

end ReadsAs

namespace Grammar.Tree

section
variable {text : List Char} {t : Tree}

theorem typePath_of_parts (h : t.parts ≠ []) (hl : t.label ∈ Label.classTypes) :
    (t.wording text).typePath = t.parts.flatMap fun c => (c.wording text).typePath := by
  rw [wording_of_parts_ne_nil text h, Wording.typePath, if_pos hl, Wording.typePathOf_eq, List.flatMap_map]

theorem typePath_eq_nil (hl : t.label ∉ Label.classTypes) : (t.wording text).typePath = [] := by
  by_cases hne : t.parts = []
  · have hname : t.label ≠ .kind .typeIdentifier := fun h => hl (h ▸ by decide)
    rw [wording_of_parts_eq_nil text hne, Wording.typePath, if_neg hname]
  · rw [wording_of_parts_ne_nil text hne, Wording.typePath, if_neg hl]

theorem isPlain_of_mem_parts (hl : t.label ≠ .kind .typeArguments) (h : (t.wording text).isPlain = true) {c : Tree}
    (hc : c ∈ t.parts) : (c.wording text).isPlain = true := by
  rw [wording_of_parts_ne_nil text (List.ne_nil_of_mem hc), Wording.isPlain, if_neg hl, Bool.and_eq_true,
    Wording.isPlainAll_iff] at h
  exact h.2 _ (List.mem_map_of_mem hc)

theorem isBracketed_of_isPlain (hl : t.label = .kind .typeArguments) (hne : t.parts ≠ [])
    (h : (t.wording text).isPlain = true) : (t.wording text).isBracketed = true := by
  rw [wording_of_parts_ne_nil text hne] at h ⊢
  rw [Wording.isPlain, if_pos hl] at h
  exact h

/-- Nothing is left of type arguments in which all angle brackets are those of type arguments. -/
theorem strips_of_isPlain (ht : t.Spells text) (hl : t.label = .kind .typeArguments)
    (h : (t.wording text).isPlain = true) : Strips 0 (t.wording text).characters [] := by
  refine strips_typeArguments ht hl fun c hc hnot => ?_
  have hbracketed := isBracketed_of_isPlain hl (List.ne_nil_of_mem hc) h
  exact strips_of_isBracketed c (ht.of_mem_parts hc) (isBracketed_of_mem_parts hbracketed hc fun _ => hnot) 0

/-- The path of a scoped type goes on with its last identifier, if it has no annotations. -/
theorem readsAs_scopedType (ht : t.Spells text) (hl : t.label = .kind .scopedTypeIdentifier)
    (hplain : ∀ c ∈ t.parts, c.label.isAnnotation = false)
    (hread : ∀ c ∈ t.parts, c.label ∈ Label.classTypes →
      ReadsAs (c.wording text).characters (c.wording text).typePath) :
    ReadsAs (t.wording text).characters (t.wording text).typePath := by
  obtain ⟨first, dot, last, hparts, hfirst, hdot, hlast⟩ := ht.conforms.parts_scopedType hl hplain
  have hne : t.parts ≠ [] := by rw [hparts]; exact List.cons_ne_nil _ _
  have hpart : ∀ c ∈ t.parts, c.Spells text := fun c hc => ht.of_mem_parts hc
  rw [characters_of_parts hne, typePath_of_parts hne (hl ▸ by decide)]
  rw [hparts] at hpart hread ⊢
  have hdotPath : (dot.wording text).typePath = [] := typePath_eq_nil (hdot ▸ by decide)
  have hdotCharacters := (hpart dot (by simp)).characters_of_word hdot
  obtain ⟨hwording, hidentifier⟩ := (hpart last (by simp)).wording_of_typeIdentifier hlast
  simp only [List.flatMap_cons, List.flatMap_nil, List.append_nil, hdotCharacters, hdotPath, hwording,
    Wording.characters_word, Wording.typePath, if_true, List.nil_append]
  exact (hread first (by simp) hfirst).dot hidentifier

/-- The path of a generic type is that of the type without the arguments. -/
theorem readsAs_genericType (ht : t.Spells text) (hl : t.label = .kind .genericType)
    (hplain : ∀ c ∈ t.parts, (c.wording text).isPlain = true)
    (hread : ∀ c ∈ t.parts, c.label ∈ Label.classTypes →
      ReadsAs (c.wording text).characters (c.wording text).typePath) :
    ReadsAs (t.wording text).characters (t.wording text).typePath := by
  obtain ⟨first, arguments, hparts, hfirst, harguments⟩ := ht.conforms.parts_genericType hl
  have hne : t.parts ≠ [] := by rw [hparts]; exact List.cons_ne_nil _ _
  have hpart : ∀ c ∈ t.parts, c.Spells text := fun c hc => ht.of_mem_parts hc
  rw [characters_of_parts hne, typePath_of_parts hne (hl ▸ by decide)]
  rw [hparts] at hpart hplain hread ⊢
  have hargumentsPath : (arguments.wording text).typePath = [] := typePath_eq_nil (harguments ▸ by decide)
  have hstrips := strips_of_isPlain (hpart arguments (by simp)) harguments (hplain arguments (by simp))
  simp only [List.flatMap_cons, List.flatMap_nil, List.append_nil, hargumentsPath]
  exact (hread first (by simp) hfirst).append_stripped hstrips

/-- What is left of a class type after stripping is its path. -/
theorem readsAs_typePath (t : Tree) : t.Spells text → t.label ∈ Label.classTypes → (t.wording text).isPlain = true →
    ReadsAs (t.wording text).characters (t.wording text).typePath := by
  refine rec_children (P := fun t => t.Spells text → t.label ∈ Label.classTypes → (t.wording text).isPlain = true →
    ReadsAs (t.wording text).characters (t.wording text).typePath) ?_ t
  intro t ih ht hl h
  -- the induction goes down the first parts; type arguments are no class types and are dealt with as a whole
  have hnot : t.label ≠ .kind .typeArguments := fun heq => absurd (heq ▸ hl) (by decide)
  have hplain : ∀ c ∈ t.parts, (c.wording text).isPlain = true := fun c hc => isPlain_of_mem_parts hnot h hc
  have hread : ∀ c ∈ t.parts, c.label ∈ Label.classTypes →
      ReadsAs (c.wording text).characters (c.wording text).typePath := fun c hc hcl =>
    ih c (mem_children_of_mem_parts hc) (ht.of_mem_parts hc) hcl (hplain c hc)
  have hkind : t.label = .kind .typeIdentifier ∨ t.label = .kind .scopedTypeIdentifier ∨
      t.label = .kind .genericType := by simpa [Label.classTypes] using hl
  rcases hkind with hname | hscoped | hgeneric
  · obtain ⟨hwording, hidentifier⟩ := ht.wording_of_typeIdentifier hname
    rw [hwording, Wording.characters_word, Wording.typePath, if_pos rfl]
    exact ReadsAs.identifier hidentifier
  · refine readsAs_scopedType ht hscoped (fun c hc => ?_) hread
    have hlabel := Wording.isAnnotation_of_isPlain (hplain c hc)
    rwa [slot_wording] at hlabel
  · exact readsAs_genericType ht hgeneric hplain hread

end

end Grammar.Tree

/-! ## References -/

/-- The reference to the last identifier of a path, qualified by those before it if there are any. -/
def TypeReference.ofPath (scope : List String) (last : String) : TypeReference where
  name := last
  qualifier := if scope = [] then none else some (".".intercalate scope)

theorem TypeReference.ofDotted_intercalate (scope : List String) {last : String} (h : DotFree last) :
    ofDotted (".".intercalate (scope ++ [last])) = ofPath scope last := by
  unfold ofDotted ofPath
  by_cases hscope : scope = []
  · rw [hscope, List.nil_append, String.intercalate_singleton, splitLast?_eq_none h]
    rfl
  · rw [intercalate_concat hscope, splitLast?_append _ h, if_neg hscope]

/-- The text of a class type in which nothing but blanks and the path stands outside of angle brackets, and
all angle brackets are those of type arguments. -/
structure Legible (text : List Char) (n : Tree) : Prop where
  laid : Laid 0 (n.spellings text) (textOf text n).toList
  plain : (n.wording text).isPlain = true

instance (text : List Char) (n : Tree) : Decidable (Legible text n) :=
  decidable_of_iff (Laid 0 (n.spellings text) (textOf text n).toList ∧ (n.wording text).isPlain = true)
    ⟨fun h => ⟨h.1, h.2⟩, fun h => ⟨h.laid, h.plain⟩⟩

section
variable {text : List Char} {t n : Tree}

/-- The types of a declaration are read off the types in its clauses. -/
theorem append_eq_filterMap_typeNodes {kind : DeclarationKind} (h : DeclarationKind.ofNode? t = some kind) :
    implementedOf text t kind ++ extendedOf text t kind = (typeNodes t).filterMap (reference? text) := by
  unfold typeNodes
  rw [h]
  cases kind with
  | classType =>
    simp only [implementedOf, extendedOf, listedTypes_eq, superclass?_eq, List.filterMap_append]
    cases superclassNode? t with
    | none => rfl
    | some n =>
      cases hn : reference? text n with
      | none => simp [hn]
      | some r => simp [hn]
  | interfaceType =>
    simp only [implementedOf, extendedOf, listedTypes_eq, List.nil_append]
  | enumType => rfl
  | recordType => rfl

/-- The reference made of a text is to the path that is left of it. -/
theorem ReadsAs.exists_referenceOf?_eq_some {w : Wording} {path : List String} (h : ReadsAs w.characters path) :
    ∃ scope last, path = scope ++ [last] ∧ referenceOf? w = some (.ofPath scope last) := by
  obtain ⟨scope, last, rfl⟩ : ∃ scope last, path = scope ++ [last] :=
    ⟨_, _, (List.dropLast_append_getLast h.nonempty).symm⟩
  have hlast : isIdentifier last = true := h.identifiers last (by simp)
  have hname : stripTypeArguments (String.join w.spellings) = ".".intercalate (scope ++ [last]) := by
    show String.ofList (stripFrom 0 w.characters) = _
    rw [h.strips.stripFrom_eq, String.ofList_toList]
  have hne : (".".intercalate (scope ++ [last])).isEmpty = false := by
    have hcharacters := (isIdentifierPart_of_mem hlast).1
    rw [Bool.eq_false_iff, ne_eq, String.isEmpty_iff, ← String.toList_eq_nil_iff]
    by_cases hscope : scope = []
    · simpa [hscope] using hcharacters
    · simp [intercalate_concat hscope]
  refine ⟨scope, last, rfl, ?_⟩
  rw [referenceOf?, hname]
  simp only [hne]
  exact congrArg some (TypeReference.ofDotted_intercalate scope (dotFree_of_isIdentifier hlast))

theorem Legible.exists_reference?_eq_some (h : Legible text n) (hn : n.Spells text) (hc : isClassType n = true) :
    ∃ scope last, (n.wording text).typePath = scope ++ [last] ∧ reference? text n = some (.ofPath scope last) := by
  rw [reference?_eq_of_laid h.laid]
  exact (Tree.readsAs_typePath n hn (isClassType_iff.1 hc) h.plain).exists_referenceOf?_eq_some

/-- Every class type in a clause whose text is legible refers to the last identifier of its path, qualified
by those before it. The declaration is read, its types are what the class types in its clauses refer to,
and of a class or an interface none is left out. -/
theorem declarationOf_typeReferences {kind : DeclarationKind} (ht : t.Spells text)
    (hkind : DeclarationKind.ofNode? t = some kind) :
    (∀ n, InClause t n → Legible text n → ∃ scope last, (n.wording text).typePath = scope ++ [last] ∧
      reference? text n = some (.ofPath scope last)) ∧
    ∃ d, declarationOf text kind t = .ok d ∧
      d.header.implemented ++ d.header.extended = (typeNodes t).filterMap (reference? text) ∧
      (kind = .classType ∨ kind = .interfaceType → ∀ n, n ∈ typeNodes t ↔ InClause t n) := by
  constructor
  · intro n hn hlegible
    obtain ⟨hc, hmem⟩ := hn.mem_nodes
    exact hlegible.exists_reference?_eq_some (Tree.of_mem_nodes (fun _ _ h hc => h.of_mem hc) t ht n hmem) hc
  · obtain ⟨d, hread⟩ : ∃ d, declarationOf text kind t = .ok d := exists_declarationOf t ht.conforms hkind
    refine ⟨d, hread, ?_, fun hmodeled n => mem_typeNodes_iff ht.conforms hkind hmodeled⟩
    have hheader := (declarationOf_eq_ok_iff.1 hread).1
    rw [hheader.implemented, hheader.extended]
    exact append_eq_filterMap_typeNodes hkind

end

/-! ### A path with type arguments -/

def nestedText : List Char := "class C extends @Q(\"<\") a . B<D[],E<?>>.F/**/{}".toList

/-- The node of `a . B<D[],E<?>>.F`. -/
def nestedType : Tree :=
  .node none (.kind .scopedTypeIdentifier) ⟨24, 41⟩ [
    .node none (.kind .genericType) ⟨24, 39⟩ [
      .node none (.kind .scopedTypeIdentifier) ⟨24, 29⟩ [
        .leaf (.kind .typeIdentifier) ⟨24, 25⟩, .leaf (.word .dot) ⟨26, 27⟩,
        .leaf (.kind .typeIdentifier) ⟨28, 29⟩],
      .node none (.kind .typeArguments) ⟨29, 39⟩ [
        .leaf (.word .less) ⟨29, 30⟩,
        .node none (.kind .arrayType) ⟨30, 33⟩ [
          .leaf (.kind .typeIdentifier) ⟨30, 31⟩,
          .node (some .dimensions) (.kind .dimensions) ⟨31, 33⟩ [
            .leaf (.word .openBracket) ⟨31, 32⟩, .leaf (.word .closeBracket) ⟨32, 33⟩]],
        .leaf (.word .comma) ⟨33, 34⟩,
        .node none (.kind .genericType) ⟨34, 38⟩ [
          .leaf (.kind .typeIdentifier) ⟨34, 35⟩,
          .node none (.kind .typeArguments) ⟨35, 38⟩ [
            .leaf (.word .less) ⟨35, 36⟩,
            .node none (.kind .wildcard) ⟨36, 37⟩ [.leaf (.word .question) ⟨36, 37⟩],
            .leaf (.word .greater) ⟨37, 38⟩]],
        .leaf (.word .greater) ⟨38, 39⟩]],
    .leaf (.word .dot) ⟨39, 40⟩,
    .leaf (.kind .typeIdentifier) ⟨40, 41⟩]

/-- The entry of the clause, with the annotation in front of the type. -/
def nestedEntry : Tree :=
  .node none (.kind .annotatedType) ⟨16, 41⟩ [
    .node none (.kind .annotationCall) ⟨16, 23⟩ [
      .leaf (.word .atSign) ⟨16, 17⟩, .leaf (.kind .identifier) ⟨17, 18⟩,
      .node none (.kind .annotationArgumentList) ⟨18, 23⟩ [
        .leaf (.word .openParen) ⟨18, 19⟩,
        .node none (.kind .stringLiteral) ⟨19, 22⟩ [
          .leaf (.word .quote) ⟨19, 20⟩, .leaf (.kind .stringFragment) ⟨20, 21⟩, .leaf (.word .quote) ⟨21, 22⟩],
        .leaf (.word .closeParen) ⟨22, 23⟩]],
    nestedType]

def nestedClause : Tree :=
  .node none (.kind .superclass) ⟨8, 41⟩ [.leaf (.word .extendsWord) ⟨8, 15⟩, nestedEntry]

def nestedClass : Tree :=
  .node none (.kind .classDeclaration) ⟨0, 47⟩ [
    .leaf (.word .classWord) ⟨0, 5⟩,
    .node (some .name) (.kind .identifier) ⟨6, 7⟩ [],
    nestedClause,
    .leaf (.kind .blockComment) ⟨41, 45⟩,
    .node (some .body) (.kind .classBody) ⟨45, 47⟩ [
      .leaf (.word .openBrace) ⟨45, 46⟩, .leaf (.word .closeBrace) ⟨46, 47⟩]]

theorem declarationOf_typeReferences_nestedClass :
    nestedClass.Spells nestedText ∧ InClause nestedClass nestedType ∧ Legible nestedText nestedType ∧
    (nestedType.wording nestedText).typePath = ["a", "B", "F"] ∧
    reference? nestedText nestedType = some ⟨"F", some "a.B"⟩ ∧
    ∃ d, declarationOf nestedText .classType nestedClass = .ok d ∧
      d.header.implemented ++ d.header.extended = (typeNodes nestedClass).filterMap (reference? nestedText) ∧
      ∀ n, n ∈ typeNodes nestedClass ↔ InClause nestedClass n := by
  have hspells : nestedClass.Spells nestedText := ⟨Tree.conforms_of_fits _ (by decide), by decide +kernel⟩
  have hnames : Names nestedEntry nestedType := ⟨rfl, .inr ⟨rfl, .tail _ (.head _)⟩⟩
  have hentry : nestedEntry ∈ nestedClause.children := .tail _ (.head _)
  have hclause : InClause nestedClass nestedType := .superclass (.tail _ (.tail _ (.head _))) rfl hentry hnames
  have hlegible : Legible nestedText nestedType := by decide +kernel
  have hpath : (nestedType.wording nestedText).typePath = ["a", "B", "F"] := by decide +kernel
  obtain ⟨hreads, d, hread, htypes, hall⟩ := declarationOf_typeReferences hspells rfl
  obtain ⟨scope, last, hscope, hreference⟩ := hreads nestedType hclause hlegible
  obtain ⟨rfl, hlast⟩ := List.append_inj' (show ["a", "B"] ++ ["F"] = scope ++ [last] from hpath.symm.trans hscope) rfl
  cases hlast
  refine ⟨hspells, hclause, hlegible, hpath, ?_, d, hread, htypes, hall (.inl rfl)⟩
  rw [hreference]
  decide

/-! ### An annotation inside a path -/

def annotatedText : List Char := "class C implements a.@X B{}".toList

/-- The node of `a.@X B`. -/
def annotatedType : Tree :=
  .node none (.kind .scopedTypeIdentifier) ⟨19, 25⟩ [
    .leaf (.kind .typeIdentifier) ⟨19, 20⟩, .leaf (.word .dot) ⟨20, 21⟩,
    .node none (.kind .annotationMark) ⟨21, 23⟩ [
      .leaf (.word .atSign) ⟨21, 22⟩, .leaf (.kind .identifier) ⟨22, 23⟩],
    .leaf (.kind .typeIdentifier) ⟨24, 25⟩]

def annotatedClause : Tree :=
  .node none (.kind .superInterfaces) ⟨8, 25⟩ [
    .leaf (.word .implementsWord) ⟨8, 18⟩, .node none (.kind .typeList) ⟨19, 25⟩ [annotatedType]]

def annotatedClass : Tree :=
  .node none (.kind .classDeclaration) ⟨0, 27⟩ [
    .leaf (.word .classWord) ⟨0, 5⟩,
    .node (some .name) (.kind .identifier) ⟨6, 7⟩ [],
    annotatedClause,
    .node (some .body) (.kind .classBody) ⟨25, 27⟩ [
      .leaf (.word .openBrace) ⟨25, 26⟩, .leaf (.word .closeBrace) ⟨26, 27⟩]]

/-- An annotation between two identifiers of a path becomes part of the name. -/
theorem declarationOf_annotatedClass :
    annotatedClass.Spells annotatedText ∧ InClause annotatedClass annotatedType ∧
    (annotatedType.wording annotatedText).typePath = ["a", "B"] ∧
    ∃ d, declarationOf annotatedText .classType annotatedClass = .ok d ∧
      d.header.implemented = [⟨"@XB", some "a"⟩] := by
  have hclause : annotatedClause ∈ annotatedClass.children := .tail _ (.tail _ (.head _))
  refine ⟨⟨Tree.conforms_of_fits _ (by decide), by decide +kernel⟩, ?_, by decide +kernel, _, rfl, by decide +kernel⟩
  exact .listed (k := .superInterfaces) (by decide) hclause rfl (.tail _ (.head _)) rfl (.head _) ⟨rfl, .inl rfl⟩

end ClassDiagram
