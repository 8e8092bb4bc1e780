/-
What reading keeps of the layout of a source. Names are taken as they stand in the text, so a blank or
a comment inside one becomes part of it. Names of types lose their white space and what stands in angle
brackets, but not the comments outside the brackets. A source is tidy if nothing stands inside the names
that are taken as they stand, and nothing inside the names of types that would be kept: then all that is
taken from its text is told by its wording.
-/
import ClassDiagram.Proofs.Grammar.Wording
import ClassDiagram.Proofs.Unit.Reading
import Mathlib.Data.List.Basic

namespace ClassDiagram

open ClassDiagram.Grammar ClassDiagram.Text

/-! ## Stripping what stands between words -/

/-- The number of open angle brackets after the characters. -/
def depthAfter (depth : Nat) : List Char → Nat
  | [] => depth
  | c :: rest => depthAfter (if c == '<' then depth + 1 else if c == '>' then depth - 1 else depth) rest

theorem stripFrom_append (depth : Nat) (before after : List Char) :
    stripFrom depth (before ++ after) = stripFrom depth before ++ stripFrom (depthAfter depth before) after := by
  induction before generalizing depth with
  | nil => rfl
  | cons c before ih =>
    simp only [List.cons_append, stripFrom, depthAfter]
    by_cases ho : (c == '<') = true
    · simp only [ho, if_true, ih]
    · by_cases hc : (c == '>') = true
      · simp only [ho, hc, if_true, ih, Bool.false_eq_true, if_false]
      · simp only [ho, hc, ih, Bool.false_eq_true, if_false]
        split
        · rfl
        · rfl

/-- Whether stripping removes the characters and the brackets go on to count as before: they are no
angle brackets, and outside of brackets they are white space. -/
def isHidden (depth : Nat) (gap : List Char) : Bool :=
  gap.all fun c => c != '<' && c != '>' && (depth != 0 || isWhiteSpace c)

theorem stripFrom_of_isHidden {depth : Nat} {gap : List Char} (h : isHidden depth gap = true) :
    stripFrom depth gap = [] ∧ depthAfter depth gap = depth := by
  induction gap with
  | nil => exact ⟨rfl, rfl⟩
  | cons c gap ih =>
    simp only [isHidden, List.all_cons, Bool.and_eq_true, bne_iff_ne, ne_eq, Bool.or_eq_true] at h
    obtain ⟨⟨⟨ho, hc⟩, hkept⟩, hgap⟩ := h
    obtain ⟨hstrip, hdepth⟩ := ih hgap
    have hnot : (depth == 0 && !isWhiteSpace c) = false := by
      rcases hkept with hd | hw
      · simp [hd]
      · simp [hw]
    constructor
    · simp only [stripFrom, beq_iff_eq, ho, hc, if_false, hnot, Bool.false_eq_true]
      exact hstrip
    · simp only [depthAfter, beq_iff_eq, ho, hc, if_false]
      exact hdepth

/-- A text of words between which nothing stands that stripping would keep. -/
inductive Laid : Nat → List String → List Char → Prop
  | nil (depth : Nat) : Laid depth [] []
  | cons {depth : Nat} {word : String} {words : List String} {gap rest : List Char} :
      isHidden (depthAfter depth word.toList) gap = true → Laid (depthAfter depth word.toList) words rest →
      Laid depth (word :: words) (word.toList ++ (gap ++ rest))

/-- What stands between the words has no bearing on what is left after stripping. -/
theorem Laid.stripFrom_eq {depth : Nat} {words : List String} {cs : List Char} (h : Laid depth words cs) :
    stripFrom depth cs = stripFrom depth (String.join words).toList := by
  induction h with
  | nil => rfl
  | @cons depth word words gap rest hgap _ ih =>
    obtain ⟨hstrip, hdepth⟩ := stripFrom_of_isHidden hgap
    rw [String.join_cons, String.toList_append, stripFrom_append, stripFrom_append, stripFrom_append, hstrip,
      hdepth, List.nil_append, ih]

/-- Whether a text is laid out from words, by trying every gap after each of them. -/
def isLaid : Nat → List String → List Char → Bool
  | _, [], cs => cs.isEmpty
  | depth, word :: words, cs =>
    let depth := depthAfter depth word.toList
    let behind := cs.drop word.toList.length
    word.toList.isPrefixOf cs &&
      (List.range (cs.length + 1)).any fun n => isHidden depth (behind.take n) && isLaid depth words (behind.drop n)

theorem isLaid_iff {depth : Nat} {words : List String} {cs : List Char} :
    isLaid depth words cs = true ↔ Laid depth words cs := by
  constructor
  · intro h
    induction words generalizing depth cs with
    | nil =>
      rw [isLaid, List.isEmpty_iff] at h
      rw [h]
      exact .nil depth
    | cons word words ih =>
      simp only [isLaid, Bool.and_eq_true, List.any_eq_true, List.isPrefixOf_iff_prefix] at h
      obtain ⟨⟨behind, rfl⟩, n, -, hgap, hrest⟩ := h
      rw [List.drop_left] at hgap hrest
      have hlaid := Laid.cons hgap (ih hrest)
      rw [List.take_append_drop] at hlaid
      exact hlaid
  · intro h
    induction h with
    | nil => rfl
    | @cons depth word words gap rest hgap _ ih =>
      have hlength : gap.length < (word.toList ++ (gap ++ rest)).length + 1 := by
        simp only [List.length_append]
        omega
      simp only [isLaid, Bool.and_eq_true, List.any_eq_true, List.isPrefixOf_iff_prefix]
      refine ⟨List.prefix_append _ _, gap.length, List.mem_range.2 hlength, ?_, ?_⟩
      · rw [List.drop_left, List.take_left]
        exact hgap
      · rw [List.drop_left, List.drop_left]
        exact ih

instance (depth : Nat) (words : List String) (cs : List Char) : Decidable (Laid depth words cs) :=
  decidable_of_iff _ isLaid_iff

/-! ## Tidy sources -/

/-- The nodes of the keywords among the modifiers. -/
def keywordNodes (t : Tree) : List Tree :=
  (t.child? .modifiers).elim [] fun modifiers => modifiers.children.filter fun c => !c.label.isNamed

/-- The node of the type that a class extends. -/
def superclassNode? (t : Tree) : Option Tree :=
  (t.child? .superclass).bind fun clause => clause.namedChildren.findSome? classType?

/-- The nodes of the types listed in a clause of a declaration. -/
def listedNodes (t : Tree) (clause : Kind) : List Tree :=
  ((t.child? clause).bind (·.child? .typeList)).elim [] fun list => list.namedChildren.filterMap classType?

/-- The nodes of which the text is taken as it stands: the name and the keywords of a declaration, and
the name in an import. -/
def nameNodes (t : Tree) : List Tree :=
  match DeclarationKind.ofNode? t with
  | some _ => (t.part? .name).toList ++ keywordNodes t
  | none => if t.isKind .importDeclaration then (dottedName? t).toList else []

/-- The nodes of the types that a declaration refers to. -/
def typeNodes (t : Tree) : List Tree :=
  match DeclarationKind.ofNode? t with
  | some .classType => listedNodes t .superInterfaces ++ (superclassNode? t).toList
  | some .interfaceType => listedNodes t .extendsInterfaces
  | _ => []

/-- The nodes among which imports and declarations are looked for. -/
inductive IsRead (tree : Tree) : Tree → Prop
  | top {c : Tree} : c ∈ tree.children → IsRead tree c
  | member {t c : Tree} : IsRead tree t → t.label.declares = true → c ∈ memberNodes t → IsRead tree c

/-- Nothing stands inside the names of a node, and nothing that is kept inside the types it refers to. -/
structure TidyAt (text : List Char) (t : Tree) : Prop where
  names : ∀ n ∈ nameNodes t, textOf text n = String.join (n.spellings text)
  types : ∀ n ∈ typeNodes t, Laid 0 (n.spellings text) (textOf text n).toList

/-- A source is tidy if all that is read of it is. -/
def Tidy (text : List Char) (tree : Tree) : Prop := ∀ t, IsRead tree t → TidyAt text t

instance (text : List Char) (t : Tree) : Decidable (TidyAt text t) :=
  decidable_of_iff ((∀ n ∈ nameNodes t, textOf text n = String.join (n.spellings text)) ∧
      ∀ n ∈ typeNodes t, Laid 0 (n.spellings text) (textOf text n).toList)
    ⟨fun h => ⟨h.1, h.2⟩, fun h => ⟨h.names, h.types⟩⟩

/-- A source whose declarations enclose no others is tidy if its nodes and their members are. -/
theorem tidy_of_shallow {text : List Char} {tree : Tree} (h : ∀ c ∈ tree.children, TidyAt text c ∧
    (c.label.declares = true → ∀ m ∈ memberNodes c, TidyAt text m ∧ m.label.declares = false)) : Tidy text tree := by
  have hread : ∀ t, IsRead tree t → t ∈ tree.children ∨ (TidyAt text t ∧ t.label.declares = false) := by
    intro t ht
    induction ht with
    | top hc => exact .inl hc
    | member _ hdeclares hc ih =>
      rcases ih with ht | ⟨-, hnot⟩
      · exact .inr ((h _ ht).2 hdeclares _ hc)
      · rw [hdeclares] at hnot
        cases hnot
  intro t ht
  rcases hread t ht with ht | ⟨ht, -⟩
  · exact (h t ht).1
  · exact ht

/-! ## Texts and references by wording -/

/-- The type that the words of a node refer to. -/
def referenceOf? (w : Wording) : Option TypeReference :=
  let name := stripTypeArguments (String.join w.spellings)
  if name.isEmpty then none else some (TypeReference.ofDotted name)

section
variable {text : List Char}

theorem reference?_eq_of_laid {n : Tree} (h : Laid 0 (n.spellings text) (textOf text n).toList) :
    reference? text n = referenceOf? (n.wording text) := by
  unfold reference? referenceOf? stripTypeArguments
  rw [h.stripFrom_eq]
  rfl

theorem map_textOf_of_tidy {ns : List Tree} (h : ∀ n ∈ ns, textOf text n = String.join (n.spellings text)) :
    ns.map (textOf text) = (ns.map (Tree.wording text)).map fun w => String.join w.spellings := by
  rw [List.map_map]
  refine List.map_congr_left fun n hn => ?_
  rw [Function.comp_apply, h n hn]
  rfl

theorem filterMap_reference?_of_tidy {ns : List Tree}
    (h : ∀ n ∈ ns, Laid 0 (n.spellings text) (textOf text n).toList) :
    ns.filterMap (reference? text) = (ns.map (Tree.wording text)).filterMap referenceOf? := by
  rw [List.filterMap_map]
  refine List.filterMap_congr fun n hn => ?_
  rw [Function.comp_apply, reference?_eq_of_laid (h n hn)]

theorem modifiersOf_eq (text : List Char) (t : Tree) : modifiersOf text t = (keywordNodes t).map (textOf text) := by
  unfold modifiersOf keywordNodes
  cases t.child? .modifiers with
  | none => rfl
  | some m => rfl

theorem superclass?_eq (text : List Char) (t : Tree) :
    superclass? text t = (superclassNode? t).bind (reference? text) := by
  unfold superclass? superclassNode?
  rw [Option.bind_assoc]
  rfl

theorem listedTypes_eq (text : List Char) (t : Tree) (clause : Kind) :
    listedTypes text t clause = (listedNodes t clause).filterMap (reference? text) := by
  unfold listedTypes listedNodes
  cases (t.child? clause).bind (·.child? .typeList) with
  | none => rfl
  | some list => rfl

end

end ClassDiagram
