/-
Brackets after a name, as in `int a[]`. They belong to the type of what is named, but the three places where
they may stand are not read alike: a field gets the brackets without the white space in them, a parameter gets
them as they are written, and a method does not get them at all. So a field and a parameter agree where no
white space stands between the brackets.
-/
import ClassDiagram.Proofs.Unit.Parameters
import ClassDiagram.Proofs.Unit.Stripping

namespace ClassDiagram

open ClassDiagram.Grammar ClassDiagram.Text

/-! ## Texts without angle brackets -/

/-- The text without its white space. -/
def Text.unspaced (s : String) : String := String.ofList (s.toList.filter fun c => !isWhiteSpace c)

theorem Text.unspaced_eq_self {s : String} (h : ∀ c ∈ s.toList, isWhiteSpace c = false) : unspaced s = s := by
  rw [unspaced, List.filter_eq_self.2 fun c hc => by rw [h c hc]; rfl, String.ofList_toList]

theorem stripTypeArguments_eq_unspaced {s : String} (hopen : '<' ∉ s.toList) (hclose : '>' ∉ s.toList) :
    stripTypeArguments s = unspaced s := by
  rw [stripTypeArguments, (Strips.of_unbracketed hopen hclose).stripFrom_eq, unspaced]

/-! ## Declared names -/

/-- A child that plays the role has this text. -/
def Plays (text : List Char) (t : Tree) (r : Role) (s : String) : Prop :=
  ∃ c ∈ t.children, c.role = some r ∧ textOf text c = s

/-- A node of the grammar that gives a type to a name with brackets after it; the name and the brackets stand
in `holder`, which is the node itself or its declarator. -/
structure Dimensioned (text : List Char) (t holder : Tree) (type name dimensions : String) : Prop where
  conforms : t.Conforms alternatives
  type : Plays text t .type type
  name : Plays text holder .name name
  dimensions : Plays text holder .dimensions dimensions

section
variable {text : List Char} {t holder : Tree} {type name dimensions : String}

theorem Plays.exists_part? {k : Kind} {r : Role} {s : String} (h : Plays text t r s) (ht : t.Conforms alternatives)
    (hl : t.label = .kind k)
    (hb : (Tree.childBounds alternatives (fun s => s.role == some r) k).most = some 1) :
    ∃ c, t.part? r = some c ∧ textOf text c = s := by
  obtain ⟨c, hc, hrole, htext⟩ := h
  exact ⟨c, (part?_eq_some_iff ht hl hb).2 ⟨hc, hrole⟩, htext⟩

/-- The phrases that declare fields. -/
def fieldKinds : List Kind := [.fieldDeclaration, .constantDeclaration]

theorem fieldOf_dimensioned {k : Kind} (h : Dimensioned text t holder type name dimensions) (hk : k ∈ fieldKinds)
    (hl : t.label = .kind k) (hholder : t.partsOf .declarator = [holder]) :
    ∃ f, fieldOf text t = .ok f ∧ f.declared = [⟨type ++ stripTypeArguments dimensions, name⟩] := by
  have hone : ∀ k ∈ fieldKinds,
      (Tree.childBounds alternatives (fun s => s.role == some .type) k).most = some 1 := by decide
  have hkind : ∀ k ∈ fieldKinds, (Tree.childBounds alternatives
      (fun s => s.role == some .declarator && !(s.label == .kind .variableDeclarator)) k).most = some 0 := by decide
  have hmem : holder ∈ t.partsOf .declarator := hholder ▸ List.mem_singleton.2 rfl
  obtain ⟨hmem, hrole⟩ := List.mem_filter.1 hmem
  have hlabel : holder.label = .kind .variableDeclarator :=
    eq_of_beq (h.conforms.imp_of_mem hl (by decide) (hkind k hk) hmem hrole)
  have hconforms := h.conforms.of_mem hmem
  obtain ⟨typeNode, htype, rfl⟩ := h.type.exists_part? h.conforms hl (hone k hk)
  obtain ⟨nameNode, hname, rfl⟩ := h.name.exists_part? hconforms hlabel (by decide)
  obtain ⟨brackets, hbrackets, rfl⟩ := h.dimensions.exists_part? hconforms hlabel (by decide)
  rw [fieldOf, htype]
  simp only [hholder, List.filterMap_cons, List.filterMap_nil, declaredVariable?, hname, hbrackets, Option.map_some,
    List.isEmpty_cons, Bool.false_eq_true, if_false]
  exact ⟨_, rfl, rfl⟩

theorem formalParameter?_dimensioned (h : Dimensioned text t t type name dimensions)
    (hl : t.label = .kind .formalParameter) : formalParameter? text t = some ⟨type ++ dimensions, name⟩ := by
  obtain ⟨typeNode, htype, rfl⟩ := h.type.exists_part? h.conforms hl (by decide)
  obtain ⟨nameNode, hname, rfl⟩ := h.name.exists_part? h.conforms hl (by decide)
  obtain ⟨brackets, hbrackets, rfl⟩ := h.dimensions.exists_part? h.conforms hl (by decide)
  rw [formalParameter?, htype, hname, hbrackets]
  rfl

theorem methodOf_dimensioned (h : Dimensioned text t t type name dimensions)
    (hl : t.label = .kind .methodDeclaration) : ∃ m, methodOf text t = .ok m ∧ m.name = name ∧ m.returnType = type := by
  obtain ⟨typeNode, htype, rfl⟩ := h.type.exists_part? h.conforms hl (by decide)
  obtain ⟨nameNode, hname, rfl⟩ := h.name.exists_part? h.conforms hl (by decide)
  rw [methodOf, hname, htype]
  exact ⟨_, rfl, rfl, rfl⟩

end

/-- What becomes of the brackets after a name, whatever the type, the name and the white space in the brackets. A
field is recorded with its type and the brackets without white space. A parameter is recorded with its type and the
brackets as they are, so like a field if there is no white space in them. A method is recorded with its type only. -/
theorem dimensions_after_name (type name : String) {dimensions : String} (hopen : '<' ∉ dimensions.toList)
    (hclose : '>' ∉ dimensions.toList) :
    (∀ text t d, t.label ∈ fieldKinds.map Label.kind → t.partsOf .declarator = [d] →
      Dimensioned text t d type name dimensions →
      ∃ f, fieldOf text t = .ok f ∧ f.declared = [⟨type ++ unspaced dimensions, name⟩]) ∧
    (∀ text t, t.label = .kind .formalParameter → Dimensioned text t t type name dimensions →
      ∃ v, formalParameter? text t = some v ∧ v.name = name ∧ v.typeName = type ++ dimensions ∧
        ((∀ c ∈ dimensions.toList, isWhiteSpace c = false) → v.typeName = type ++ unspaced dimensions)) ∧
    (∀ text t, t.label = .kind .methodDeclaration → Dimensioned text t t type name dimensions →
      ∃ m, methodOf text t = .ok m ∧ m.name = name ∧ m.returnType = type) := by
  refine ⟨?_, ?_, fun text t hl h => methodOf_dimensioned h hl⟩
  · intro text t d hlabel hd h
    obtain ⟨k, hk, hl⟩ := List.mem_map.1 hlabel
    rw [← stripTypeArguments_eq_unspaced hopen hclose]
    exact fieldOf_dimensioned h hk hl.symm hd
  · intro text t hl h
    refine ⟨_, formalParameter?_dimensioned h hl, rfl, rfl, fun hspaces => ?_⟩
    rw [unspaced_eq_self hspaces]

/-! ### The same brackets in three places -/

def spacedText : List Char := "int a[ ];".toList

def spacedType : Tree := .node (some .type) (.kind .integralType) ⟨0, 3⟩ [.leaf (.word .intWord) ⟨0, 3⟩]

/-- The name and the brackets, which begin at the given place. -/
def spacedName (brackets : Nat) : List Tree :=
  [.node (some .name) (.kind .identifier) ⟨4, 5⟩ [],
    .node (some .dimensions) (.kind .dimensions) ⟨brackets, brackets + 3⟩ [
      .leaf (.word .openBracket) ⟨brackets, brackets + 1⟩, .leaf (.word .closeBracket) ⟨brackets + 2, brackets + 3⟩]]

def spacedDeclarator : Tree := .node (some .declarator) (.kind .variableDeclarator) ⟨4, 8⟩ (spacedName 5)

def spacedField : Tree :=
  .node none (.kind .fieldDeclaration) ⟨0, 9⟩ [spacedType, spacedDeclarator, .leaf (.word .semicolon) ⟨8, 9⟩]

def spacedParameter : Tree := .node none (.kind .formalParameter) ⟨0, 8⟩ (spacedType :: spacedName 5)

def spacedMethodText : List Char := "int a()[ ];".toList

def spacedMethod : Tree :=
  .node none (.kind .methodDeclaration) ⟨0, 11⟩ [
    spacedType,
    .node (some .name) (.kind .identifier) ⟨4, 5⟩ [],
    .node (some .parameters) (.kind .formalParameters) ⟨5, 7⟩ [
      .leaf (.word .openParen) ⟨5, 6⟩, .leaf (.word .closeParen) ⟨6, 7⟩],
    .node (some .dimensions) (.kind .dimensions) ⟨7, 10⟩ [
      .leaf (.word .openBracket) ⟨7, 8⟩, .leaf (.word .closeBracket) ⟨9, 10⟩],
    .leaf (.word .semicolon) ⟨10, 11⟩]

theorem dimensioned_spacedField : Dimensioned spacedText spacedField spacedDeclarator "int" "a" "[ ]" where
  conforms := Tree.conforms_of_fits _ (by decide)
  type := ⟨spacedType, .head _, rfl, by decide⟩
  name := ⟨_, .head _, rfl, by decide⟩
  dimensions := ⟨_, .tail _ (.head _), rfl, by decide⟩

theorem dimensioned_spacedParameter : Dimensioned spacedText spacedParameter spacedParameter "int" "a" "[ ]" where
  conforms := Tree.conforms_of_fits _ (by decide)
  type := ⟨spacedType, .head _, rfl, by decide⟩
  name := ⟨_, .tail _ (.head _), rfl, by decide⟩
  dimensions := ⟨_, .tail _ (.tail _ (.head _)), rfl, by decide⟩

theorem dimensioned_spacedMethod : Dimensioned spacedMethodText spacedMethod spacedMethod "int" "a" "[ ]" where
  conforms := Tree.conforms_of_fits _ (by decide)
  type := ⟨spacedType, .head _, rfl, by decide⟩
  name := ⟨_, .tail _ (.head _), rfl, by decide⟩
  dimensions := ⟨_, .tail _ (.tail _ (.tail _ (.head _))), rfl, by decide⟩

theorem dimensions_after_name_spaced :
    '<' ∉ "[ ]".toList ∧ '>' ∉ "[ ]".toList ∧
    Dimensioned spacedText spacedField spacedDeclarator "int" "a" "[ ]" ∧
    Dimensioned spacedText spacedParameter spacedParameter "int" "a" "[ ]" ∧
    Dimensioned spacedMethodText spacedMethod spacedMethod "int" "a" "[ ]" ∧
    (∃ f, fieldOf spacedText spacedField = .ok f ∧ f.declared = [⟨"int" ++ unspaced "[ ]", "a"⟩]) ∧
    (∃ v, formalParameter? spacedText spacedParameter = some v ∧ v.typeName = "int" ++ "[ ]") ∧
    ∃ m, methodOf spacedMethodText spacedMethod = .ok m ∧ m.returnType = "int" := by
  have hopen : '<' ∉ "[ ]".toList := by decide
  have hclose : '>' ∉ "[ ]".toList := by decide
  obtain ⟨hfield, hparameter, hmethod⟩ := dimensions_after_name "int" "a" hopen hclose
  obtain ⟨v, hv, -, htype, -⟩ := hparameter _ _ rfl dimensioned_spacedParameter
  obtain ⟨m, hm, -, hreturn⟩ := hmethod _ _ rfl dimensioned_spacedMethod
  exact ⟨hopen, hclose, dimensioned_spacedField, dimensioned_spacedParameter, dimensioned_spacedMethod,
    hfield _ _ _ (by decide) rfl dimensioned_spacedField, ⟨v, hv, htype⟩, m, hm, hreturn⟩

/-- Of the same brackets after a name the field, the parameter and the method make three different types. -/
theorem dimensions_recorded_unlike :
    Dimensioned spacedText spacedField spacedDeclarator "int" "a" "[ ]" ∧
    Dimensioned spacedText spacedParameter spacedParameter "int" "a" "[ ]" ∧
    Dimensioned spacedMethodText spacedMethod spacedMethod "int" "a" "[ ]" ∧
    "int" ++ unspaced "[ ]" = "int[]" ∧
    (∃ f, fieldOf spacedText spacedField = .ok f ∧ f.declared = [⟨"int[]", "a"⟩]) ∧
    formalParameter? spacedText spacedParameter = some ⟨"int[ ]", "a"⟩ ∧
    ∃ m, methodOf spacedMethodText spacedMethod = .ok m ∧ m.name = "a" ∧ m.returnType = "int" := by
  exact ⟨dimensioned_spacedField, dimensioned_spacedParameter, dimensioned_spacedMethod, by decide,
    ⟨_, rfl, by decide⟩, by decide, _, rfl, by decide, by decide⟩

end ClassDiagram
