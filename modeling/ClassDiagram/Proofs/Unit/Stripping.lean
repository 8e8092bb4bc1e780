/-
What stripping leaves of a text. Outside of angle brackets it keeps all but the white space, and of what
stands in brackets it leaves nothing. So it leaves nothing of type arguments, as long as all angle
brackets in them are brackets of type arguments: a bracket in another word, as in the text of a string,
is counted as well. Identifiers hold no white space, dots and brackets and are kept as they are.
-/
import ClassDiagram.Proofs.Grammar.Parts
import ClassDiagram.Proofs.Unit.WellFormed
import ClassDiagram.Proofs.Unit.Tidy
import ClassDiagram.Text.Identifier

namespace ClassDiagram

open ClassDiagram.Grammar ClassDiagram.Text

/-! ## Texts with matching brackets -/

theorem depthAfter_append (depth : Nat) (before after : List Char) :
    depthAfter depth (before ++ after) = depthAfter (depthAfter depth before) after := by
  induction before generalizing depth with
  | nil => rfl
  | cons c before ih => rw [List.cons_append, depthAfter, depthAfter, ih]

/-- Where `depth` brackets are open, `kept` is left of the characters, and as many are open after
them. -/
structure Strips (depth : Nat) (cs kept : List Char) : Prop where
  stripFrom_eq : stripFrom depth cs = kept
  depthAfter_eq : depthAfter depth cs = depth

namespace Strips

variable {depth : Nat} {cs ds kept more : List Char}

theorem nil : Strips depth [] [] := ⟨rfl, rfl⟩

theorem append (h : Strips depth cs kept) (h' : Strips depth ds more) : Strips depth (cs ++ ds) (kept ++ more) := by
  constructor
  · rw [stripFrom_append, h.stripFrom_eq, h.depthAfter_eq, h'.stripFrom_eq]
  · rw [depthAfter_append, h.depthAfter_eq, h'.depthAfter_eq]

theorem flatMap {α : Type} {f : α → List Char} {xs : List α} (h : ∀ x ∈ xs, Strips depth (f x) []) :
    Strips depth (xs.flatMap f) [] := by
  induction xs with
  | nil => exact nil
  | cons x xs ih =>
    rw [List.flatMap_cons]
    exact (h x (List.mem_cons_self ..)).append (ih fun y hy => h y (List.mem_cons_of_mem _ hy))

theorem of_isHidden (h : isHidden depth cs = true) : Strips depth cs [] :=
  ⟨(stripFrom_of_isHidden h).1, (stripFrom_of_isHidden h).2⟩

/-- Outside of brackets a text without brackets loses its white space only. -/
theorem of_unbracketed (hopen : '<' ∉ cs) (hclose : '>' ∉ cs) : Strips 0 cs (cs.filter fun c => !isWhiteSpace c) := by
  induction cs with
  | nil => exact nil
  | cons c cs ih =>
    rw [List.mem_cons, not_or] at hopen hclose
    have hrest := ih hopen.2 hclose.2
    have ho : (c == '<') = false := by simpa using Ne.symm hopen.1
    have hc : (c == '>') = false := by simpa using Ne.symm hclose.1
    constructor
    · rw [stripFrom, ho, hc, hrest.stripFrom_eq, List.filter_cons]
      simp only [Bool.false_eq_true, if_false, beq_self_eq_true, Bool.true_and]
    · rw [depthAfter, ho, hc]
      exact hrest.depthAfter_eq

/-- Outside of brackets a text without brackets and white space is kept. -/
theorem of_unbroken (h : ∀ c ∈ cs, isWhiteSpace c = false ∧ c ≠ '<' ∧ c ≠ '>') : Strips 0 cs cs := by
  have hkept : (cs.filter fun c => !isWhiteSpace c) = cs := List.filter_eq_self.2 fun c hc => by rw [(h c hc).1]; rfl
  have hstrips := of_unbracketed (fun ho => (h _ ho).2.1 rfl) (fun hc => (h _ hc).2.2 rfl)
  rwa [hkept] at hstrips

/-- Nothing is left of what stands in brackets. -/
theorem bracketed (h : Strips (depth + 1) cs []) : Strips depth ('<' :: (cs ++ ['>'])) [] := by
  constructor
  · calc stripFrom depth ('<' :: (cs ++ ['>']))
        = stripFrom (depth + 1) (cs ++ ['>']) := rfl
      _ = stripFrom (depth + 1) cs ++ stripFrom (depthAfter (depth + 1) cs) ['>'] := stripFrom_append ..
      _ = [] := by rw [h.stripFrom_eq, h.depthAfter_eq]; rfl
  · calc depthAfter depth ('<' :: (cs ++ ['>']))
        = depthAfter (depth + 1) (cs ++ ['>']) := rfl
      _ = depthAfter (depthAfter (depth + 1) cs) ['>'] := depthAfter_append ..
      _ = depth := by rw [h.depthAfter_eq]; rfl

end Strips

/-! ## Identifiers -/

/-- Whether a name has the form of an identifier. -/
def isIdentifier (name : String) : Bool :=
  match name.toList with
  | [] => false
  | c :: cs => isIdentifierStart c && cs.all isIdentifierPart

/-- The code points of white space, of the dot and of the angle brackets. -/
def breakPoints : List Nat :=
  List.range' 0x09 5 ++ List.range' 0x2000 11 ++
    [0x20, 0x2E, 0x3C, 0x3E, 0x85, 0xA0, 0x1680, 0x2028, 0x2029, 0x202F, 0x205F, 0x3000]

theorem mem_breakPoints {c : Char} (h : isWhiteSpace c = true) : c.toNat ∈ breakPoints := by
  simp only [isWhiteSpace, Bool.or_eq_true, Bool.and_eq_true, decide_eq_true_eq, beq_iff_eq] at h
  simp only [breakPoints, List.mem_append, List.mem_range'_1, List.mem_cons, List.not_mem_nil, or_false]
  omega

theorem isIdentifierPart_eq_false {c : Char} (h : c.toNat ∈ breakPoints) : isIdentifierPart c = false := by
  -- the letters are given by tables, in which each of the few code points is looked up
  have hpoints : ∀ n ∈ breakPoints, isIdentifierPart (Char.ofNat n) = false := by decide +kernel
  have hc := hpoints c.toNat h
  rwa [Char.ofNat_toNat] at hc

theorem isIdentifierPart_of_mem {name : String} (h : isIdentifier name = true) :
    name.toList ≠ [] ∧ ∀ c ∈ name.toList, isIdentifierPart c = true := by
  unfold isIdentifier at h
  cases hname : name.toList with
  | nil =>
    rw [hname] at h
    cases h
  | cons c cs =>
    rw [hname] at h
    obtain ⟨hstart, hrest⟩ := Bool.and_eq_true_iff.1 h
    refine ⟨List.cons_ne_nil c cs, ?_⟩
    intro d hd
    rcases List.mem_cons.1 hd with rfl | hd
    · rw [isIdentifierPart, hstart, Bool.true_or, Bool.true_or]
    · exact List.all_eq_true.1 hrest d hd

theorem not_mem_breakPoints {name : String} (h : isIdentifier name = true) {c : Char} (hc : c ∈ name.toList) :
    c.toNat ∉ breakPoints := by
  intro hmem
  have hpart := (isIdentifierPart_of_mem h).2 c hc
  rw [isIdentifierPart_eq_false hmem] at hpart
  cases hpart

theorem dotFree_of_isIdentifier {name : String} (h : isIdentifier name = true) : DotFree name :=
  fun hdot => not_mem_breakPoints h hdot (by decide)

theorem unbroken_of_isIdentifier {name : String} (h : isIdentifier name = true) : Unbroken name := by
  intro c hc
  have hnot := not_mem_breakPoints h hc
  refine ⟨?_, ?_, ?_⟩
  · exact Bool.eq_false_iff.2 fun hw => hnot (mem_breakPoints hw)
  · rintro rfl
    exact hnot (by decide)
  · rintro rfl
    exact hnot (by decide)

/-! ## Angle brackets of type arguments -/

namespace Grammar.Wording

mutual

/-- Whether the angle brackets in the words are all brackets of type arguments. -/
def isBracketed : Wording → Bool
  | word _ _ s => s.toList.all fun c => c != '<' && c != '>'
  | phrase _ l ps => isBracketedAll (l == .kind .typeArguments) ps

/-- The same for some parts; type arguments have brackets among their parts. -/
def isBracketedAll (inArguments : Bool) : List Wording → Bool
  | [] => true
  | p :: ps => (inArguments && p.slot.label.isAngleBracket || p.isBracketed) && isBracketedAll inArguments ps

end

theorem isBracketedAll_iff {inArguments : Bool} {ps : List Wording} : isBracketedAll inArguments ps = true ↔
    ∀ p ∈ ps, (inArguments = true ∧ p.slot.label.isAngleBracket = true) ∨ p.isBracketed = true := by
  induction ps with
  | nil => simp [isBracketedAll]
  | cons p ps ih => simp [isBracketedAll, ih]

end Grammar.Wording

/-! ## Words as they are spelled -/

namespace Grammar.Tree

/-- Whether a word is spelled as it should be: a keyword or a mark in its only way, and the name of a type
as an identifier. -/
def isWellSpelled (text : List Char) (t : Tree) : Bool :=
  match t.label with
  | .word w => textOf text t == w.spelling
  | .kind .typeIdentifier => isIdentifier (textOf text t)
  | _ => true

/-- A tree of the grammar whose words are spelled in the text as they should be. -/
structure Spells (text : List Char) (t : Tree) : Prop where
  conforms : t.Conforms alternatives
  words : ∀ n ∈ t.nodes, n.isWellSpelled text = true

section
variable {text : List Char} {t c : Tree}

theorem Spells.of_mem (h : t.Spells text) (hc : c ∈ t.children) : c.Spells text :=
  ⟨h.conforms.of_mem hc, fun n hn => h.words n (mem_nodes_of_child hc hn)⟩

theorem Spells.of_mem_parts (h : t.Spells text) (hc : c ∈ t.parts) : c.Spells text :=
  h.of_mem (mem_children_of_mem_parts hc)

theorem characters_of_parts (h : t.parts ≠ []) :
    (t.wording text).characters = t.parts.flatMap fun c => (c.wording text).characters := by
  rw [wording_of_parts_ne_nil text h, Wording.characters_phrase, List.flatMap_map]

theorem parts_eq_nil (h : t.children = []) : t.parts = [] := by rw [parts, h]; rfl

/-- The characters of a keyword or a mark. -/
theorem Spells.characters_of_word (h : t.Spells text) {w : Word} (hl : t.label = .word w) :
    (t.wording text).characters = w.spelling.toList := by
  have hspelled := h.words t t.self_mem_nodes
  rw [isWellSpelled, hl] at hspelled
  rw [wording_of_parts_eq_nil text (parts_eq_nil (h.conforms.children_eq_nil_of_word hl)), Wording.characters_word,
    ← eq_of_beq hspelled]
  rfl

/-- The wording of the name of a type. -/
theorem Spells.wording_of_typeIdentifier (h : t.Spells text) (hl : t.label = .kind .typeIdentifier) :
    t.wording text = .word t.role (.kind .typeIdentifier) (textOf text t) ∧ isIdentifier (textOf text t) = true := by
  have hspelled := h.words t t.self_mem_nodes
  rw [isWellSpelled, hl] at hspelled
  rw [wording_of_parts_eq_nil text (parts_eq_nil (h.conforms.children_eq_nil_of_isLeaf hl rfl)), hl]
  exact ⟨rfl, hspelled⟩

/-! ## What stripping leaves of type arguments -/

/-- The parts of a phrase have no angle brackets but those of type arguments either. -/
theorem isBracketed_of_mem_parts (h : (t.wording text).isBracketed = true) (hc : c ∈ t.parts)
    (hnot : t.label = .kind .typeArguments → c.label.isAngleBracket = false) :
    (c.wording text).isBracketed = true := by
  rw [wording_of_parts_ne_nil text (List.ne_nil_of_mem hc), Wording.isBracketed, Wording.isBracketedAll_iff,
    List.forall_mem_map] at h
  rcases h c hc with ⟨harguments, hangle⟩ | hbracketed
  · rw [slot_wording] at hangle
    exact absurd ((hnot (eq_of_beq harguments)).symm.trans hangle) Bool.false_ne_true
  · exact hbracketed

/-- Nothing is left of type arguments if nothing is left of what stands between their brackets. -/
theorem strips_typeArguments (ht : t.Spells text) (hl : t.label = .kind .typeArguments) {depth : Nat}
    (hinner : ∀ c ∈ t.parts, c.label.isAngleBracket = false → Strips (depth + 1) (c.wording text).characters []) :
    Strips depth (t.wording text).characters [] := by
  obtain ⟨opening, inner, closing, hparts, hopen, hclose, hnot⟩ := ht.conforms.parts_typeArguments hl
  have hne : t.parts ≠ [] := by rw [hparts]; exact List.cons_ne_nil _ _
  have hpart : ∀ c ∈ t.parts, c.Spells text := fun c hc => ht.of_mem_parts hc
  rw [characters_of_parts hne]
  rw [hparts] at hinner hpart ⊢
  rw [List.flatMap_cons, List.flatMap_append, List.flatMap_singleton,
    (hpart opening (List.mem_cons_self ..)).characters_of_word hopen,
    (hpart closing (by simp)).characters_of_word hclose]
  exact Strips.bracketed (Strips.flatMap fun c hc => hinner c (by simp [hc]) (hnot c hc))

/-- Inside of brackets nothing is left of a phrase in which all angle brackets are those of type
arguments. -/
theorem strips_of_isBracketed (t : Tree) : t.Spells text → (t.wording text).isBracketed = true →
    ∀ depth, Strips (depth + 1) (t.wording text).characters [] := by
  refine rec_children (P := fun t => t.Spells text → (t.wording text).isBracketed = true →
    ∀ depth, Strips (depth + 1) (t.wording text).characters []) ?_ t
  intro t ih ht hbracketed depth
  have hpart : ∀ c ∈ t.parts, (c.wording text).isBracketed = true →
      ∀ depth, Strips (depth + 1) (c.wording text).characters [] := fun c hc =>
    ih c (mem_children_of_mem_parts hc) (ht.of_mem_parts hc)
  by_cases hne : t.parts = []
  · rw [wording_of_parts_eq_nil text hne] at hbracketed ⊢
    rw [Wording.characters_word]
    refine Strips.of_isHidden ?_
    simpa [Wording.isBracketed, isHidden] using hbracketed
  · by_cases hl : t.label = .kind .typeArguments
    · -- the parts are one bracket deeper, and there nothing is left of them at any depth
      refine strips_typeArguments ht hl fun c hc hnot => ?_
      exact hpart c hc (isBracketed_of_mem_parts hbracketed hc fun _ => hnot) _
    · rw [characters_of_parts hne]
      refine Strips.flatMap fun c hc => ?_
      exact hpart c hc (isBracketed_of_mem_parts hbracketed hc fun h => absurd h hl) _

end

end Grammar.Tree

end ClassDiagram
