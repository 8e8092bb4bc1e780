/-
The parts of a phrase, which are its children but for the comments. They stand in the order of the
rule, so a rule that puts a few parts one after the other tells what the first and the last of them
are. The wording of a phrase is made of the wordings of its parts, and its characters are theirs one
after the other.
-/
import ClassDiagram.Proofs.Grammar.Count
import ClassDiagram.Proofs.Grammar.Wording

namespace ClassDiagram.Grammar

open ClassDiagram.Text

/-! ## Rows of a rule -/

namespace Rule

section
variable {rules : Kind → List Alternative} {ss : List Slot}

theorem allows_word_iff {w : Word} : (word w).Allows rules ss ↔ ss = [⟨none, .word w⟩] :=
  ⟨fun h => by cases h; rfl, fun h => h ▸ .word w⟩

theorem allows_sub_iff {k : Kind} (hk : k.isHidden = false) : (sub k).Allows rules ss ↔ ss = [⟨none, .kind k⟩] := by
  constructor
  · intro h
    cases h with
    | kind => rfl
    | hidden hk' => exact absurd (hk.symm.trans hk') Bool.false_ne_true
  · rintro rfl
    exact .kind hk

theorem allows_seq_iff {a b : Rule} :
    (Rule.seq a b).Allows rules ss ↔ ∃ ts us, ss = ts ++ us ∧ a.Allows rules ts ∧ b.Allows rules us := by
  constructor
  · intro h
    cases h with
    | seq ha hb => exact ⟨_, _, rfl, ha, hb⟩
  · rintro ⟨ts, us, rfl, ha, hb⟩
    exact .seq ha hb

theorem allows_choice_iff {a b : Rule} :
    (Rule.choice a b).Allows rules ss ↔ a.Allows rules ss ∨ b.Allows rules ss := by
  constructor
  · intro h
    cases h with
    | left ha => exact .inl ha
    | right hb => exact .inr hb
  · rintro (ha | hb)
    · exact .left ha
    · exact .right hb

theorem allows_shownAs_iff {k : Kind} {r : Rule} :
    (Rule.shownAs k r).Allows rules ss ↔ ∃ ts, ss = ts.map (Slot.shownAs k) ∧ r.Allows rules ts := by
  constructor
  · intro h
    cases h with
    | shownAs hr => exact ⟨_, rfl, hr⟩
  · rintro ⟨ts, rfl, hr⟩
    exact .shownAs hr

end

end Rule

/-! ## The parts of a node -/

namespace Tree

/-- The children that are no comments. -/
def parts (t : Tree) : List Tree := t.children.filter fun c => !c.isComment

theorem mem_children_of_mem_parts {t c : Tree} (h : c ∈ t.parts) : c ∈ t.children := (List.mem_filter.1 h).1

theorem row_children (t : Tree) : row t.children = t.parts.map slot := by
  rw [row, parts, List.filter_map]
  congr 1
  refine List.filter_congr fun c _ => ?_
  simp [isComment]

section
variable {rules : Kind → List Alternative} {t : Tree}

/-- The parts of a phrase are a row of one of its alternatives. -/
theorem Conforms.exists_allows_parts (h : t.Conforms rules) {k : Kind} (hl : t.label = .kind k)
    (hk : k.isLeaf rules = false) : ∃ a ∈ rules k, a.body.Allows rules (t.parts.map slot) := by
  rw [← row_children]
  cases h with
  | word => cases hl
  | leaf _ _ hleaf =>
    cases hl
    rw [hk] at hleaf
    cases hleaf
  | phrase _ ha hrow _ =>
    cases hl
    exact ⟨_, ha, hrow⟩

theorem Conforms.children_eq_nil_of_word (h : t.Conforms rules) {w : Word} (hl : t.label = .word w) :
    t.children = [] := by
  cases h with
  | word => rfl
  | leaf => cases hl
  | phrase => cases hl

theorem Conforms.children_eq_nil_of_isLeaf (h : t.Conforms rules) {k : Kind} (hl : t.label = .kind k)
    (hk : k.isLeaf rules = true) : t.children = [] := by
  cases h with
  | word => cases hl
  | leaf => rfl
  | phrase hleaf =>
    cases hl
    rw [hk] at hleaf
    cases hleaf

end

/-- The parts of a phrase are within its bounds. -/
theorem Conforms.hold_countP_parts {rules : Kind → List Alternative} {t : Tree} {k : Kind} {q : Slot → Bool}
    (h : t.Conforms rules) (hl : t.label = .kind k) (hq : ∀ s ∈ Slot.comments, q s = false) :
    (childBounds rules q k).Hold (t.parts.countP fun c => q c.slot) := by
  have hcount : t.parts.countP (fun c => q c.slot) = t.children.countP fun c => q c.slot := by
    rw [parts, List.countP_filter]
    refine List.countP_congr fun c _ => ?_
    cases hc : c.isComment with
    | true => simp [hq c.slot (List.contains_iff_mem.1 hc)]
    | false => simp
  rw [hcount]
  exact h.hold_childBounds hl hq

/-- What children have from the node around them is had by all nodes inside it. -/
theorem of_mem_nodes {P : Tree → Prop} (step : ∀ t c, P t → c ∈ t.children → P c) (t : Tree) :
    P t → ∀ n ∈ t.nodes, P n := by
  refine rec_children (P := fun t => P t → ∀ n ∈ t.nodes, P n) ?_ t
  intro t ih ht n hn
  rw [nodes_eq] at hn
  rcases List.mem_cons.1 hn with rfl | hn
  · exact ht
  · obtain ⟨c, hc, hn⟩ := mem_nodesOf.1 hn
    exact ih c hc (step t c ht hc) n hn

/-! ## Wordings of parts -/

section
variable (text : List Char)

theorem wordings_children_eq (t : Tree) : wordings text t.children = t.parts.map (wording text) := by
  rw [parts]
  induction t.children with
  | nil => rfl
  | cons c cs ih =>
    cases hc : c.isComment with
    | true => simpa [wordings_cons_of_comment text hc, hc] using ih
    | false => simpa [wordings_cons text hc, hc] using ih

theorem wording_of_parts_eq_nil {t : Tree} (h : t.parts = []) :
    t.wording text = .word t.role t.label (slice text t.span) := by
  have hw := wordings_children_eq text t
  rw [h] at hw
  obtain ⟨r, l, s, cs⟩ := t
  rw [wording, show wordings text cs = [] from hw]
  rfl

theorem wording_of_parts_ne_nil {t : Tree} (h : t.parts ≠ []) :
    t.wording text = .phrase t.role t.label (t.parts.map (wording text)) := by
  have hw := wordings_children_eq text t
  obtain ⟨c, cs, hparts⟩ := List.exists_cons_of_ne_nil h
  rw [hparts, List.map_cons] at hw ⊢
  obtain ⟨r, l, s, ds⟩ := t
  rw [wording, show wordings text ds = _ from hw]
  rfl

end

end Tree

namespace Wording

/-- The characters of the words, one after the other. -/
def characters (w : Wording) : List Char := (String.join w.spellings).toList

theorem characters_word (r : Option Role) (l : Label) (s : String) : (word r l s).characters = s.toList := by
  simp [characters, spellings]

theorem characters_phrase (r : Option Role) (l : Label) (ps : List Wording) :
    (phrase r l ps).characters = ps.flatMap characters := by
  rw [characters, spellings]
  induction ps with
  | nil => rfl
  | cons p ps ih => rw [spellingsOf, List.flatMap_cons, ← ih, String.join_append, String.toList_append, characters]

end Wording

/-! ## Class types -/

namespace Label

/-- What names a class or interface. -/
def classTypes : List Label := [.kind .typeIdentifier, .kind .scopedTypeIdentifier, .kind .genericType]

def isAnnotation : Label → Bool
  | .kind .annotationMark | .kind .annotationCall => true
  | _ => false

def isAngleBracket : Label → Bool
  | .word .less | .word .greater => true
  | _ => false

end Label

namespace Rule

section
variable {a : Alternative} {ss : List Slot}

theorem eq_of_allows_typeName {rules : Kind → List Alternative}
    (h : (Rule.shownAs .typeIdentifier (sub .identifier)).Allows rules ss) : ss = [⟨none, .kind .typeIdentifier⟩] := by
  obtain ⟨ts, hss, hts⟩ := allows_shownAs_iff.1 h
  rw [hss, (allows_sub_iff rfl).1 hts]
  rfl

theorem exists_of_allows_scopedType (ha : a ∈ alternatives .scopedTypeIdentifier) (h : a.body.Allows alternatives ss) :
    ∃ first annotations, ss = first :: ⟨none, .word .dot⟩ :: (annotations ++ [⟨none, .kind .typeIdentifier⟩]) ∧
      first.label ∈ Label.classTypes := by
  cases List.mem_singleton.1 ha
  obtain ⟨fs, rest, rfl, hfirst, h⟩ := allows_seq_iff.1 h
  obtain ⟨ds, rest, rfl, hdot, h⟩ := allows_seq_iff.1 h
  obtain ⟨annotations, ls, rfl, -, hlast⟩ := allows_seq_iff.1 h
  rw [allows_word_iff.1 hdot, eq_of_allows_typeName hlast]
  rcases allows_choice_iff.1 hfirst with hname | hfirst
  · rw [eq_of_allows_typeName hname]
    exact ⟨_, annotations, rfl, by decide⟩
  · rcases allows_choice_iff.1 hfirst with hscoped | hgeneric
    · rw [(allows_sub_iff rfl).1 hscoped]
      exact ⟨_, annotations, rfl, by decide⟩
    · rw [(allows_sub_iff rfl).1 hgeneric]
      exact ⟨_, annotations, rfl, by decide⟩

theorem exists_of_allows_genericType (ha : a ∈ alternatives .genericType) (h : a.body.Allows alternatives ss) :
    ∃ first, ss = [first, ⟨none, .kind .typeArguments⟩] ∧ first.label ∈ Label.classTypes := by
  cases List.mem_singleton.1 ha
  obtain ⟨fs, rest, rfl, hfirst, h⟩ := allows_seq_iff.1 h
  rw [(allows_sub_iff rfl).1 h]
  rcases allows_choice_iff.1 hfirst with hname | hscoped
  · rw [eq_of_allows_typeName hname]
    exact ⟨_, rfl, by decide⟩
  · rw [(allows_sub_iff rfl).1 hscoped]
    exact ⟨_, rfl, by decide⟩

theorem exists_of_allows_typeArguments (ha : a ∈ alternatives .typeArguments) (h : a.body.Allows alternatives ss) :
    ∃ inner, ss = ⟨none, .word .less⟩ :: (inner ++ [⟨none, .word .greater⟩]) := by
  cases List.mem_singleton.1 ha
  obtain ⟨os, rest, rfl, hopen, h⟩ := allows_seq_iff.1 h
  obtain ⟨inner, cs, rfl, -, hclose⟩ := allows_seq_iff.1 h
  rw [allows_word_iff.1 hopen, allows_word_iff.1 hclose]
  exact ⟨inner, rfl⟩

end

end Rule

namespace Tree

section
variable {t : Tree}

/-- A scoped type without annotations is a class type, a dot and an identifier. -/
theorem Conforms.parts_scopedType (h : t.Conforms alternatives) (hl : t.label = .kind .scopedTypeIdentifier)
    (hplain : ∀ c ∈ t.parts, c.label.isAnnotation = false) :
    ∃ first dot last, t.parts = [first, dot, last] ∧ first.label ∈ Label.classTypes ∧ dot.label = .word .dot ∧
      last.label = .kind .typeIdentifier := by
  obtain ⟨a, ha, hbody⟩ := h.exists_allows_parts hl (by decide)
  obtain ⟨f, as, hrow, hf⟩ := Rule.exists_of_allows_scopedType ha hbody
  obtain ⟨first, fs, hparts, rfl, hfs⟩ := List.map_eq_cons_iff.1 hrow
  obtain ⟨dot, ds, rfl, hdot, hds⟩ := List.map_eq_cons_iff.1 hfs
  obtain ⟨annotations, ls, rfl, -, hls⟩ := List.map_eq_append_iff.1 hds
  obtain ⟨last, ends, rfl, hlast, hends⟩ := List.map_eq_cons_iff.1 hls
  cases List.map_eq_nil_iff.1 hends
  -- what is no annotation among the parts is counted, and that is all of them
  have hbound := (h.hold_countP_parts (q := fun s => !s.label.isAnnotation && !Slot.comments.contains s) hl
    (by decide)).2 3 (by decide)
  have hall : t.parts.countP (fun c => !c.label.isAnnotation && !c.isComment) = t.parts.length := by
    refine List.countP_eq_length.2 fun c hc => ?_
    rw [hplain c hc, (List.mem_filter.1 hc).2]
    rfl
  have hlength : t.parts.length ≤ 3 := hall ▸ hbound
  have hnone : annotations = [] := by
    rw [hparts] at hlength
    simp only [List.length_cons, List.length_append, List.length_nil] at hlength
    exact List.length_eq_zero_iff.1 (by omega)
  rw [hnone] at hparts
  exact ⟨first, dot, last, hparts, hf, congrArg Slot.label hdot, congrArg Slot.label hlast⟩

/-- A generic type is a class type and its arguments. -/
theorem Conforms.parts_genericType (h : t.Conforms alternatives) (hl : t.label = .kind .genericType) :
    ∃ first arguments, t.parts = [first, arguments] ∧ first.label ∈ Label.classTypes ∧
      arguments.label = .kind .typeArguments := by
  obtain ⟨a, ha, hbody⟩ := h.exists_allows_parts hl (by decide)
  obtain ⟨f, hrow, hf⟩ := Rule.exists_of_allows_genericType ha hbody
  obtain ⟨first, fs, hparts, rfl, hfs⟩ := List.map_eq_cons_iff.1 hrow
  obtain ⟨arguments, ends, rfl, harguments, hends⟩ := List.map_eq_cons_iff.1 hfs
  cases List.map_eq_nil_iff.1 hends
  exact ⟨first, arguments, hparts, hf, congrArg Slot.label harguments⟩

/-- Type arguments stand between two brackets and have no further brackets of their own. -/
theorem Conforms.parts_typeArguments (h : t.Conforms alternatives) (hl : t.label = .kind .typeArguments) :
    ∃ opening inner closing, t.parts = opening :: (inner ++ [closing]) ∧ opening.label = .word .less ∧
      closing.label = .word .greater ∧ ∀ c ∈ inner, c.label.isAngleBracket = false := by
  obtain ⟨a, ha, hbody⟩ := h.exists_allows_parts hl (by decide)
  obtain ⟨is, hrow⟩ := Rule.exists_of_allows_typeArguments ha hbody
  obtain ⟨opening, os, hparts, hopen, hos⟩ := List.map_eq_cons_iff.1 hrow
  obtain ⟨inner, cs, rfl, -, hcs⟩ := List.map_eq_append_iff.1 hos
  obtain ⟨closing, ends, rfl, hclose, hends⟩ := List.map_eq_cons_iff.1 hcs
  cases List.map_eq_nil_iff.1 hends
  refine ⟨opening, inner, closing, hparts, congrArg Slot.label hopen, congrArg Slot.label hclose, ?_⟩
  have hbound := (h.hold_countP_parts (q := fun s => s.label.isAngleBracket) hl (by decide)).2 2 (by decide)
  have hopens : opening.slot.label.isAngleBracket = true := by rw [hopen]; rfl
  have hcloses : closing.slot.label.isAngleBracket = true := by rw [hclose]; rfl
  have hzero : inner.countP (fun c => c.slot.label.isAngleBracket) = 0 := by
    simp only [hparts, List.countP_cons, List.countP_append, List.countP_nil, hopens, hcloses, if_true] at hbound
    omega
  exact fun c hc => Bool.eq_false_iff.2 (List.countP_eq_zero.1 hzero c hc)

end

end Tree

end ClassDiagram.Grammar
