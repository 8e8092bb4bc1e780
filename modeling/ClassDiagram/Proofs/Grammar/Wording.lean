/-
The wording of a tree: its words with their spellings and the phrases that they make up. The layout
is left out: where the words stand, the blanks between them and the comments. Two sources that differ
in layout only have trees of the same wording, and whatever is looked up among the children of a node
by what they are or which part they play is found alike in both.
-/
import ClassDiagram.Proofs.Grammar.Conformance

namespace ClassDiagram.Grammar

open ClassDiagram.Text

/-- A node without its layout. -/
inductive Wording
  | word (role : Option Role) (label : Label) (spelling : String)
  | phrase (role : Option Role) (label : Label) (parts : List Wording)

namespace Wording

def slot : Wording → Slot
  | word r l _ => ⟨r, l⟩
  | phrase r l _ => ⟨r, l⟩

def parts : Wording → List Wording
  | word _ _ _ => []
  | phrase _ _ ps => ps

mutual

/-- The spellings of the words from left to right. -/
def spellings : Wording → List String
  | word _ _ s => [s]
  | phrase _ _ ps => spellingsOf ps

def spellingsOf : List Wording → List String
  | [] => []
  | p :: ps => p.spellings ++ spellingsOf ps

end

end Wording

namespace Tree

def isComment (t : Tree) : Bool := Slot.comments.contains t.slot

section
variable (text : List Char)

mutual

/-- The wording of a node: a phrase of the wordings of its parts, or a word if it has none. -/
def wording : Tree → Wording
  | node r l s cs =>
    match wordings cs with
    | [] => .word r l (slice text s)
    | w :: ws => .phrase r l (w :: ws)

/-- The wordings of the nodes that are no comments. -/
def wordings : List Tree → List Wording
  | [] => []
  | c :: cs => if c.isComment then wordings cs else c.wording :: wordings cs

end

/-- The spellings of the words of a node from left to right. -/
def spellings (t : Tree) : List String := (t.wording text).spellings

/-! ## What the wording shows of a node -/

theorem wordings_cons_of_comment {c : Tree} (h : c.isComment = true) (cs : List Tree) :
    wordings text (c :: cs) = wordings text cs := by
  rw [wordings, if_pos h]

theorem wordings_cons {c : Tree} (h : c.isComment = false) (cs : List Tree) :
    wordings text (c :: cs) = c.wording text :: wordings text cs := by
  rw [wordings, h]
  rfl

theorem slot_wording (t : Tree) : (t.wording text).slot = t.slot := by
  obtain ⟨r, l, s, cs⟩ := t
  rw [wording]
  cases wordings text cs with
  | nil => rfl
  | cons => rfl

theorem parts_wording (t : Tree) : (t.wording text).parts = wordings text t.children := by
  obtain ⟨r, l, s, cs⟩ := t
  rw [wording]
  show _ = wordings text cs
  cases wordings text cs with
  | nil => rfl
  | cons => rfl

/-! ## Looking nodes up -/

/-- What is looked up by a property that no comment has is found among the wordings. -/
theorem find?_wordings {q : Slot → Bool} (hq : ∀ s ∈ Slot.comments, q s = false) : ∀ cs : List Tree,
    (cs.find? fun c => q c.slot).map (wording text) = (wordings text cs).find? fun w => q w.slot
  | [] => rfl
  | c :: cs => by
    have ih := find?_wordings hq cs
    cases hc : c.isComment with
    | true =>
      rw [wordings_cons_of_comment text hc, List.find?_cons, hq c.slot (List.contains_iff_mem.1 hc)]
      exact ih
    | false =>
      rw [wordings_cons text hc, List.find?_cons, List.find?_cons, slot_wording]
      cases q c.slot with
      | true => rfl
      | false => exact ih

theorem wordings_filter (q : Slot → Bool) : ∀ cs : List Tree,
    wordings text (cs.filter fun c => q c.slot) = (wordings text cs).filter fun w => q w.slot
  | [] => rfl
  | c :: cs => by
    have ih := wordings_filter q cs
    cases hc : c.isComment with
    | true =>
      rw [wordings_cons_of_comment text hc, List.filter_cons]
      split
      · rw [wordings_cons_of_comment text hc, ih]
      · exact ih
    | false =>
      rw [wordings_cons text hc, List.filter_cons, List.filter_cons, slot_wording]
      split
      · rw [wordings_cons text hc, ih]
      · exact ih

end

/-! ## Two trees of the same wording -/

section
variable {text text' : List Char}

theorem slot_eq_of_wording {t u : Tree} (h : t.wording text = u.wording text') : t.slot = u.slot := by
  rw [← slot_wording text t, h, slot_wording]

theorem label_eq_of_wording {t u : Tree} (h : t.wording text = u.wording text') : t.label = u.label :=
  congrArg Slot.label (slot_eq_of_wording h)

theorem wordings_children {t u : Tree} (h : t.wording text = u.wording text') :
    wordings text t.children = wordings text' u.children := by
  rw [← parts_wording, h, parts_wording]

theorem wordings_namedChildren {t u : Tree} (h : t.wording text = u.wording text') :
    wordings text t.namedChildren = wordings text' u.namedChildren := by
  have hfilter := wordings_filter text fun s => s.label.isNamed
  have hfilter' := wordings_filter text' fun s => s.label.isNamed
  calc wordings text t.namedChildren
      = (wordings text t.children).filter fun w => w.slot.label.isNamed := hfilter t.children
    _ = (wordings text' u.children).filter fun w => w.slot.label.isNamed := by rw [wordings_children h]
    _ = wordings text' u.namedChildren := (hfilter' u.children).symm

/-- The same is looked up among nodes of the same wordings. -/
theorem find?_congr {q : Slot → Bool} (hq : ∀ s ∈ Slot.comments, q s = false) {cs ds : List Tree}
    (h : wordings text cs = wordings text' ds) :
    (cs.find? fun c => q c.slot).map (wording text) = (ds.find? fun d => q d.slot).map (wording text') := by
  rw [find?_wordings text hq, find?_wordings text' hq, h]

theorem part?_congr {t u : Tree} (h : t.wording text = u.wording text') (r : Role) :
    (t.part? r).map (wording text) = (u.part? r).map (wording text') :=
  find?_congr (q := fun s => s.role == some r) (by simp [Slot.comments]) (wordings_children h)

theorem child?_congr {t u : Tree} (h : t.wording text = u.wording text') {k : Kind}
    (hk : k ≠ .lineComment ∧ k ≠ .blockComment) :
    (t.child? k).map (wording text) = (u.child? k).map (wording text') := by
  refine find?_congr (q := fun s => s.label == .kind k) ?_ (wordings_children h)
  intro s hs
  simp only [Slot.comments, List.mem_cons, List.not_mem_nil, or_false] at hs
  rcases hs with rfl | rfl
  · simpa using Ne.symm hk.1
  · simpa using Ne.symm hk.2

/-- Functions that agree on nodes of the same wording and pass over comments give the same along nodes
of the same wordings. -/
theorem filterMap_congr {β : Type} {f g : Tree → Option β} (hf : ∀ c, c.isComment = true → f c = none)
    (hg : ∀ d, d.isComment = true → g d = none) : ∀ {cs ds : List Tree}, wordings text cs = wordings text' ds →
    (∀ c ∈ cs, ∀ d ∈ ds, c.wording text = d.wording text' → f c = g d) → cs.filterMap f = ds.filterMap g
  | [], [], _, _ => rfl
  | c :: cs, ds, h, hfg => by
    cases hc : c.isComment with
    | true =>
      rw [wordings_cons_of_comment text hc] at h
      rw [List.filterMap_cons_none (hf c hc)]
      exact filterMap_congr hf hg h fun e he => hfg e (List.mem_cons_of_mem _ he)
    | false =>
      -- the comments before the counterpart of `c` are passed over
      induction ds with
      | nil =>
        rw [wordings_cons text hc, wordings] at h
        cases h
      | cons d ds ih =>
        cases hd : d.isComment with
        | true =>
          rw [wordings_cons_of_comment text' hd] at h
          rw [List.filterMap_cons_none (hg d hd)]
          exact ih h fun e he e' he' => hfg e he e' (List.mem_cons_of_mem _ he')
        | false =>
          rw [wordings_cons text hc, wordings_cons text' hd] at h
          obtain ⟨hhead, htail⟩ := List.cons.inj h
          have hrest := filterMap_congr hf hg htail fun e he e' he' =>
            hfg e (List.mem_cons_of_mem _ he) e' (List.mem_cons_of_mem _ he')
          rw [List.filterMap_cons, List.filterMap_cons, hrest,
            hfg c (List.mem_cons_self ..) d (List.mem_cons_self ..) hhead]
  | [], d :: ds, h, hfg => by
    cases hd : d.isComment with
    | true =>
      rw [wordings_cons_of_comment text' hd] at h
      rw [List.filterMap_cons_none (hg d hd)]
      exact filterMap_congr hf hg h fun _ he => absurd he List.not_mem_nil
    | false =>
      rw [wordings_cons text' hd, wordings] at h
      cases h

end

end Tree

end ClassDiagram.Grammar
