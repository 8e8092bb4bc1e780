/-
What it means for a tree to conform to a grammar: the children of a phrase, comments left aside, are
a row that one of its alternatives allows, where a hidden phrase stands for its own parts, and the
words have no children, nor has a phrase that is a single keyword. Comments may stand between any two
children. A tree that conforms holds no fault.
-/
import ClassDiagram.Grammar.Java
import ClassDiagram.Grammar.Tree

namespace ClassDiagram.Grammar

/-! ## Rows of nodes -/

/-- What a rule sees of a node: the part that it plays and what it is. -/
structure Slot where
  role : Option Role
  label : Label
  deriving DecidableEq

namespace Slot

def withRole (r : Role) (s : Slot) : Slot := { s with role := some r }

def shownAs (k : Kind) (s : Slot) : Slot := { s with label := if s.label.isFault then s.label else .kind k }

/-- What is seen of a comment, which plays no part in a phrase. -/
def comments : List Slot := [⟨none, .kind .lineComment⟩, ⟨none, .kind .blockComment⟩]

end Slot

/-- The rows of nodes that a rule allows. -/
inductive Rule.Allows (rules : Kind → List Alternative) : Rule → List Slot → Prop
  | empty : Allows rules .empty []
  | word (w : Word) : Allows rules (.symbol (.word w)) [⟨none, .word w⟩]
  | kind {k : Kind} : k.isHidden = false → Allows rules (.symbol (.kind k)) [⟨none, .kind k⟩]
  | hidden {k : Kind} {a : Alternative} {ss : List Slot} : k.isHidden = true → a ∈ rules k →
      Allows rules a.body ss → Allows rules (.symbol (.kind k)) ss
  | seq {a b : Rule} {ss ts : List Slot} : Allows rules a ss → Allows rules b ts →
      Allows rules (.seq a b) (ss ++ ts)
  | left {a b : Rule} {ss : List Slot} : Allows rules a ss → Allows rules (.choice a b) ss
  | right {a b : Rule} {ss : List Slot} : Allows rules b ss → Allows rules (.choice a b) ss
  | role {p : Role} {r : Rule} {ss : List Slot} : Allows rules r ss →
      Allows rules (.role p r) (ss.map (Slot.withRole p))
  | shownAs {k : Kind} {r : Rule} {ss : List Slot} : Allows rules r ss →
      Allows rules (.shownAs k r) (ss.map (Slot.shownAs k))

/-- The depth to which hidden phrases are opened: runs apart, they do not stand deeper in each other. -/
def hiddenDepth : Nat := 8

/-! ## Trees -/

/-- Whether the nodes of a kind have no children: words of a class, and phrases that are a keyword. -/
def Kind.isLeaf (rules : Kind → List Alternative) (k : Kind) : Bool := k.isKeyword || (rules k).isEmpty

namespace Tree

def slot (t : Tree) : Slot := ⟨t.role, t.label⟩

/-- What the rules see of the children. -/
def row (cs : List Tree) : List Slot := (cs.map slot).filter fun s => s ∉ Slot.comments

/-- A tree of a grammar. -/
inductive Conforms (rules : Kind → List Alternative) : Tree → Prop
  | word (r : Option Role) (w : Word) (s : Text.Span) : Conforms rules (.node r (.word w) s [])
  | leaf (r : Option Role) {k : Kind} (s : Text.Span) : k.isLeaf rules = true →
      Conforms rules (.node r (.kind k) s [])
  | phrase {r : Option Role} {k : Kind} {s : Text.Span} {cs : List Tree} {a : Alternative} :
      k.isLeaf rules = false → a ∈ rules k → a.body.Allows rules (row cs) → (∀ c ∈ cs, Conforms rules c) →
      Conforms rules (.node r (.kind k) s cs)

theorem Conforms.of_mem {rules : Kind → List Alternative} {t c : Tree} (h : t.Conforms rules)
    (hc : c ∈ t.children) : c.Conforms rules := by
  cases h with
  | word => cases hc
  | leaf => cases hc
  | phrase _ _ _ hcs => exact hcs c hc

mutual

/-- What holds of a tree whenever it holds of its children holds of every tree. -/
theorem rec_children {P : Tree → Prop} (step : ∀ t, (∀ c ∈ t.children, P c) → P t) : ∀ t, P t
  | .node r l s cs => step (.node r l s cs) (rec_children_list step cs)

theorem rec_children_list {P : Tree → Prop} (step : ∀ t, (∀ c ∈ t.children, P c) → P t) :
    ∀ cs : List Tree, ∀ c ∈ cs, P c
  | [], _, hc => nomatch hc
  | t :: ts, c, hc => by
    rcases List.mem_cons.1 hc with h | hc
    · rw [h]
      exact rec_children step t
    · exact rec_children_list step ts c hc

end

mutual

/-- A node and then all nodes inside it, each before those inside it. -/
def nodes : Tree → List Tree
  | .node r l s cs => .node r l s cs :: nodesOf cs

def nodesOf : List Tree → List Tree
  | [] => []
  | t :: ts => t.nodes ++ nodesOf ts

end

theorem nodes_eq (t : Tree) : t.nodes = t :: nodesOf t.children := by
  cases t
  rw [nodes]
  rfl

theorem nodesOf_eq_flatMap (cs : List Tree) : nodesOf cs = cs.flatMap nodes := by
  induction cs with
  | nil => rfl
  | cons c cs ih => rw [nodesOf, List.flatMap_cons, ih]

theorem mem_nodesOf {n : Tree} {cs : List Tree} : n ∈ nodesOf cs ↔ ∃ c ∈ cs, n ∈ c.nodes := by
  rw [nodesOf_eq_flatMap, List.mem_flatMap]

theorem self_mem_nodes (t : Tree) : t ∈ t.nodes := by
  rw [nodes_eq]
  exact List.mem_cons_self ..

/-- What stands inside a child stands inside the node. -/
theorem mem_nodes_of_child {t c n : Tree} (hc : c ∈ t.children) (hn : n ∈ c.nodes) : n ∈ t.nodes := by
  rw [nodes_eq]
  exact List.mem_cons_of_mem _ (mem_nodesOf.2 ⟨c, hc, hn⟩)

theorem anyFault_eq_any (cs : List Tree) : anyFault cs = cs.any hasFault := by
  induction cs with
  | nil => rfl
  | cons c cs ih => rw [anyFault, List.any_cons, ih]

theorem anyFault_eq_false_iff {cs : List Tree} : anyFault cs = false ↔ ∀ c ∈ cs, c.hasFault = false := by
  rw [anyFault_eq_any, List.any_eq_false]
  simp only [Bool.not_eq_true]

/-- A tree of a grammar holds no error and no missing word. -/
theorem Conforms.hasFault_eq_false {rules : Kind → List Alternative} {t : Tree} (h : t.Conforms rules) :
    t.hasFault = false := by
  induction h with
  | word => rfl
  | leaf => rfl
  | phrase _ _ _ _ ih => exact anyFault_eq_false_iff.2 ih

end Tree

end ClassDiagram.Grammar
