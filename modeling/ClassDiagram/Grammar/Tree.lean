/-
Syntax trees. A node knows what it is, which part it plays in the node around it, and the stretch of
the source from its first to its last word. Comments are nodes too. A tree of a faulty source holds
an `error` node for what had to be skipped or a `missing` node for a word that had to be supplied.
-/
import ClassDiagram.Grammar.Rule
import ClassDiagram.Text.Span

namespace ClassDiagram.Grammar

open ClassDiagram.Text

/-- What a node is. -/
inductive Label
  /-- A phrase, a word of a class or a comment. -/
  | kind (k : Kind)
  /-- A keyword or a mark. -/
  | word (w : Word)
  /-- Words that fit nowhere. -/
  | error
  /-- A word that the source lacks here. -/
  | missing (s : Symbol)
  deriving DecidableEq, Repr, Inhabited

namespace Label

/-- Named nodes are all but the keywords and marks. -/
def isNamed : Label → Bool
  | word _ => false
  | _ => true

def isFault : Label → Bool
  | error | missing _ => true
  | _ => false

end Label

inductive Tree
  | node (role : Option Role) (label : Label) (span : Span) (children : List Tree)
  deriving Inhabited

namespace Tree

def role : Tree → Option Role
  | node r _ _ _ => r

def label : Tree → Label
  | node _ l _ _ => l

def span : Tree → Span
  | node _ _ s _ => s

def children : Tree → List Tree
  | node _ _ _ cs => cs

def leaf (label : Label) (span : Span) : Tree := node none label span []

def withRole (r : Role) : Tree → Tree
  | node _ l s cs => node (some r) l s cs

/-- The word as one of another kind; a missing word stays missing. -/
def shownAs (k : Kind) : Tree → Tree
  | node r l s cs => node r (if l.isFault then l else .kind k) s cs

def isKind (k : Kind) (t : Tree) : Bool := t.label == .kind k

/-- The named children in order. -/
def namedChildren (t : Tree) : List Tree := t.children.filter (·.label.isNamed)

/-- The first child of a kind. -/
def child? (t : Tree) (k : Kind) : Option Tree := t.children.find? (·.isKind k)

/-- The first child that plays a role. -/
def part? (t : Tree) (r : Role) : Option Tree := t.children.find? (·.role == some r)

/-- All children that play a role, in order. -/
def partsOf (t : Tree) (r : Role) : List Tree := t.children.filter (·.role == some r)

/-- A phrase over its parts, of which there is at least one: it reaches from the first to the
last. -/
def phrase (k : Kind) (parts : List Tree) : Tree :=
  let start := (parts.head?.map (·.span.start)).getD 0
  let stop := (parts.getLast?.map (·.span.stop)).getD start
  node none (.kind k) ⟨start, stop⟩ parts

/-! ## Faults -/

mutual

/-- Whether the tree holds an error or a missing word. -/
def hasFault : Tree → Bool
  | node _ l _ cs => l.isFault || anyFault cs

def anyFault : List Tree → Bool
  | [] => false
  | t :: ts => t.hasFault || anyFault ts

end

mutual

/-- The first error or missing word, looking at a node before its children and only into subtrees
that hold one. -/
def firstFault? : Tree → Option Tree
  | node r l s cs =>
    if l.isFault then some (node r l s cs)
    else if anyFault cs then firstFaultIn? cs
    else none

def firstFaultIn? : List Tree → Option Tree
  | [] => none
  | t :: ts => t.firstFault? <|> firstFaultIn? ts

end

/-! ## Size -/

mutual

/-- The number of nodes. -/
def size : Tree → Nat
  | node _ _ _ cs => 1 + sizeAll cs

def sizeAll : List Tree → Nat
  | [] => 0
  | t :: ts => t.size + sizeAll ts

end

/-! ## Comparing two readings -/

/-- The place of a label in the order of preference. -/
def rank : Label → Nat
  | .kind k => k.ctorIdx
  | _ => 0

mutual

/-- Compares two trees of the same stretch: by what they are, then by the number of their children,
then child by child. -/
def order : Tree → Tree → Ordering
  | node _ l _ cs, node _ m _ ds =>
    (compare (rank l) (rank m)).then ((compare cs.length ds.length).then (orderAll cs ds))

def orderAll : List Tree → List Tree → Ordering
  | c :: cs, d :: ds => (order c d).then (orderAll cs ds)
  | _, _ => .eq

end

/-! ## Leaves and what stands between them -/

mutual

/-- The words of the tree from left to right. -/
def leaves : Tree → List Tree
  | node r l s cs => if cs.isEmpty then [node r l s []] else leavesOf cs

def leavesOf : List Tree → List Tree
  | [] => []
  | t :: ts => t.leaves ++ leavesOf ts

end

mutual

/-- Puts the extras, which stand in order between the words of the tree, into the innermost nodes
whose words surround them. -/
def weave (extras : List Tree) : Tree → Tree
  | node r l s cs => node r l s (weaveAll extras cs)

def weaveAll (extras : List Tree) : List Tree → List Tree
  | [] => extras
  | t :: ts =>
    let before := extras.takeWhile fun e => e.span.stop ≤ t.span.start
    let rest := extras.dropWhile fun e => e.span.stop ≤ t.span.start
    let inside := rest.takeWhile fun e => e.span.stop ≤ t.span.stop
    let after := rest.dropWhile fun e => e.span.stop ≤ t.span.stop
    before ++ weave inside t :: weaveAll after ts

end

end Tree

end ClassDiagram.Grammar
