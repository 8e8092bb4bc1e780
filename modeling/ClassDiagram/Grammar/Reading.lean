/-
Reading a source from left to right. Where the grammar allows several moves each is followed on a
reading of its own; readings that have come to the same states are one again, and the preferred tree
is kept.
-/
import ClassDiagram.Grammar.Scanner
import ClassDiagram.Grammar.Tree

namespace ClassDiagram.Grammar

/-- A symbol that has been read: the state after it, the nodes that it contributes to the phrase
around it, and their weight. -/
structure Frame where
  state : Automaton.State
  parts : List Tree
  weight : Int

/-- A reading: the symbols read so far, the latest first. The last frame is the start. -/
abbrev Head := List Frame

namespace Head

/-- Whether two readings have come to the same states, so that they go on alike. -/
def sameStates : Head → Head → Bool
  | [], [] => true
  | f :: fs, g :: gs => f.state.beq g.state && sameStates fs gs
  | _, _ => false

def weight (h : Head) : Int := h.foldl (· + ·.weight) 0

/-- The nodes of a reading from left to right. -/
def nodes (h : Head) : List Tree := h.reverse.flatMap (·.parts)

/-- Of two readings that go on alike, the one with more weight, and between equals the one whose
tree comes first. -/
def prefer (g h : Head) : Head :=
  if g.weight < h.weight then h
  else if h.weight < g.weight then g
  else match Tree.orderAll g.nodes h.nodes with
    | .gt => h
    | _ => g

/-- Adds a reading to those that are followed. -/
def join (h : Head) : List Head → List Head
  | [] => [h]
  | g :: rest => if sameStates g h then prefer g h :: rest else g :: join h rest

end Head

/-- The readings that have come to a position, with the text after it. -/
structure Front where
  offset : Nat
  rest : List Char
  heads : List Head

/-- Adds a reading to the fronts, which stand in the order of their positions. -/
def Front.enqueue (offset : Nat) (rest : List Char) (head : Head) : List Front → List Front
  | [] => [⟨offset, rest, [head]⟩]
  | f :: fs =>
    if offset == f.offset then { f with heads := head.join f.heads } :: fs
    else if offset < f.offset then ⟨offset, rest, [head]⟩ :: f :: fs
    else f :: enqueue offset rest head fs

/-- What has become of the readings. -/
inductive Outcome
  /-- The source is read to its end. -/
  | complete (head : Head)
  /-- No reading goes on; these are the fronts that were passed, the latest first. -/
  | stuck (passed : List Front)

/-- The byte order mark that may open a source. -/
def byteOrderMark : Char := '\ufeff'

/-- How a part appears in the phrase around it. -/
def Step.dress (step : Step) (t : Tree) : Tree :=
  let t := match step.shown with
    | some k => t.shownAs k
    | none => t
  match step.role with
  | some r => t.withRole r
  | none => t

/-- The label of a word in the tree. -/
def Symbol.label : Symbol → Label
  | .word w => .word w
  | .kind k => .kind k
  | .finish => .error

/-- The nodes that a complete production contributes: one, or its parts if the phrase is hidden. A phrase
that is a keyword is the word itself, shown as this phrase. -/
def Production.assemble (p : Production) (parts : List Tree) : List Tree :=
  if p.head.isHidden then parts
  else if p.head.isKeyword then parts.map (Tree.shownAs p.head)
  else [Tree.phrase p.head parts]

namespace Automaton

section
variable (a : Automaton)

/-- The reading of nothing. -/
def nothing : Head := [⟨a.start, [], 0⟩]

/-- Closes a complete production. The state is empty if nothing can come after it. -/
def close (p : Production) (head : Head) : Head :=
  let frames := (head.take p.steps.length).reverse
  let below := head.drop p.steps.length
  let state := match below with
    | [] => []
    | base :: _ => a.next base.state (.kind p.head)
  let parts := (frames.zip p.steps).flatMap fun (frame, step) => frame.parts.map step.dress
  ⟨state, p.assemble parts, frames.foldl (· + ·.weight) p.weight⟩ :: below

/-- The readings after a word, given as a terminal and its node. Complete productions are closed
first, at most `bound` of them one after the other. The end of the source is not read; before it,
what is left are the readings of a whole program. -/
def advance (terminal : Symbol) (node : Tree) : Nat → Head → List Head
  | 0, _ => []
  | _ + 1, [] => []
  | bound + 1, top :: below =>
    let moves := a.moves top.state terminal
    let shifted := if moves.shift then
        [⟨a.next top.state terminal, [node], 0⟩ :: top :: below]
      else []
    let closed := moves.reduce.flatMap fun p =>
      let head := a.close p (top :: below)
      if p.head == .program then [head] else advance terminal node bound head
    shifted ++ closed

/-- A production of one symbol leads to another phrase of the same stretch, and every other one
shortens the reading; so this many can be closed before a word. -/
def bound (head : Head) : Nat := (head.length + 1) * (Symbol.count + 1)

/-- The next word for a reading, and the readings after it. -/
def follow (offset : Nat) (text : List Char) (head : Head) : Option (Lexeme × List Head) :=
  match head with
  | [] => none
  | top :: _ =>
    (Lexeme.scan (a.expects top.state) offset text).map fun lexeme =>
      let node := Tree.leaf lexeme.terminal.label lexeme.span
      (lexeme, a.advance lexeme.terminal node (bound head) head)

/-- Follows the fronts, that of the lowest position first, at most `fuel` of them. -/
def run : Nat → List Front → List Front → Outcome
  | 0, _, passed => .stuck passed
  | _ + 1, [], passed => .stuck passed
  | fuel + 1, front :: queue, passed =>
    let followed := front.heads.filterMap (a.follow front.offset front.rest)
    let complete := followed.flatMap fun (lexeme, heads) =>
      if lexeme.terminal == .finish then heads else []
    match complete with
    | head :: others => .complete (others.foldl Head.prefer head)
    | [] =>
      let queue := followed.foldl (fun queue (lexeme, heads) =>
        let stop := lexeme.span.stop
        heads.foldl (fun queue head =>
          Front.enqueue stop (front.rest.drop (stop - front.offset)) head queue) queue) queue
      run fuel queue (front :: passed)

/-- The front before the first word. -/
def before (text : List Char) : Front :=
  match text with
  | c :: rest =>
    if c == byteOrderMark then ⟨1, rest, [a.nothing]⟩ else ⟨0, text, [a.nothing]⟩
  | [] => ⟨0, [], [a.nothing]⟩

/-- Reads a text that holds at least one word. -/
def read (text : List Char) : Outcome := a.run (text.length + 2) [a.before text] []

end

end Automaton

end ClassDiagram.Grammar
