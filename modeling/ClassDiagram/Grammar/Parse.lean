/-
From the text of a Java source to its tree. Every text has one: a text that is not a source gets a
tree with a fault in it.
-/
import ClassDiagram.Grammar.Java
import ClassDiagram.Grammar.Repair

namespace ClassDiagram.Grammar

open ClassDiagram.Text

/-- The comments of a text that begins at `offset` and holds no words; the first argument bounds
their number. -/
def commentsIn : Nat → Nat → List Char → List Tree
  | 0, _, _ => []
  | bound + 1, offset, text =>
    let blanks := (text.takeWhile fun c => !(c == '/')).length
    match commentAt (text.drop blanks) with
    | none => []
    | some (kind, n) =>
      let start := offset + blanks
      Tree.leaf (.kind kind) ⟨start, start + n⟩ ::
        commentsIn bound (start + n) (text.drop (blanks + n))

/-- The comments of a text from `offset` on that stand outside the given stretches, which come in
order. -/
def commentsOutside (text : List Char) (offset : Nat) : List Span → List Tree
  | [] => commentsIn text.length offset (text.drop offset)
  | s :: spans =>
    let size := s.start - offset
    commentsIn size offset ((text.drop offset).take size) ++ commentsOutside text s.stop spans

/-- The tree of a complete reading, with the comments and the error, if there is one, in place. -/
def finishTree (text : List Char) (fault : Option Tree) (tree : Tree) : Tree :=
  let words := tree.leaves.map (·.span)
  let occupied := match fault with
    | none => words
    | some f => (words ++ [f.span]).mergeSort fun a b => a.start ≤ b.start
  let comments := commentsOutside text 0 occupied
  let extras := match fault with
    | none => comments
    | some f => (comments ++ [f]).mergeSort fun a b => a.span.start ≤ b.span.start
  tree.weave extras

/-- The program of a complete reading. -/
def Head.tree (head : Head) : Tree := head.nodes.head?.getD (Tree.phrase .program [])

/-- A tree with nothing but an error that begins at the position. -/
def faultyTree (text : List Char) (position : Nat) : Tree :=
  .node none (.kind .program) ⟨0, text.length⟩ [Tree.leaf .error ⟨position, text.length⟩]

namespace Automaton

/-- The text without the byte order mark that may open it. -/
def body (text : List Char) : List Char :=
  match text with
  | c :: rest => if c == byteOrderMark then rest else c :: rest
  | [] => []

/-- The tree of a text. A text without words is an empty program. A text that had to be repaired is
faulty, whatever the repair leaves of it. -/
def parse (a : Automaton) (text : List Char) : Tree :=
  if gap (body text) == (body text).length then
    finishTree text none (Tree.phrase .program [])
  else match a.read text with
    | .complete head => finishTree text none head.tree
    | .stuck [] => faultyTree text 0
    | .stuck (fault :: _) =>
      match a.mend? text none (a.repairs text fault) with
      | none => faultyTree text fault.offset
      | some (repair, none) => faultyTree text repair.span.start
      | some (repair, some head) =>
        let skipped := if repair.span.start < repair.span.stop then
            some (Tree.leaf .error repair.span)
          else none
        let mended := finishTree text skipped head.tree
        if mended.hasFault then mended else faultyTree text repair.span.start

end Automaton

/-- The reader of Java sources. -/
def java : Automaton := Automaton.ofRules alternatives

end ClassDiagram.Grammar
