/-
Where a faulty source departs from the grammar. The fault is located by the cheapest repair after
which the rest can be read: a word is supplied where no reading goes on, or a stretch around that
place is skipped.
-/
import ClassDiagram.Grammar.Reading

namespace ClassDiagram.Grammar

open ClassDiagram.Text

/-- A repair: what it costs, the stretch that it skips or the empty stretch where it supplies a
word, and the front from which reading goes on. -/
structure Repair where
  cost : Nat
  span : Span
  front : Front

namespace Repair

/-- What every repair costs. -/
def base : Nat := 500

/-- What a supplied word costs beside that. -/
def perSupplied : Nat := 110

/-- What a skipped node costs beside that. -/
def perSkipped : Nat := 100

/-- What a line break inside a skipped stretch costs, which costs one for each of its bytes as
well. -/
def perLine : Nat := 30

/-- The number of symbols before the fault that may be skipped. -/
def backward : Nat := 16

/-- The number of words from the fault on that may be skipped. -/
def forward : Nat := 8

/-- The number of words that may be supplied at the end of the source. -/
def atEnd : Nat := 3

/-- Going back is given up if what it costs beyond a supplied word, times the number of nodes read
so far, exceeds this. -/
def patience : Nat := 1800

/-- Every symbol but those that stand only inside strings and text blocks. -/
def everywhere : SymbolSet :=
  SymbolSet.ofList (Symbol.all.filter fun s =>
    s != .kind .stringFragment && s != .kind .textBlockFragment)

end Repair

/-- The cost of a stretch that is skipped, apart from the nodes in it. -/
def stretchCost (text : List Char) (span : Span) : Nat :=
  let skipped := (text.drop span.start).take (span.stop - span.start)
  byteLength skipped + Repair.perLine * skipped.count '\n'

/-- The next word as it is read where no word is expected: what has the form of an identifier is
one. -/
def Front.lookahead? (front : Front) : Option Symbol :=
  match front.rest.drop (gap front.rest) with
  | [] => some .finish
  | rest =>
    if (wordPattern.longest? rest).isSome then some (.kind .identifier)
    else (Lexeme.scan Repair.everywhere front.offset front.rest).map (·.terminal)

namespace Automaton

section
variable (a : Automaton)

/-! ## Supplying a word -/

/-- The readings that can go on with a word, when the productions are closed that end before it. -/
def peek (next : Symbol) (head : Head) : List Head :=
  (a.advance next (Tree.leaf next.label ⟨0, 0⟩) (bound head) head).map List.tail

/-- Whether the latest symbol of a reading completes a phrase after which the next word can be read;
before the end of the source any phrase counts. -/
def completes (front : Front) (head : Head) : Bool :=
  match head, front.lookahead? with
  | top :: _, some .finish => top.state.any (·.rest.isEmpty)
  | top :: _, some next => !(closing top.state next).isEmpty && !(a.peek next head).isEmpty
  | _, _ => false

/-- The readings after a supplied word, whichever word completes a phrase. -/
def supplied (front : Front) (offset : Nat) (head : Head) : List Head :=
  match head with
  | [] => []
  | top :: _ =>
    let expected := a.expects top.state
    (Symbol.all.flatMap fun s =>
      if expected.has s && s != .finish then
        a.advance s (Tree.leaf (.missing s) ⟨offset, offset⟩) (bound head) head
      else []).filter (a.completes front)

/-- Supplies words at a front, where the last comment before the next word ends. -/
def supply (front : Front) : Nat → Repair
  | 0 =>
    let offset := front.offset + commented front.rest
    ⟨0, ⟨offset, offset⟩, front⟩
  | n + 1 =>
    let repair := supply front n
    { repair with
      cost := repair.cost + Repair.base + Repair.perSupplied
      front := { front with
        heads := (repair.front.heads.flatMap (a.supplied front repair.span.start)).foldl
          (fun hs h => h.join hs) [] } }

/-- The ways to supply what is wanting: one word, or several at the end of the source. -/
def supplies (front : Front) : List Repair :=
  let atMost := if front.lookahead? == some .finish then Repair.atEnd else 1
  (List.range atMost).map fun n => a.supply front (n + 1)

/-! ## Skipping a stretch -/

/-- The words from a position on, whether expected or not, at most `n` of them; a character that
begins no word stands for itself. -/
def wordsFrom : Nat → Nat → List Char → List Span
  | 0, _, _ => []
  | n + 1, offset, text =>
    let skipped := gap text
    match text.drop skipped with
    | [] => []
    | _ =>
      let start := offset + skipped
      let stop := match Lexeme.scan Repair.everywhere offset text with
        | some lexeme => lexeme.span.stop
        | none => start + 1
      ⟨start, stop⟩ :: wordsFrom n stop (text.drop (stop - offset))

/-- A reading and those that come from it when complete productions are closed, whatever follows;
at most `bound` of them one after the other. -/
def closures : Nat → Head → List Head
  | 0, head => [head]
  | _ + 1, [] => []
  | bound + 1, top :: below =>
    let complete := top.state.filter fun item =>
      item.rest.isEmpty && item.production.head != .program
    let closed := (complete.map fun item => a.close item.production (top :: below)).filter
      fun head => head.head?.any fun f => !f.state.isEmpty
    (top :: below) :: closed.flatMap (closures bound)

/-- Skips the latest symbols of a reading and the given words, which come next. -/
def skip? (text : List Char) (words : List Span) (back : Nat) (head : Head) : Option Repair :=
  let skipped := (Head.nodes (head.take back)).map (·.span) ++ words
  match skipped.head?, skipped.getLast? with
  | some first, some last =>
    let span : Span := ⟨first.start, last.stop⟩
    some {
      cost := Repair.base + Repair.perSkipped * skipped.length + stretchCost text span
      span
      front := ⟨last.stop, text.drop last.stop, [head.drop back]⟩ }
  | _, _ => none

/-- Whether it is too much to go back so far while readings with a supplied word go on. -/
def isTooFar (text : List Char) (supplies : List Repair) (fault : Front) (back : Nat)
    (head : Head) : Bool :=
  let stop := ((Head.nodes (head.drop back)).getLast?.map (·.span.stop)).getD 0
  let cost := Repair.base + Repair.perSkipped * (back + 1) +
    stretchCost text ⟨stop, fault.offset⟩
  let next := fault.lookahead?.getD .finish
  supplies.any fun repair => (repair.front.heads.flatMap (a.peek next)).any fun supplied =>
    Repair.patience < (cost - repair.cost) * (1 + Tree.sizeAll (Head.nodes supplied))

/-- Whether a word can be read when the latest symbols of a reading are skipped. -/
def isExpectedAt (next : Symbol) (back : Nat) (head : Head) : Bool :=
  match (head.drop back).head? with
  | some top => (a.expects top.state).has next
  | none => false

/-- The places to which reading may return, the nearest first. -/
def places (heads : List Head) : List (Nat × Head) :=
  (List.range (Repair.backward + 1)).flatMap fun back => heads.map (back, ·)

/-- Skips words from the fault on and goes back to the nearest place where the word after them can
be read. -/
def skipWords? (text : List Char) (supplies : List Repair) (fault : Front) (heads : List Head)
    (words : List Span) : Option Repair := do
  match words.getLast? with
  | none =>
    let next ← fault.lookahead?
    let (back, head) ← ((places heads).filter (·.1 != 0)).find? fun (back, head) =>
      a.isExpectedAt next back head
    if a.isTooFar text supplies fault back head then none else skip? text [] back head
  | some last =>
    let next ← Lexeme.scan Repair.everywhere last.stop (text.drop last.stop)
    let (back, head) ← (places heads).find? fun (back, head) =>
      a.isExpectedAt next.terminal back head
    skip? text words back head

/-- The ways to skip symbols before a fault and words from it on, the furthest first. -/
def skips (text : List Char) (supplies : List Repair) (fault : Front) (heads : List Head)
    (words : List Span) : List Repair :=
  ((List.range (words.length + 1)).filterMap fun ahead =>
    a.skipWords? text supplies fault heads (words.take ahead)).reverse

/-- Skips everything to the end of the source, if no more than the given words are left. -/
def skipAll (text : List Char) (fault : Front) (heads : List Head) (words : List Span) :
    List Repair :=
  let stop := (words.getLast?.map (·.stop)).getD fault.offset
  let rest := text.drop stop
  if gap rest == rest.length then
    (heads.filterMap fun head => skip? text words (head.length - 1) head).map fun repair =>
      { repair with cost := repair.cost + stretchCost text ⟨stop, text.length⟩ }
  else []

/-! ## The cheapest repair -/

/-- The repairs of a fault, the cheapest first. Of those that cost the same, one that skips more
words comes before one that skips fewer, next those that supply a word, and last those that skip
everything. -/
def repairs (text : List Char) (fault : Front) : List Repair :=
  let supplies := a.supplies fault
  let words := wordsFrom Repair.forward fault.offset fault.rest
  let heads := (fault.heads.flatMap fun h => a.closures (bound h) h).foldl
    (fun hs h => h.join hs) []
  (a.skips text supplies fault heads words ++ supplies ++
    skipAll text fault heads words).mergeSort fun x y => x.cost ≤ y.cost

/-- Reads on after a repair. If everything was skipped there is nothing left to read. -/
def resume (text : List Char) (repair : Repair) : Outcome :=
  let front := repair.front
  match front.heads.find? fun head => head.length == 1 && front.lookahead? == some .finish with
  | some head => .complete head
  | none => a.run (text.length + 2) [front] []

/-- The position of the latest of the fronts that were passed. -/
def reached (passed : List Front) : Nat := (passed.head?.map (·.offset)).getD 0

/-- The first repair after which the rest can be read, with the reading; if there is none, the first
of those that lead furthest. The second argument is the best so far with the position that it led
to. -/
def mend? (text : List Char) (best : Option (Repair × Nat)) :
    List Repair → Option (Repair × Option Head)
  | [] => best.map fun (repair, _) => (repair, none)
  | repair :: others =>
    match a.resume text repair with
    | .complete head => some (repair, some head)
    | .stuck passed =>
      let further : Bool := match best with
        | some (_, position) => position < reached passed
        | none => true
      mend? text (if further then some (repair, reached passed) else best) others

end

end Automaton

end ClassDiagram.Grammar
