/-
States of a left-to-right reading. A state lists the productions that may be under way, how far each
has come, and which terminals may follow it. Productions that have not begun are not listed; the
tables say which of them can begin where a phrase is expected. A set of symbols is a number whose
binary digits are the members.
-/
import ClassDiagram.Grammar.Production

namespace ClassDiagram.Grammar

/-! ## Sets of symbols -/

/-- A set of symbols. -/
abbrev SymbolSet := Nat

namespace SymbolSet

def single (s : Symbol) : SymbolSet := 1 <<< s.index

def has (set : SymbolSet) (s : Symbol) : Bool := (set >>> s.index) % 2 == 1

def ofList (symbols : List Symbol) : SymbolSet :=
  symbols.foldl (fun set s => set ||| single s) 0

end SymbolSet

/-! ## Tables of a grammar -/

/-- What may follow a production that begins where some phrase is expected: a fixed set and, if the
production can reach to the end of that phrase, whatever may follow the phrase. -/
structure Corner where
  fixed : SymbolSet
  inherits : Bool
  deriving DecidableEq

structure Automaton where
  /-- The productions of each kind. -/
  productions : Array (List Production)
  /-- The terminals with which each symbol can begin. -/
  first : Array SymbolSet
  /-- The productions whose first step is the symbol. -/
  opening : Array (List Production)
  /-- For an expected kind and the head of a production, what follows the production if it can begin
  there. -/
  corners : Array (Array (Option Corner))

namespace Automaton

/-- The set with all symbols that can be reached from the given ones. Each step takes one symbol off
the list or adds one to the set. -/
def reach (next : Kind → List Symbol) : Nat → List Symbol → SymbolSet → SymbolSet
  | 0, _, seen => seen
  | _ + 1, [], seen => seen
  | fuel + 1, s :: todo, seen =>
    if seen.has s then reach next fuel todo seen
    else
      let more := match s with
        | .kind k => next k ++ todo
        | _ => todo
      reach next fuel more (seen ||| SymbolSet.single s)

/-- The table of a function on kinds. -/
def tableOf {α : Type} (f : Kind → α) : Array α := (Kind.all.map f).toArray

/-- The corners below a phrase. A production of `d` can begin there if `d` stands in `within`. It is
followed by what comes after a phrase that `d` can be all of, in some production that can begin
there too, and by what follows the phrase itself if `d` can be all of it. -/
def cornersOf (within : SymbolSet) (above : Kind → List Kind)
    (follows : Kind → List (Kind × SymbolSet)) (k : Kind) : Array (Option Corner) :=
  let following := tableOf fun c =>
    (follows c).foldl (fun set (head, follow) =>
      if within.has (.kind head) then set ||| follow else set) 0
  tableOf fun d =>
    if within.has (.kind d) then
      some {
        fixed := (above d).foldl (fun set c => set ||| following.getD c.ctorIdx 0) 0
        inherits := (above d).contains k }
    else none

def ofRules (rules : Kind → List Alternative) : Automaton :=
  let productions := tableOf (productionsOf rules)
  let everything := Kind.all.flatMap fun k => productions.getD k.ctorIdx []
  let fuel := everything.length + Symbol.count + 1
  let opening := (Symbol.all.map fun s =>
    everything.filter fun p => p.steps.head?.map (·.symbol) == some s).toArray
  let begins := tableOf fun k =>
    ((productions.getD k.ctorIdx []).filterMap (·.steps.head?.map (·.symbol))).eraseDups
  let within := (Symbol.all.map fun s =>
    reach (fun k => begins.getD k.ctorIdx []) fuel [s] 0).toArray
  let terminals := SymbolSet.ofList (Symbol.all.filter fun s =>
    match s with
    | .kind k => (rules k).isEmpty
    | _ => true)
  let first := within.map (· &&& terminals)
  let wholes := tableOf fun k =>
    ((opening.getD (Symbol.kind k).index []).filterMap fun p =>
      if p.steps.length == 1 then some (Symbol.kind p.head) else none).eraseDups
  let above := tableOf fun k =>
    let set := reach (fun k => wholes.getD k.ctorIdx []) fuel [.kind k] 0
    Kind.all.filter fun c => set.has (.kind c)
  let follows := tableOf fun k =>
    (opening.getD (Symbol.kind k).index []).filterMap fun p =>
      match p.steps with
      | _ :: next :: _ => some (p.head, first.getD next.symbol.index 0)
      | _ => none
  let corners := tableOf fun k =>
    cornersOf (within.getD (Symbol.kind k).index 0) (fun d => above.getD d.ctorIdx [])
      (fun c => follows.getD c.ctorIdx []) k
  { productions, first, opening, corners }

/-! ## States -/

/-- A production under way: the steps that are still to come, and what may follow it. -/
structure Item where
  production : Production
  rest : List Step
  lookaheads : SymbolSet

/-- Two items at the same place of the same production. -/
def Item.sameCore (a b : Item) : Bool :=
  a.production.head == b.production.head && a.production.number == b.production.number &&
    a.rest.length == b.rest.length

def Item.beq (a b : Item) : Bool := a.sameCore b && a.lookaheads == b.lookaheads

/-- Items come in the order of their productions, those with more to come first. -/
def Item.order (a b : Item) : Ordering :=
  (compare a.production.head.ctorIdx b.production.head.ctorIdx).then
    ((compare a.production.number b.production.number).then
      (compare b.rest.length a.rest.length))

/-- The items in order, no two at the same place of the same production. -/
abbrev State := List Item

namespace State

def beq : State → State → Bool
  | [], [] => true
  | a :: as, b :: bs => a.beq b && beq as bs
  | _, _ => false

/-- Adds an item in its place; what may follow is joined with what is known of the same core. -/
def insert (item : Item) : State → State
  | [] => [item]
  | other :: rest =>
    match item.order other with
    | .lt => item :: other :: rest
    | .eq => { item with lookaheads := item.lookaheads ||| other.lookaheads } :: rest
    | .gt => other :: insert item rest

end State

section
variable (a : Automaton)

def firstOf (s : Symbol) : SymbolSet := a.first.getD s.index 0

/-- Nothing read, a whole program expected. -/
def start : State :=
  (a.productions.getD Kind.program.ctorIdx []).map fun p =>
    ⟨p, p.steps, SymbolSet.single .finish⟩

/-- What may come next, when these steps are to come and then `lookaheads`. -/
def ahead (steps : List Step) (lookaheads : SymbolSet) : SymbolSet :=
  match steps with
  | [] => lookaheads
  | next :: _ => a.firstOf next.symbol

/-- The corners of the productions that can begin with the symbol where a phrase is expected. -/
def begun (expected symbol : Symbol) : List (Production × Corner) :=
  match expected with
  | .kind k =>
    let corners := a.corners.getD k.ctorIdx #[]
    (a.opening.getD symbol.index []).filterMap fun p =>
      (corners.getD p.head.ctorIdx none).map (p, ·)
  | _ => []

/-- The state after reading a symbol; it is empty if the symbol is not expected. -/
def next (state : State) (symbol : Symbol) : State :=
  state.foldl (fun result item =>
    match item.rest with
    | [] => result
    | expected :: after =>
      let follow := a.ahead after item.lookaheads
      let result := if expected.symbol == symbol then
          State.insert { item with rest := after } result
        else result
      (a.begun expected.symbol symbol).foldl (fun result (p, c) =>
        State.insert
          ⟨p, p.steps.tail, c.fixed ||| (if c.inherits then follow else 0)⟩ result) result) []

/-- The terminals with which reading can go on. -/
def expects (state : State) : SymbolSet :=
  state.foldl (fun set item => set ||| a.ahead item.rest item.lookaheads) 0

/-- What a state does on a terminal. -/
structure Moves where
  /-- The terminal is read. -/
  shift : Bool
  /-- These productions are complete and closed first, each on a reading of its own. -/
  reduce : List Production

/-- The complete productions that the terminal may follow, of those only the ones that bind
tightest. -/
def closing (state : State) (terminal : Symbol) : List Production :=
  let complete := state.filterMap fun item =>
    if item.rest.isEmpty && item.lookaheads.has terminal then some item.production else none
  complete.filter fun p => complete.all fun q => q.level ≤ p.level

/-- The levels of the productions that go on with the terminal. -/
def continuing (state : State) (terminal : Symbol) : List Int :=
  state.filterMap fun item =>
    match item.rest with
    | [] => none
    | expected :: _ =>
      if (a.firstOf expected.symbol).has terminal then some item.production.level else none

/-- Closing a production and reading on exclude each other if precedence tells them apart: the
tighter one wins, and between equals the side on which the complete productions group decides.
Otherwise both are tried. -/
def moves (state : State) (terminal : Symbol) : Moves :=
  let complete := closing state terminal
  let levels := a.continuing state terminal
  match complete, levels with
  | [], _ => ⟨!levels.isEmpty, []⟩
  | _, [] => ⟨false, complete⟩
  | p :: _, _ =>
    let shiftTighter := levels.any (p.level < ·)
    let shiftLooser := levels.any (· < p.level)
    if shiftTighter && !shiftLooser then ⟨true, []⟩
    else if shiftLooser && !shiftTighter then ⟨false, complete⟩
    else if shiftTighter && shiftLooser then ⟨true, complete⟩
    else if complete.all (·.side == some .left) then ⟨false, complete⟩
    else if complete.all (·.side == some .right) then ⟨true, []⟩
    else ⟨true, complete⟩

end

end Automaton

end ClassDiagram.Grammar
