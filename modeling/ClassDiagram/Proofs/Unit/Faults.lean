/-
Why a source is not read. A tree with an error or a missing word in it is malformed; any other tree that
is not read lacks the node of a name, a type or a declarator. There are no other reasons. What is reported of
a malformed source is the place of its first fault: the search passes over the subtrees without one, and yet
finds the node that a walk over all nodes would come upon first.
-/
import ClassDiagram.Proofs.Unit.Reading

namespace ClassDiagram

open ClassDiagram.Grammar ClassDiagram.Text

/-! ## The first fault of a tree -/

namespace Grammar.Tree

/-- Whether a node is an error or a missing word itself. -/
def isFault (t : Tree) : Bool :=
  match t.label with
  | .error => true
  | .missing _ => true
  | .kind _ => false
  | .word _ => false

theorem isFault_node (r : Option Role) (l : Label) (s : Span) (cs : List Tree) :
    (node r l s cs).isFault = l.isFault := by
  cases l with
  | kind k => rfl
  | word w => rfl
  | error => rfl
  | missing symbol => rfl

mutual

/-- A tree has a fault if one of its nodes is a fault. -/
theorem hasFault_eq_any : ∀ t : Tree, t.hasFault = t.nodes.any isFault
  | .node r l s cs => by rw [hasFault, nodes, List.any_cons, isFault_node, anyFault_eq_any_nodesOf cs]

theorem anyFault_eq_any_nodesOf : ∀ cs : List Tree, anyFault cs = (nodesOf cs).any isFault
  | [] => rfl
  | c :: cs => by rw [anyFault, nodesOf, List.any_append, hasFault_eq_any c, anyFault_eq_any_nodesOf cs]

end

theorem hasFault_iff {t : Tree} : t.hasFault = true ↔ ∃ n ∈ t.nodes, n.isFault = true := by
  rw [hasFault_eq_any, List.any_eq_true]

mutual

/-- The search that looks only into subtrees with a fault finds the first fault of the walk over all nodes. -/
theorem firstFault?_eq_find? : ∀ t : Tree, t.firstFault? = t.nodes.find? isFault
  | .node r l s cs => by
    rw [firstFault?, nodes, List.find?_cons, firstFaultIn?_eq_find? cs, isFault_node]
    cases l.isFault with
    | true => rfl
    | false =>
      cases hany : anyFault cs with
      | true => rfl
      | false =>
        -- the children are passed over, and the walk finds nothing among their nodes
        rw [anyFault_eq_any_nodesOf] at hany
        exact (List.find?_eq_none.2 (List.any_eq_false.1 hany)).symm

theorem firstFaultIn?_eq_find? : ∀ cs : List Tree, firstFaultIn? cs = (nodesOf cs).find? isFault
  | [] => rfl
  | c :: cs => by
    rw [firstFaultIn?, nodesOf, List.find?_append, firstFault?_eq_find? c, firstFaultIn?_eq_find? cs,
      Option.orElse_eq_orElse, Option.orElse_eq_or]

end

theorem isSome_firstFault? (t : Tree) : t.firstFault?.isSome = t.hasFault := by
  rw [firstFault?_eq_find?, hasFault_eq_any, List.isSome_find?]

theorem firstFault?_eq_none_iff {t : Tree} : t.firstFault? = none ↔ ∀ n ∈ t.nodes, n.isFault = false := by
  rw [firstFault?_eq_find?, List.find?_eq_none]
  simp only [Bool.not_eq_true]

/-- The first fault has none before it in the walk. -/
theorem firstFault?_eq_some_iff {t n : Tree} : t.firstFault? = some n ↔
    ∃ before after, t.nodes = before ++ n :: after ∧ n.isFault = true ∧ ∀ m ∈ before, m.isFault = false := by
  rw [firstFault?_eq_find?, List.find?_eq_some_iff_append]
  constructor
  · rintro ⟨hn, before, after, hnodes, hbefore⟩
    exact ⟨before, after, hnodes, hn, fun m hm => by simpa using hbefore m hm⟩
  · rintro ⟨before, after, hnodes, hn, hbefore⟩
    exact ⟨hn, before, after, hnodes, fun m hm => by simpa using hbefore m hm⟩

end Grammar.Tree

/-! ## Lines and columns -/

namespace Text

/-- How people are told of a position: the line is one more than the number of line feeds before it, and
the column one more than the number of bytes between the last of them, or else the beginning, and it. -/
structure IsAt (text : List Char) (position line column : Nat) : Prop where
  line_eq : line = 1 + (text.take position).count '\n'
  column_eq : ∃ lines rest, text.take position = lines ++ rest ∧
    (lines = [] ∨ ∃ earlier, lines = earlier ++ ['\n']) ∧ '\n' ∉ rest ∧
    column = 1 + (String.ofList rest).utf8ByteSize

theorem byteLength_eq (cs : List Char) : byteLength cs = (String.ofList cs).utf8ByteSize := by
  induction cs with
  | nil => rfl
  | cons c cs ih =>
    rw [byteLength, ih, String.ofList_cons, String.utf8ByteSize_append, String.utf8ByteSize_singleton]

theorem byteLength_append (cs ds : List Char) : byteLength (cs ++ ds) = byteLength cs + byteLength ds := by
  rw [byteLength_eq, byteLength_eq, byteLength_eq, String.ofList_append, String.utf8ByteSize_append]

theorem byteLength_reverse (cs : List Char) : byteLength cs.reverse = byteLength cs := by
  induction cs with
  | nil => rfl
  | cons c cs ih =>
    rw [List.reverse_cons, byteLength_append, ih, byteLength, byteLength, byteLength, Nat.add_zero, Nat.add_comm]

/-- The last line of a text, read backwards. -/
theorem takeWhile_reverse {lines rest : List Char} (hlines : lines = [] ∨ ∃ earlier, lines = earlier ++ ['\n'])
    (hrest : '\n' ∉ rest) : (lines ++ rest).reverse.takeWhile (· != '\n') = rest.reverse := by
  have hinside : ∀ c ∈ rest.reverse, (c != '\n') = true := by
    intro c hc
    rw [List.mem_reverse] at hc
    rw [bne_iff_ne]
    rintro rfl
    exact hrest hc
  rw [List.reverse_append, List.takeWhile_append_of_pos hinside]
  rcases hlines with rfl | ⟨earlier, rfl⟩
  · simp
  · simp

theorem exists_lines (cs : List Char) : ∃ lines rest, cs = lines ++ rest ∧
    (lines = [] ∨ ∃ earlier, lines = earlier ++ ['\n']) ∧ '\n' ∉ rest := by
  induction cs with
  | nil => exact ⟨[], [], rfl, .inl rfl, by simp⟩
  | cons c cs ih =>
    obtain ⟨lines, rest, rfl, rfl | ⟨earlier, rfl⟩, hrest⟩ := ih
    · by_cases hc : c = '\n'
      · exact ⟨[c], rest, rfl, .inr ⟨[], by rw [hc]; rfl⟩, hrest⟩
      · exact ⟨[], c :: rest, rfl, .inl rfl, by simpa [eq_comm] using ⟨hc, hrest⟩⟩
    · exact ⟨c :: earlier ++ ['\n'], rest, by simp, .inr ⟨c :: earlier, rfl⟩, hrest⟩

/-- A position has one line and one column, the ones that are reported. -/
theorem isAt_iff {text : List Char} {position line column : Nat} :
    IsAt text position line column ↔ line = lineAt text position ∧ column = columnAt text position := by
  have hcolumn : ∀ {lines rest}, text.take position = lines ++ rest →
      (lines = [] ∨ ∃ earlier, lines = earlier ++ ['\n']) → '\n' ∉ rest →
      columnAt text position = 1 + (String.ofList rest).utf8ByteSize := by
    intro lines rest htake hlines hrest
    rw [columnAt, htake, takeWhile_reverse hlines hrest, byteLength_reverse, byteLength_eq, Nat.add_comm]
  constructor
  · rintro ⟨rfl, lines, rest, htake, hlines, hrest, rfl⟩
    exact ⟨Nat.add_comm .., (hcolumn htake hlines hrest).symm⟩
  · rintro ⟨rfl, rfl⟩
    obtain ⟨lines, rest, htake, hlines, hrest⟩ := exists_lines (text.take position)
    exact ⟨Nat.add_comm .., lines, rest, htake, hlines, hrest, hcolumn htake hlines hrest⟩

end Text

/-! ## Errors of computations -/

section
variable {α β ε : Type} {P : ε → Prop}

/-- The computation succeeds or fails with an error of this sort. -/
def FailsOnly (P : ε → Prop) (x : Except ε α) : Prop := ∀ e, x = .error e → P e

theorem FailsOnly.ok (a : α) : FailsOnly P (.ok a : Except ε α) := nofun

theorem FailsOnly.error {e : ε} (h : P e) : FailsOnly P (.error e : Except ε α) := by
  rintro _ ⟨⟩
  exact h

theorem FailsOnly.bind {x : Except ε α} {f : α → Except ε β} (hx : FailsOnly P x) (hf : ∀ a, FailsOnly P (f a)) :
    FailsOnly P (x >>= f) := by
  intro e he
  cases x with
  | error e' =>
    cases he
    exact hx e rfl
  | ok a => exact hf a e he

theorem FailsOnly.mapM {f : α → Except ε β} : ∀ {xs : List α}, (∀ x ∈ xs, FailsOnly P (f x)) → FailsOnly P (xs.mapM f)
  | [], _ => .ok []
  | x :: xs, h => by
    rw [List.mapM_cons]
    refine (h x (List.mem_cons_self ..)).bind fun y => ?_
    refine FailsOnly.bind (FailsOnly.mapM fun z hz => h z (List.mem_cons_of_mem _ hz)) fun ys => ?_
    exact .ok (y :: ys)

end

/-! ## Reading -/

/-- The tree lacks a node. -/
def Fault.IsLack (f : Fault) : Prop := ∃ lack line, f = .missingNode lack line

section
variable (text : List Char)

theorem failsOnly_fieldOf (t : Tree) : FailsOnly Fault.IsLack (fieldOf text t) := by
  unfold fieldOf
  split
  · exact .error ⟨_, _, rfl⟩
  · dsimp only
    split
    · exact .error ⟨_, _, rfl⟩
    · exact .ok _

theorem failsOnly_methodOf (t : Tree) : FailsOnly Fault.IsLack (methodOf text t) := by
  unfold methodOf
  split
  · exact .error ⟨_, _, rfl⟩
  · exact .ok _

theorem failsOnly_headerOf (kind : DeclarationKind) (t : Tree) : FailsOnly Fault.IsLack (headerOf text kind t) := by
  unfold headerOf
  split
  · exact .error ⟨_, _, rfl⟩
  · exact .ok _

theorem failsOnly_readBody : ∀ {cs : List Tree},
    (∀ c ∈ cs, ∀ kind, FailsOnly Fault.IsLack (declarationOf text kind c)) → FailsOnly Fault.IsLack (readBody text cs)
  | [], _ => by
    rw [readBody]
    exact .ok _
  | c :: cs, h => by
    have hrest := failsOnly_readBody fun d hd => h d (List.mem_cons_of_mem _ hd)
    rw [readBody]
    split
    · exact (failsOnly_fieldOf text c).bind fun field => hrest.bind fun body => .ok _
    · split
      · exact (failsOnly_methodOf text c).bind fun method => hrest.bind fun body => .ok _
      · split
        · exact hrest
        · exact (h c (List.mem_cons_self ..) _).bind fun d => hrest.bind fun body => .ok _

/-- A declaration that is not read lacks a node, or one inside it does. -/
theorem failsOnly_declarationOf (kind : DeclarationKind) (t : Tree) :
    FailsOnly Fault.IsLack (declarationOf text kind t) := by
  have hbody : FailsOnly Fault.IsLack (readBody text (memberNodes t)) :=
    failsOnly_readBody text fun c hc kind => failsOnly_declarationOf kind c
  rw [declarationOf_eq]
  exact (failsOnly_headerOf text kind t).bind fun header => hbody.bind fun body => .ok _
termination_by sizeOf t
decreasing_by exact sizeOf_lt_of_mem_memberNodes hc

theorem failsOnly_declarationsAmong : ∀ cs : List Tree, FailsOnly Fault.IsLack (declarationsAmong text cs)
  | [] => .ok []
  | c :: cs => by
    have hrest := failsOnly_declarationsAmong cs
    rw [declarationsAmong]
    split
    · exact hrest
    · exact (failsOnly_declarationOf text _ c).bind fun d => hrest.bind fun ds => .ok _

end

namespace CompilationUnit

variable {file : String} {text : List Char} {tree : Tree}

/-- Either the first fault is reported, or there is none and the tree is read unless it lacks a node. -/
theorem ofTree_cases (file : String) (text : List Char) (tree : Tree) :
    (∃ n, tree.firstFault? = some n ∧ ofTree file text tree =
      .error (.malformed file (lineAt text n.span.start) (columnAt text n.span.start))) ∨
    (tree.firstFault? = none ∧ FailsOnly Fault.IsLack (ofTree file text tree)) := by
  have hsome := tree.isSome_firstFault?
  unfold ofTree
  cases hfirst : tree.firstFault? with
  | some n =>
    rw [hfirst, Option.isSome_some] at hsome
    exact .inl ⟨n, rfl, by rw [← hsome]; rfl⟩
  | none =>
    rw [hfirst, Option.isSome_none] at hsome
    refine .inr ⟨rfl, ?_⟩
    rw [← hsome]
    exact (failsOnly_declarationsAmong text tree.children).bind fun types => .ok _

/-- A source that is not read is malformed, with the position of its first fault, or else lacks a node. -/
theorem ofTree_eq_error {fault : Fault} (h : ofTree file text tree = .error fault) :
    (∃ line column, fault = .malformed file line column) ∨ fault.IsLack := by
  rcases ofTree_cases file text tree with ⟨n, -, hreport⟩ | ⟨-, hlack⟩
  · rw [hreport] at h
    cases h
    exact .inl ⟨_, _, rfl⟩
  · exact .inr (hlack fault h)

/-- A source is malformed if its tree has a fault, and then the first one is reported. -/
theorem ofTree_eq_malformed_iff {f : String} {line column : Nat} :
    ofTree file text tree = .error (.malformed f line column) ↔
      ∃ n, tree.firstFault? = some n ∧ f = file ∧ IsAt text n.span.start line column := by
  simp only [isAt_iff]
  rcases ofTree_cases file text tree with ⟨n, hn, hreport⟩ | ⟨hnone, hlack⟩
  · rw [hreport, hn]
    constructor
    · rintro ⟨⟩
      exact ⟨n, rfl, rfl, rfl, rfl⟩
    · rintro ⟨_, ⟨⟩, rfl, rfl, rfl⟩
      rfl
  · constructor
    · intro h
      obtain ⟨lack, l, hfault⟩ := hlack _ h
      cases hfault
    · rintro ⟨n, hn, -⟩
      rw [hnone] at hn
      cases hn

/-- A node counts as faulty if it or a node inside it is a fault. The search that follows this finds the first fault
of the walk over all nodes, and none only if there is none; it succeeds on every tree that counts as faulty. So a
source is malformed if a node of its tree is a fault, and the line and column reported are those where the first such
node begins. -/
theorem ofTree_reports_firstFault (file : String) (text : List Char) (tree : Tree) :
    (∀ n ∈ tree.nodes, n.hasFault = true ↔ ∃ m ∈ n.nodes, m.isFault = true) ∧
    tree.firstFault? = tree.nodes.find? Tree.isFault ∧
    (tree.firstFault? = none ↔ ∀ n ∈ tree.nodes, n.isFault = false) ∧
    tree.firstFault?.isSome = tree.hasFault ∧
    ((∃ f line column, ofTree file text tree = .error (.malformed f line column)) ↔
      ∃ n ∈ tree.nodes, n.isFault = true) ∧
    ∀ f line column, ofTree file text tree = .error (.malformed f line column) ↔
      ∃ before n after, tree.nodes = before ++ n :: after ∧ n.isFault = true ∧ (∀ m ∈ before, m.isFault = false) ∧
        f = file ∧ IsAt text n.span.start line column := by
  refine ⟨fun n _ => Tree.hasFault_iff, tree.firstFault?_eq_find?, Tree.firstFault?_eq_none_iff,
    tree.isSome_firstFault?, ?_, fun f line column => ?_⟩
  · rw [← Tree.hasFault_iff, ← tree.isSome_firstFault?, Option.isSome_iff_exists]
    constructor
    · rintro ⟨f, line, column, h⟩
      obtain ⟨n, hn, -⟩ := ofTree_eq_malformed_iff.1 h
      exact ⟨n, hn⟩
    · rintro ⟨n, hn⟩
      exact ⟨file, _, _, ofTree_eq_malformed_iff.2 ⟨n, hn, rfl, isAt_iff.2 ⟨rfl, rfl⟩⟩⟩
  · rw [ofTree_eq_malformed_iff]
    constructor
    · rintro ⟨n, hn, hreport⟩
      obtain ⟨before, after, hnodes, hfault, hbefore⟩ := Tree.firstFault?_eq_some_iff.1 hn
      exact ⟨before, n, after, hnodes, hfault, hbefore, hreport⟩
    · rintro ⟨before, n, after, hnodes, hfault, hbefore, hreport⟩
      exact ⟨n, Tree.firstFault?_eq_some_iff.2 ⟨before, after, hnodes, hfault, hbefore⟩, hreport⟩

end CompilationUnit

end ClassDiagram
