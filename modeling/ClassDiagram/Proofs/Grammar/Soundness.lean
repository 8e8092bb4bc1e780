/-
The reader builds trees of the grammar. A reading is a stack of what has been read; where an item of
its state has come to the end of its production, the topmost symbols are those of the production, so
that closing it makes a phrase of the grammar. The nodes of a reading stand in the order of the text.
Both are kept by every word that is read and by every production that is closed, and so by a whole
run.
-/
import ClassDiagram.Proofs.Grammar.Spans
import Mathlib.Data.List.Forall2

namespace ClassDiagram.Grammar

open ClassDiagram.Text

variable {rules : Kind → List Alternative}

/-! ## What stands on the stack -/

/-- The nodes are what the symbol stands for. -/
structure Reads (rules : Kind → List Alternative) (s : Symbol) (parts : List Tree) : Prop where
  allows : (Rule.symbol s).Allows rules (parts.map Tree.slot)
  ne_nil : parts ≠ []

/-- The symbols of the frames, from left to right, are those of the steps. -/
def Spells (rules : Kind → List Alternative) (steps : List Step) (frames : List Frame) : Prop :=
  List.Forall₂ (fun step frame => Reads rules step.symbol frame.parts) steps frames

/-- The steps that an item has behind it are those of the topmost symbols. -/
def Item.Backed (rules : Kind → List Alternative) (head : Head) (x : Automaton.Item) : Prop :=
  x.production.Sound rules ∧ ∃ done frames below, x.production.steps = done ++ x.rest ∧
    head = frames.reverse ++ below ∧ Spells rules done frames

/-- All items on the stack have their steps behind them. -/
def Head.Grounded (rules : Kind → List Alternative) : Head → Prop
  | [] => True
  | f :: fs => (∀ x ∈ f.state, Item.Backed rules (f :: fs) x) ∧ Grounded rules fs

theorem Head.Grounded.of_append : ∀ {fs gs : Head}, Grounded rules (fs ++ gs) → Grounded rules gs
  | [], _, h => h
  | _ :: _, _, h => of_append h.2

theorem Head.nodes_cons (f : Frame) (fs : Head) : Head.nodes (f :: fs) = Head.nodes fs ++ f.parts := by
  simp [Head.nodes]

theorem Head.nodes_append (fs gs : Head) : Head.nodes (fs ++ gs) = Head.nodes gs ++ Head.nodes fs := by
  simp [Head.nodes]

/-- A reading whose items have their steps behind them and whose nodes stand in order before a position. -/
structure Head.Sound (rules : Kind → List Alternative) (offset : Nat) (head : Head) : Prop where
  grounded : Head.Grounded rules head
  ordered : Tree.InOrder 0 head.nodes offset
  built : ∀ t ∈ head.nodes, t.Built rules

section
variable (hrules : WellMade rules)
include hrules

theorem Head.Grounded.push {s : Symbol} {top base : Frame} {fs : Head} (h : Head.Grounded rules (base :: fs))
    (hstate : top.state = (Automaton.ofRules rules).next base.state s)
    (hreads : s ≠ .finish → Reads rules s top.parts) : Head.Grounded rules (top :: base :: fs) := by
  refine ⟨fun x hx => ?_, h⟩
  -- the end of the text is no step of a production
  have hread : ∀ {step : Step}, step.symbol = s → step ∈ x.production.steps → x.production.Sound rules →
      Reads rules step.symbol top.parts := by
    rintro step rfl hstep hsound
    refine hreads fun hend => ?_
    have hshows := hsound.shows step hstep
    rw [hend] at hshows
    cases hshows
  rw [hstate] at hx
  rcases Automaton.mem_next hrules hx with ⟨item, hitem, expected, hrest, hs, hp⟩ | ⟨hsound, first, hsteps, hs⟩
  · obtain ⟨hsound, done, frames, below, hdone, hhead, hspells⟩ := h.1 item hitem
    rw [← hp] at hsound hdone
    rw [hrest] at hdone
    refine ⟨hsound, done ++ [expected], frames ++ [top], below, ?_, ?_, ?_⟩
    · rw [hdone, List.append_assoc, List.singleton_append]
    · rw [List.reverse_append, List.append_assoc, ← hhead]
      rfl
    · exact List.rel_append hspells (.cons (hread hs (by rw [hdone]; simp) hsound) .nil)
  · have hfirst := hread hs (by rw [hsteps]; exact List.mem_cons_self ..) hsound
    exact ⟨hsound, [first], [top], base :: fs, hsteps, rfl, .cons hfirst .nil⟩

theorem Head.Sound.push {s : Symbol} {top base : Frame} {fs : Head} {offset stop : Nat}
    (h : Head.Sound rules offset (base :: fs)) (hstate : top.state = (Automaton.ofRules rules).next base.state s)
    (hreads : s ≠ .finish → Reads rules s top.parts) (hparts : Tree.InOrder offset top.parts stop)
    (hbuilt : ∀ t ∈ top.parts, t.Built rules) : Head.Sound rules stop (top :: base :: fs) := by
  refine ⟨h.grounded.push hrules hstate hreads, ?_, fun t ht => ?_⟩
  · rw [nodes_cons]
    exact Tree.inOrder_append_iff.2 ⟨offset, h.ordered, hparts⟩
  · rw [nodes_cons] at ht
    rcases List.mem_append.1 ht with ht | ht
    · exact h.built t ht
    · exact hbuilt t ht

end

/-! ## Closing a production -/

/-- The parts of the frames as the steps show them. -/
def dressed (frames : List Frame) (steps : List Step) : List Tree :=
  (frames.zip steps).flatMap fun (frame, step) => frame.parts.map step.dress

theorem stepsAllow_dressed {steps : List Step} {frames : List Frame} (h : Spells rules steps frames) :
    StepsAllow rules steps ((dressed frames steps).map Tree.slot) := by
  induction h with
  | nil => exact .nil
  | @cons step frame steps frames hread _ ih =>
    have hslots : (frame.parts.map step.dress).map Tree.slot = (frame.parts.map Tree.slot).map step.dressSlot := by
      rw [List.map_map, List.map_map]
      exact List.map_congr_left fun t _ => step.slot_dress t
    show StepsAllow rules (step :: steps) ((frame.parts.map step.dress ++ dressed frames steps).map Tree.slot)
    rw [List.map_append, hslots]
    exact .cons hread.allows ih

theorem Step.span_dress (step : Step) (t : Tree) : (step.dress t).span = t.span := by
  obtain ⟨symbol, role, shown⟩ := step
  obtain ⟨r, l, s, cs⟩ := t
  cases role <;> cases shown <;> rfl

theorem map_span_dressed {steps : List Step} {frames : List Frame} (h : Spells rules steps frames) :
    (dressed frames steps).map Tree.span = (frames.flatMap (·.parts)).map Tree.span := by
  induction h with
  | nil => rfl
  | @cons step frame steps frames _ _ ih =>
    show (frame.parts.map step.dress ++ dressed frames steps).map Tree.span = _
    rw [List.map_append, List.flatMap_cons, List.map_append, ih, List.map_map]
    congr 1
    exact List.map_congr_left fun t _ => step.span_dress t

theorem built_of_mem_dressed {steps : List Step} {frames : List Frame} (h : Spells rules steps frames)
    (hshows : ∀ step ∈ steps, step.symbol.showsAs rules step.shown = true)
    (hbuilt : ∀ t ∈ frames.flatMap (·.parts), t.Built rules) : ∀ t ∈ dressed frames steps, t.Built rules := by
  intro t ht
  obtain ⟨⟨frame, step⟩, hmem, ht⟩ := List.mem_flatMap.1 ht
  obtain ⟨u, hu, rfl⟩ := List.mem_map.1 ht
  obtain ⟨hframe, hstep⟩ := List.of_mem_zip hmem
  have hread : Reads rules step.symbol frame.parts := List.forall₂_zip (List.Forall₂.flip h) hmem
  exact (hbuilt u (List.mem_flatMap.2 ⟨frame, hframe, hu⟩)).dress (hshows step hstep) hread.allows hu

theorem dressed_ne_nil {steps : List Step} {frames : List Frame} (h : Spells rules steps frames)
    (hne : steps ≠ []) : dressed frames steps ≠ [] := by
  cases h with
  | nil => exact absurd rfl hne
  | cons hread _ =>
    intro hnil
    rw [dressed, List.zip_cons_cons, List.flatMap_cons, List.append_eq_nil_iff, List.map_eq_nil_iff] at hnil
    exact hread.ne_nil hnil.1

/-- What a complete production makes: its parts, or its one word shown as the phrase, or a phrase of them. -/
theorem Production.Sound.assemble_cases {p : Production} {frames : List Frame} (hp : p.Sound rules)
    (h : Spells rules p.steps frames) :
    (p.head.isHidden = true ∧ p.assemble (dressed frames p.steps) = dressed frames p.steps) ∨
    (p.head.isHidden = false ∧ p.head.isKeyword = true ∧ ∃ t w, dressed frames p.steps = [t] ∧
      t.slot = ⟨none, .word w⟩ ∧ p.assemble (dressed frames p.steps) = [t.shownAs p.head]) ∨
    (p.head.isHidden = false ∧ p.head.isKeyword = false ∧
      p.assemble (dressed frames p.steps) = [Tree.phrase p.head (dressed frames p.steps)]) := by
  unfold Production.assemble
  cases hhidden : p.head.isHidden with
  | true => exact .inl ⟨rfl, rfl⟩
  | false =>
    right
    cases hkeyword : p.head.isKeyword with
    | false => exact .inr ⟨rfl, rfl, rfl⟩
    | true =>
      obtain ⟨w, hsteps⟩ := hp.keyword hkeyword
      have hrow := stepsAllow_dressed h
      rw [hsteps] at hrow ⊢
      generalize hparts : dressed frames _ = parts at hrow ⊢
      generalize hslots : parts.map Tree.slot = row at hrow
      cases hrow with
      | cons hword hnil =>
        cases hword
        cases hnil
        obtain ⟨t, rfl, hslot⟩ := List.map_eq_singleton_iff.1 hslots
        exact .inl ⟨rfl, rfl, t, w, rfl, hslot, rfl⟩

theorem Tree.slot_shownAs (k : Kind) (t : Tree) : (t.shownAs k).slot = t.slot.shownAs k := by
  cases t
  rfl

theorem Tree.span_shownAs (k : Kind) (t : Tree) : (t.shownAs k).span = t.span := by
  cases t
  rfl

/-- A complete production makes what its phrase stands for. -/
theorem Production.Sound.reads_assemble {p : Production} {frames : List Frame} (hp : p.Sound rules)
    (h : Spells rules p.steps frames) : Reads rules (.kind p.head) (p.assemble (dressed frames p.steps)) := by
  rcases hp.assemble_cases h with ⟨hhidden, hmade⟩ | ⟨hhidden, -, t, w, -, hslot, hmade⟩ | ⟨hhidden, -, hmade⟩
  · obtain ⟨a, ha, hrow⟩ := hp.allows (stepsAllow_dressed h)
    rw [hmade]
    exact ⟨.hidden hhidden ha hrow, dressed_ne_nil h hp.steps_ne_nil⟩
  · rw [hmade]
    refine ⟨?_, List.cons_ne_nil _ _⟩
    rw [List.map_singleton, Tree.slot_shownAs, hslot]
    exact .kind hhidden
  · rw [hmade]
    exact ⟨.kind hhidden, List.cons_ne_nil _ _⟩

theorem Production.Sound.inOrder_assemble {p : Production} {frames : List Frame} {a b : Nat} (hp : p.Sound rules)
    (h : Spells rules p.steps frames) (horder : Tree.InOrder a (frames.flatMap (·.parts)) b) :
    Tree.InOrder a (p.assemble (dressed frames p.steps)) b := by
  have hdressed : Tree.InOrder a (dressed frames p.steps) b := Tree.inOrder_congr (map_span_dressed h).symm horder
  rcases hp.assemble_cases h with ⟨-, hmade⟩ | ⟨-, -, t, w, hparts, -, hmade⟩ | ⟨-, -, hmade⟩
  · rw [hmade]
    exact hdressed
  · rw [hmade]
    rw [hparts] at hdressed
    exact Tree.inOrder_congr (by rw [List.map_singleton, List.map_singleton, Tree.span_shownAs]) hdressed
  · rw [hmade]
    exact (Tree.covers_phrase p.head (dressed_ne_nil h hp.steps_ne_nil) hdressed).2

theorem Production.Sound.built_assemble {p : Production} {frames : List Frame} {a b : Nat} (hp : p.Sound rules)
    (h : Spells rules p.steps frames) (horder : Tree.InOrder a (frames.flatMap (·.parts)) b)
    (hbuilt : ∀ t ∈ frames.flatMap (·.parts), t.Built rules) :
    ∀ t ∈ p.assemble (dressed frames p.steps), t.Built rules := by
  have hdressed := built_of_mem_dressed h hp.shows hbuilt
  rcases hp.assemble_cases h with ⟨-, hmade⟩ | ⟨-, hkeyword, t, w, hparts, hslot, hmade⟩ | ⟨-, hkeyword, hmade⟩
  · rw [hmade]
    exact hdressed
  · rw [hmade]
    intro u hu
    rw [List.mem_singleton.1 hu]
    have ht := hdressed t (by rw [hparts]; exact List.mem_singleton_self t)
    have hlabel : t.label = .word w := congrArg Slot.label hslot
    exact ht.shownAs (Bool.or_eq_true_iff.2 (.inl hkeyword)) (ht.children_eq_nil (s := .word w) rfl hlabel)
  · rw [hmade]
    intro t ht
    rw [List.mem_singleton.1 ht]
    obtain ⟨alternative, ha, hrow⟩ := hp.allows (stepsAllow_dressed h)
    have hleaf : p.head.isLeaf rules = false := by
      rw [Kind.isLeaf, hkeyword, Bool.false_or, List.isEmpty_eq_false_iff]
      exact List.ne_nil_of_mem ha
    have horder := Tree.inOrder_congr (map_span_dressed h).symm horder
    exact .phrase hleaf ha hrow (Tree.covers_phrase p.head (dressed_ne_nil h hp.steps_ne_nil) horder).1 hdressed

/-- Closing a production puts what it makes in the place of the topmost frames. -/
theorem Automaton.close_append (a : Automaton) {p : Production} {frames : List Frame} (below : Head)
    (hlength : frames.length = p.steps.length) : ∃ top : Frame, a.close p (frames.reverse ++ below) = top :: below ∧
      top.parts = p.assemble (dressed frames p.steps) ∧ (below = [] → top.state = []) ∧
      ∀ base rest, below = base :: rest → top.state = a.next base.state (.kind p.head) := by
  have htake : (frames.reverse ++ below).take p.steps.length = frames.reverse := by
    rw [← hlength, ← List.length_reverse, List.take_left]
  have hdrop : (frames.reverse ++ below).drop p.steps.length = below := by
    rw [← hlength, ← List.length_reverse, List.drop_left]
  unfold close
  simp only [htake, hdrop, List.reverse_reverse]
  refine ⟨_, rfl, rfl, ?_, ?_⟩
  · rintro rfl
    rfl
  · rintro base rest rfl
    rfl

theorem Head.Sound.close (hrules : WellMade rules) {p : Production} {top : Frame} {fs : Head} {x : Automaton.Item}
    {offset : Nat} (h : Head.Sound rules offset (top :: fs)) (hx : x ∈ top.state) (hp : x.production = p)
    (hrest : x.rest = []) : Head.Sound rules offset ((Automaton.ofRules rules).close p (top :: fs)) := by
  obtain ⟨hsound, done, frames, below, hdone, hhead, hspells⟩ := h.grounded.1 x hx
  rw [hrest, List.append_nil, hp] at hdone
  subst hdone
  rw [hp] at hsound
  obtain ⟨hgrounded, hordered, hbuilt⟩ := h
  have hframes : Head.nodes frames.reverse = frames.flatMap (·.parts) := by rw [Head.nodes, List.reverse_reverse]
  rw [hhead, Head.nodes_append, hframes] at hordered hbuilt
  obtain ⟨m, hbelow, hparts⟩ := Tree.inOrder_append_iff.1 hordered
  have hpart := hsound.inOrder_assemble hspells hparts
  have hpartBuilt := hsound.built_assemble hspells hparts fun t ht => hbuilt t (List.mem_append_right _ ht)
  obtain ⟨made, hclose, hmade, hnil, hcons⟩ :=
    (Automaton.ofRules rules).close_append below hspells.length_eq.symm
  rw [hhead, hclose]
  rw [← hmade] at hpart hpartBuilt
  cases below with
  | nil =>
    refine ⟨⟨?_, trivial⟩, ?_, ?_⟩
    · rw [hnil rfl]
      exact List.forall_mem_nil _
    · rw [Head.nodes_cons]
      exact hpart.mono (Nat.zero_le m) (Nat.le_refl offset)
    · rw [Head.nodes_cons]
      exact hpartBuilt
  | cons base rest =>
    have hdown : Head.Sound rules m (base :: rest) :=
      ⟨.of_append (hhead ▸ hgrounded), hbelow, fun t ht => hbuilt t (List.mem_append_left _ ht)⟩
    exact hdown.push hrules (hcons base rest rfl) (fun _ => hmade ▸ hsound.reads_assemble hspells) hpart hpartBuilt

/-! ## Reading a word -/

namespace Lexeme

/-- The symbols that are found in a text. -/
def IsScanned (s : Symbol) : Prop := (∃ w, s = .word w) ∨ ∃ k ∈ scannedKinds, s = .kind k

theorem mem_of_longestOf : ∀ {candidates : List (Symbol × Nat)} {x : Symbol × Nat},
    longestOf candidates = some x → x ∈ candidates
  | (t, n) :: rest, x, h => by
    rw [longestOf] at h
    split at h
    · next u m hrest =>
      split at h
      · cases h
        exact List.mem_cons_of_mem _ (mem_of_longestOf hrest)
      · cases h
        exact List.mem_cons_self ..
    · cases h
      exact List.mem_cons_self ..

theorem isScanned_of_mem_candidates {expected : SymbolSet} {text : List Char} {x : Symbol × Nat}
    (h : x ∈ candidates expected text) : IsScanned x.1 := by
  have hspelled : ∀ {y : Symbol × List Char}, y ∈ marks ∨ y ∈ keywords → IsScanned y.1 := by
    rintro y (hy | hy)
    all_goals
      obtain ⟨w, -, rfl⟩ := List.mem_map.1 (List.mem_filter.1 hy).1
      exact .inl ⟨w, rfl⟩
  have hclasses : ∀ y ∈ wordClasses, ∃ k ∈ scannedKinds, y.1 = .kind k := by
    intro y hy
    obtain ⟨k, hk, rfl⟩ := List.mem_map.1 hy
    exact ⟨k, List.mem_cons_of_mem Kind.identifier hk, rfl⟩
  rcases List.mem_append.1 h with h | h
  · rcases List.mem_append.1 h with h | h
    · obtain ⟨⟨t, spelling⟩, hy, h⟩ := List.mem_filterMap.1 h
      dsimp only at h
      split at h
      · cases h
        exact hspelled (.inl hy)
      · cases h
    · unfold wordAt at h
      split at h
      · cases h
      · dsimp only at h
        split at h
        · next t spelling hfind =>
          rw [List.mem_singleton.1 h]
          exact hspelled (.inr (List.mem_of_find?_eq_some hfind))
        · split at h
          · rw [List.mem_singleton.1 h]
            exact .inr ⟨.identifier, by decide, rfl⟩
          · cases h
  · obtain ⟨⟨t, pattern⟩, hy, h⟩ := List.mem_filterMap.1 h
    dsimp only at h
    split at h
    · obtain ⟨n, -, rfl⟩ := Option.map_eq_some_iff.1 h
      exact .inr (hclasses _ hy)
    · cases h

/-- A word is found at or after the position, and it is one of those that texts have, unless the text ends. -/
theorem scan_spec {expected : SymbolSet} {offset : Nat} {text : List Char} {lexeme : Lexeme}
    (h : scan expected offset text = some lexeme) : offset ≤ lexeme.span.start ∧
      lexeme.span.start ≤ lexeme.span.stop ∧ (lexeme.terminal ≠ .finish → IsScanned lexeme.terminal) := by
  unfold scan at h
  dsimp only at h
  split at h
  · split at h
    · cases h
      exact ⟨Nat.le_add_right .., Nat.le_refl _, fun hfinish => absurd rfl hfinish⟩
    · cases h
  · obtain ⟨⟨t, n⟩, hlongest, rfl⟩ := Option.map_eq_some_iff.1 h
    exact ⟨Nat.le_add_right .., Nat.le_add_right .., fun _ => isScanned_of_mem_candidates (mem_of_longestOf hlongest)⟩

end Lexeme

section
variable (hrules : WellMade rules)
include hrules

theorem Lexeme.reads_leaf {s : Symbol} (h : Lexeme.IsScanned s) (span : Span) :
    Reads rules s [Tree.leaf s.label span] := by
  rcases h with ⟨w, rfl⟩ | ⟨k, hk, rfl⟩
  · exact ⟨.word w, nofun⟩
  · exact ⟨.kind (hrules.scanned k hk).2, nofun⟩

theorem Lexeme.built_leaf {s : Symbol} (h : s ≠ .finish → Lexeme.IsScanned s) (span : Span) :
    (Tree.leaf s.label span).Built rules := by
  refine .word ?_
  cases s with
  | word w => rfl
  | finish => rfl
  | kind k =>
    rcases h nofun with ⟨w, hw⟩ | ⟨j, hj, hk⟩
    · cases hw
    · cases hk
      exact Bool.or_eq_true_iff.2 (.inr (hrules.scanned k hj).1)

omit hrules in
theorem Head.Sound.mono {head : Head} {a b : Nat} (h : Head.Sound rules a head) (hab : a ≤ b) :
    Head.Sound rules b head :=
  ⟨h.grounded, h.ordered.mono (Nat.le_refl 0) hab, h.built⟩

/-- A word keeps a reading sound, whatever has to be closed before it. -/
theorem Head.Sound.advance {terminal : Symbol} {node : Tree} {offset : Nat}
    (hstart : offset ≤ node.span.start) (hstop : node.span.start ≤ node.span.stop) (hbuilt : node.Built rules)
    (hreads : terminal ≠ .finish → Reads rules terminal [node]) : ∀ (bound : Nat) {head after : Head},
    Head.Sound rules offset head → after ∈ (Automaton.ofRules rules).advance terminal node bound head →
    Head.Sound rules node.span.stop after
  | 0, head, after, _, hafter => by cases hafter
  | _ + 1, [], after, _, hafter => by cases hafter
  | bound + 1, top :: below, after, h, hafter => by
    rw [Automaton.advance] at hafter
    rcases List.mem_append.1 hafter with hafter | hafter
    · split at hafter
      · rw [List.mem_singleton.1 hafter]
        exact h.push hrules rfl hreads ⟨hstart, hstop, Nat.le_refl _⟩ (by simpa using hbuilt)
      · cases hafter
    · obtain ⟨p, hp, hafter⟩ := List.mem_flatMap.1 hafter
      obtain ⟨x, hx, hprod, hrest⟩ := Automaton.exists_of_mem_reduce hp
      have hclosed := h.close hrules hx hprod hrest
      dsimp only at hafter
      split at hafter
      · rw [List.mem_singleton.1 hafter]
        exact hclosed.mono (Nat.le_trans hstart hstop)
      · exact advance hstart hstop hbuilt hreads bound hclosed hafter

theorem Head.Sound.follow {offset : Nat} {text : List Char} {head : Head} {lexeme : Lexeme} {heads : List Head}
    (h : Head.Sound rules offset head)
    (hfollow : (Automaton.ofRules rules).follow offset text head = some (lexeme, heads)) :
    ∀ after ∈ heads, Head.Sound rules lexeme.span.stop after := by
  cases head with
  | nil => cases hfollow
  | cons top below =>
    obtain ⟨found, hscan, hfound⟩ := Option.map_eq_some_iff.1 hfollow
    cases hfound
    obtain ⟨hstart, hstop, hscanned⟩ := Lexeme.scan_spec hscan
    intro after hafter
    refine Head.Sound.advance hrules ?_ ?_ (Lexeme.built_leaf hrules hscanned lexeme.span)
      (fun hfinish => Lexeme.reads_leaf hrules (hscanned hfinish) _) _ h hafter
    · exact hstart
    · exact hstop

end

/-! ## A whole run -/

theorem Head.prefer_eq (g h : Head) : Head.prefer g h = g ∨ Head.prefer g h = h := by
  unfold Head.prefer
  split_ifs
  · exact .inr rfl
  · exact .inl rfl
  · split
    · exact .inr rfl
    · exact .inl rfl

theorem Head.mem_of_mem_join {g h : Head} : ∀ {hs : List Head}, g ∈ Head.join h hs → g = h ∨ g ∈ hs
  | [], hg => .inl (List.mem_singleton.1 hg)
  | k :: ks, hg => by
    rw [Head.join] at hg
    split at hg
    · rcases List.mem_cons.1 hg with rfl | hg
      · rcases Head.prefer_eq k h with heq | heq
        · rw [heq]
          exact .inr (List.mem_cons_self ..)
        · exact .inl heq
      · exact .inr (List.mem_cons_of_mem k hg)
    · rcases List.mem_cons.1 hg with rfl | hg
      · exact .inr (List.mem_cons_self ..)
      · rcases mem_of_mem_join hg with hg | hg
        · exact .inl hg
        · exact .inr (List.mem_cons_of_mem k hg)

theorem Head.foldl_prefer_mem : ∀ (hs : List Head) (h : Head), hs.foldl Head.prefer h ∈ h :: hs
  | [], h => List.mem_singleton_self h
  | g :: hs, h => by
    rw [List.foldl_cons]
    rcases List.mem_cons.1 (foldl_prefer_mem hs (Head.prefer h g)) with heq | hmem
    · rw [heq]
      rcases Head.prefer_eq h g with heq | heq <;> rw [heq] <;> simp
    · exact List.mem_cons_of_mem h (List.mem_cons_of_mem g hmem)

/-- All readings that have come to a front are sound. -/
def Front.Sound (rules : Kind → List Alternative) (f : Front) : Prop := ∀ h ∈ f.heads, Head.Sound rules f.offset h

theorem Front.sound_enqueue {offset : Nat} {rest : List Char} {head : Head} (h : Head.Sound rules offset head) :
    ∀ {fs : List Front}, (∀ f ∈ fs, f.Sound rules) → ∀ f ∈ Front.enqueue offset rest head fs, f.Sound rules
  | [], _, f, hf => by
    rw [List.mem_singleton.1 hf]
    intro g hg
    rw [List.mem_singleton.1 hg]
    exact h
  | g :: gs, hgs, f, hf => by
    rw [Front.enqueue] at hf
    split_ifs at hf with heq hlt
    · rcases List.mem_cons.1 hf with rfl | hf
      · intro k hk
        rcases Head.mem_of_mem_join hk with rfl | hk
        · exact (beq_iff_eq.1 heq) ▸ h
        · exact hgs g (List.mem_cons_self ..) k hk
      · exact hgs f (List.mem_cons_of_mem g hf)
    · rcases List.mem_cons.1 hf with rfl | hf
      · intro k hk
        rw [List.mem_singleton.1 hk]
        exact h
      · exact hgs f hf
    · rcases List.mem_cons.1 hf with rfl | hf
      · exact hgs f (List.mem_cons_self ..)
      · exact sound_enqueue h (fun k hk => hgs k (List.mem_cons_of_mem g hk)) f hf

/-- What a run reads to the end is a sound reading. -/
theorem exists_sound_of_run (hrules : WellMade rules) : ∀ (fuel : Nat) {queue passed : List Front} {head : Head},
    (∀ f ∈ queue, f.Sound rules) → (Automaton.ofRules rules).run fuel queue passed = .complete head →
    ∃ offset, Head.Sound rules offset head
  | 0, _, _, _, _, hrun => by cases hrun
  | _ + 1, [], _, _, _, hrun => by cases hrun
  | fuel + 1, front :: queue, passed, head, hqueue, hrun => by
    have hfollowed : ∀ x ∈ front.heads.filterMap ((Automaton.ofRules rules).follow front.offset front.rest),
        ∀ after ∈ x.2, Head.Sound rules x.1.span.stop after := by
      rintro ⟨lexeme, heads⟩ hx
      obtain ⟨h, hh, hfollow⟩ := List.mem_filterMap.1 hx
      exact (hqueue front (List.mem_cons_self ..) h hh).follow hrules hfollow
    rw [Automaton.run] at hrun
    dsimp only at hrun
    split at hrun
    · next first others hcomplete =>
      cases hrun
      have hmem := Head.foldl_prefer_mem others first
      rw [← hcomplete] at hmem
      obtain ⟨⟨lexeme, heads⟩, hx, hmem⟩ := List.mem_flatMap.1 hmem
      dsimp only at hmem
      split at hmem
      · exact ⟨_, hfollowed _ hx _ hmem⟩
      · cases hmem
    · refine exists_sound_of_run hrules fuel ?_ hrun
      refine List.foldlRecOn (motive := fun queue => ∀ f ∈ queue, Front.Sound rules f) _ _
        (fun f hf => hqueue f (List.mem_cons_of_mem front hf)) fun queue hqueue x hx => ?_
      exact List.foldlRecOn (motive := fun queue => ∀ f ∈ queue, Front.Sound rules f) x.2 _ hqueue
        fun queue hqueue h hh => Front.sound_enqueue (hfollowed x hx h hh) hqueue

/-- The tree of a text that is read to its end has been built after the grammar. -/
theorem exists_sound_of_read (hrules : WellMade rules) {text : List Char} {head : Head}
    (h : (Automaton.ofRules rules).read text = .complete head) : ∃ offset, Head.Sound rules offset head := by
  have hnothing : ∀ offset, Head.Sound rules offset (Automaton.ofRules rules).nothing := by
    intro offset
    refine ⟨⟨fun x hx => ?_, trivial⟩, Nat.zero_le offset, List.forall_mem_nil _⟩
    obtain ⟨hsound, hrest⟩ := Automaton.sound_of_mem_start hrules hx
    exact ⟨hsound, [], [], _, hrest.symm, rfl, .nil⟩
  refine exists_sound_of_run hrules _ (fun f hf => ?_) h
  rw [List.mem_singleton.1 hf]
  unfold Automaton.before
  split
  · split
    all_goals
      intro g hg
      rw [List.mem_singleton.1 hg]
      exact hnothing _
  · intro g hg
    rw [List.mem_singleton.1 hg]
    exact hnothing _

end ClassDiagram.Grammar
