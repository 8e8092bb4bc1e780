/-
Comments put into the tree of a reading. They stand between the words, so each of them comes to lie
between two parts of some phrase and none comes to lie in a word or before the first word of a
phrase. With its comments the tree still conforms to the grammar, its nodes stand in order inside each
other, and a phrase begins where its first word does.
-/
import ClassDiagram.Grammar.Parse
import ClassDiagram.Proofs.Grammar.Parts
import ClassDiagram.Proofs.Grammar.Soundness
import Mathlib.Data.List.TakeWhile

namespace ClassDiagram.Grammar

open ClassDiagram.Text

variable {rules : Kind → List Alternative}

/-! ## Words of a tree -/

namespace Tree

theorem InOrder.flatMap {f : Tree → List Tree} : ∀ {ts : List Tree} {a b : Nat}, InOrder a ts b →
    (∀ t ∈ ts, InOrder t.span.start (f t) t.span.stop) → InOrder a (ts.flatMap f) b
  | [], _, _, h, _ => h
  | t :: ts, a, b, ⟨h, _, hs⟩, hf => by
    rw [List.flatMap_cons]
    refine inOrder_append_iff.2 ⟨t.span.stop, ?_, hs.flatMap fun u hu => hf u (List.mem_cons_of_mem t hu)⟩
    exact (hf t (List.mem_cons_self ..)).mono h (Nat.le_refl _)

theorem Covers.flatMap {s : Span} {cs : List Tree} {f : Tree → List Tree} (h : Covers s cs)
    (hf : ∀ c ∈ cs, Covers c.span (f c)) : Covers s (cs.flatMap f) := by
  obtain ⟨hordered, hfirst, hlast⟩ := h
  refine ⟨hordered.flatMap fun c hc => (hf c hc).ordered, ?_, ?_⟩
  · obtain ⟨c, hc, hstart⟩ := Option.map_eq_some_iff.1 hfirst
    obtain ⟨d, hd, hdstart⟩ := Option.map_eq_some_iff.1 (hf c (List.mem_of_head? hc)).first
    obtain ⟨rest, rfl⟩ := List.head?_eq_some_iff.1 hc
    rw [List.flatMap_cons, List.head?_append, hd]
    exact congrArg some (hdstart.trans hstart)
  · obtain ⟨c, hc, hstop⟩ := Option.map_eq_some_iff.1 hlast
    obtain ⟨d, hd, hdstop⟩ := Option.map_eq_some_iff.1 (hf c (List.mem_of_getLast? hc)).last
    obtain ⟨rest, rfl⟩ := List.getLast?_eq_some_iff.1 hc
    rw [List.flatMap_append, List.flatMap_singleton, List.getLast?_append, hd]
    exact congrArg some (hdstop.trans hstop)

theorem leavesOf_eq_flatMap : ∀ ts : List Tree, leavesOf ts = ts.flatMap leaves
  | [] => rfl
  | t :: ts => by rw [leavesOf, leavesOf_eq_flatMap ts, List.flatMap_cons]

/-- A tree reaches from its first word to its last. -/
theorem Built.covers_leaves {t : Tree} (h : t.Built rules) : t.span.start ≤ t.span.stop → Covers t.span t.leaves := by
  induction h with
  | word => exact fun hle => ⟨⟨Nat.le_refl _, hle, Nat.le_refl _⟩, rfl, rfl⟩
  | @phrase r k s cs a _ _ _ hcovers _ ih =>
    intro _
    have hne : cs ≠ [] := by
      rintro rfl
      cases hcovers.first
    have hleaves : (node r (.kind k) s cs).leaves = cs.flatMap leaves := by
      rw [leaves, if_neg (by simpa using hne), leavesOf_eq_flatMap]
    rw [hleaves]
    exact hcovers.flatMap fun c hc => ih c hc (hcovers.ordered.of_mem hc).2.1

end Tree

/-! ## Comments of a text -/

theorem longestFrom_bounds {p : Pattern} {taken n : Nat} {best : Option Nat} : ∀ {text : List Char},
    p.longestFrom taken best text = some n → best = some n ∨ taken < n ∧ n ≤ taken + text.length := by
  intro text
  induction text generalizing p taken best with
  | nil => exact .inl
  | cons c rest ih =>
    intro h
    rw [Pattern.longestFrom] at h
    split at h
    · exact .inl h
    · rcases ih h with hbest | hbounds
      · split at hbest
        · cases hbest
          exact .inr ⟨Nat.lt_succ_self taken, by rw [List.length_cons]; omega⟩
        · exact .inl hbest
      · rw [List.length_cons]
        exact .inr ⟨by omega, by omega⟩

theorem commentAt_spec {text : List Char} {k : Kind} {n : Nat} (h : commentAt text = some (k, n)) :
    (k = .lineComment ∨ k = .blockComment) ∧ 0 < n ∧ n ≤ text.length := by
  have hlongest : ∀ {p : Pattern}, p.longest? text = some n → 0 < n ∧ n ≤ text.length := by
    intro p hp
    rcases longestFrom_bounds hp with hbest | ⟨hpos, hle⟩
    · cases hbest
    · exact ⟨hpos, by omega⟩
  unfold commentAt at h
  split at h
  · obtain ⟨m, hm, h⟩ := Option.map_eq_some_iff.1 h
    cases h
    exact ⟨.inl rfl, hlongest hm⟩
  · obtain ⟨m, hm, h⟩ := Option.map_eq_some_iff.1 h
    cases h
    exact ⟨.inr rfl, hlongest hm⟩
  · cases h

/-- A comment as it stands in a tree. -/
structure Tree.IsRemark (e : Tree) : Prop where
  isComment : e.isComment = true
  children : e.children = []
  nonempty : e.span.start < e.span.stop

theorem commentsIn_spec : ∀ (bound offset : Nat) (text : List Char),
    Tree.InOrder offset (commentsIn bound offset text) (offset + text.length) ∧
      ∀ e ∈ commentsIn bound offset text, e.IsRemark
  | 0, offset, text => ⟨Nat.le_add_right .., List.forall_mem_nil _⟩
  | bound + 1, offset, text => by
    rw [commentsIn]
    dsimp only
    split
    · exact ⟨Nat.le_add_right .., List.forall_mem_nil _⟩
    · next kind n hcomment =>
      obtain ⟨hkind, hpos, hle⟩ := commentAt_spec hcomment
      rw [List.length_drop] at hle
      obtain ⟨hordered, hremarks⟩ := commentsIn_spec bound
        (offset + (text.takeWhile fun c => !(c == '/')).length + n)
        (text.drop ((text.takeWhile fun c => !(c == '/')).length + n))
      refine ⟨⟨Nat.le_add_right .., Nat.le_add_right .., ?_⟩, ?_⟩
      · refine hordered.mono (Nat.le_refl _) ?_
        rw [List.length_drop]
        omega
      · intro e he
        rcases List.mem_cons.1 he with rfl | he
        · refine ⟨?_, rfl, Nat.lt_add_of_pos_right hpos⟩
          rcases hkind with rfl | rfl <;> rfl
        · exact hremarks e he

namespace Tree

/-- The extras are comments that stand in order between two positions, none of them in a word of the nodes. -/
structure Extras (a : Nat) (es : List Tree) (b : Nat) (words : List Tree) : Prop where
  ordered : InOrder a es b
  remark : ∀ e ∈ es, e.IsRemark
  apart : ∀ e ∈ es, ∀ w ∈ words, e.span.stop ≤ w.span.start ∨ w.span.stop ≤ e.span.start

/-- The comments outside of the words stand between them. -/
theorem extras_commentsOutside {text : List Char} {b : Nat} (hb : text.length ≤ b) : ∀ {words : List Tree} {a : Nat},
    InOrder a words b → Extras a (commentsOutside text a (words.map span)) b words
  | [], a, h => by
    have ha : a ≤ b := h
    obtain ⟨hordered, hremark⟩ := commentsIn_spec text.length a (text.drop a)
    refine ⟨hordered.mono (Nat.le_refl a) ?_, hremark, fun e _ => List.forall_mem_nil _⟩
    rw [List.length_drop]
    omega
  | w :: ws, a, ⟨hstart, hw, hws⟩ => by
    obtain ⟨hordered, hremark⟩ :=
      commentsIn_spec (w.span.start - a) a ((text.drop a).take (w.span.start - a))
    have hordered := hordered.mono (Nat.le_refl a) (show _ ≤ w.span.start by
      rw [List.length_take]
      omega)
    have hrest := extras_commentsOutside hb hws
    rw [List.map_cons, commentsOutside]
    refine ⟨inOrder_append_iff.2 ⟨w.span.start, hordered, hrest.ordered.mono hw (Nat.le_refl b)⟩, ?_, ?_⟩
    · intro e he
      rcases List.mem_append.1 he with he | he
      · exact hremark e he
      · exact hrest.remark e he
    · intro e he v hv
      rcases List.mem_append.1 he with he | he
      · have hstop := (hordered.of_mem he).2.2
        rcases List.mem_cons.1 hv with rfl | hv
        · exact .inl hstop
        · have hv := (hws.of_mem hv).1
          exact .inl (by omega)
      · rcases List.mem_cons.1 hv with rfl | hv
        · exact .inr (hrest.ordered.of_mem he).1
        · exact hrest.apart e he v hv

/-! ## Weaving -/

theorem InOrder.restrict : ∀ {es : List Tree} {a b p q : Nat}, InOrder a es b → p ≤ q →
    (∀ e ∈ es, p ≤ e.span.start ∧ e.span.stop ≤ q) → InOrder p es q
  | [], _, _, _, _, _, hpq, _ => hpq
  | e :: es, _, _, _, _, ⟨_, he, hes⟩, _, hbounds => by
    obtain ⟨hp, hq⟩ := hbounds e (List.mem_cons_self ..)
    refine ⟨hp, he, hes.restrict hq fun x hx => ⟨(hes.of_mem hx).1, ?_⟩⟩
    exact (hbounds x (List.mem_cons_of_mem e hx)).2

theorem InOrder.lt_of_mem_dropWhile {e : Tree} {p : Nat} : ∀ {es : List Tree} {a b : Nat}, InOrder a es b →
    e ∈ es.dropWhile (fun e => e.span.stop ≤ p) → p < e.span.stop
  | x :: xs, a, b, ⟨_, _, hxs⟩, he => by
    rw [List.dropWhile_cons] at he
    split at he
    · exact hxs.lt_of_mem_dropWhile he
    · next hx =>
      have hx : p < x.span.stop := by simpa using hx
      rcases List.mem_cons.1 he with rfl | he
      · exact hx
      · have hafter := hxs.of_mem he
        omega

/-- At each position the nodes are cut in two: those that end there or before, and those that end after it. -/
theorem InOrder.exists_cut {es : List Tree} {a b : Nat} (h : InOrder a es b) (p : Nat) : ∃ xs ys,
    es.takeWhile (fun e => e.span.stop ≤ p) = xs ∧ es.dropWhile (fun e => e.span.stop ≤ p) = ys ∧
      InOrder a xs b ∧ InOrder a ys b ∧ (∀ x ∈ xs, x ∈ es ∧ x.span.stop ≤ p) ∧
      ∀ y ∈ ys, y ∈ es ∧ p < y.span.stop := by
  have hcut := h
  rw [← List.takeWhile_append_dropWhile (l := es) (p := fun e => e.span.stop ≤ p)] at hcut
  obtain ⟨m, hxs, hys⟩ := inOrder_append_iff.1 hcut
  refine ⟨_, _, rfl, rfl, hxs.mono (Nat.le_refl a) hys.le, hys.mono hxs.le (Nat.le_refl b), ?_, ?_⟩
  · intro x hx
    exact ⟨(List.takeWhile_sublist _).subset hx, by simpa using List.mem_takeWhile_imp hx⟩
  · intro y hy
    exact ⟨(List.dropWhile_sublist _).subset hy, h.lt_of_mem_dropWhile hy⟩

section
variable {t : Tree} {e : Tree} (hbuilt : t.Built rules) (hle : t.span.start ≤ t.span.stop)
  (hapart : ∀ w ∈ t.leaves, e.span.stop ≤ w.span.start ∨ w.span.stop ≤ e.span.start)
include hbuilt hle hapart

/-- What is apart from the words of a tree and does not end before the tree begins after its beginning. -/
theorem Built.le_start (h : t.span.start < e.span.stop) : t.span.start ≤ e.span.start := by
  obtain ⟨hordered, hfirst, -⟩ := hbuilt.covers_leaves hle
  obtain ⟨w, hw, hstart⟩ := Option.map_eq_some_iff.1 hfirst
  have hmem := List.mem_of_head? hw
  have hbounds := hordered.of_mem hmem
  rcases hapart w hmem with h | h <;> omega

theorem Built.stop_le (h : t.span.stop < e.span.stop) : t.span.stop ≤ e.span.start := by
  obtain ⟨hordered, -, hlast⟩ := hbuilt.covers_leaves hle
  obtain ⟨w, hw, hstop⟩ := Option.map_eq_some_iff.1 hlast
  have hmem := List.mem_of_getLast? hw
  have hbounds := hordered.of_mem hmem
  rcases hapart w hmem with h | h <;> omega

end

theorem Extras.of_subset {a b p q : Nat} {es xs words ws : List Tree} (h : Extras a es b words)
    (hxs : ∀ x ∈ xs, x ∈ es) (hws : ∀ w ∈ ws, w ∈ words) (hordered : InOrder p xs q) : Extras p xs q ws :=
  ⟨hordered, fun x hx => h.remark x (hxs x hx), fun x hx w hw => h.apart x (hxs x hx) w (hws w hw)⟩

/-- The extras before a tree, those in it and those after it. -/
theorem Extras.exists_split {t : Tree} {ts es : List Tree} {a b : Nat} (h : Extras a es b (leavesOf (t :: ts)))
    (hbuilt : t.Built rules) (hordered : InOrder a (t :: ts) b) : ∃ before inside after,
      weaveAll es (t :: ts) = before ++ weave inside t :: weaveAll after ts ∧
      Extras a before t.span.start [] ∧ Extras t.span.start inside t.span.stop t.leaves ∧
      Extras t.span.stop after b (leavesOf ts) := by
  obtain ⟨hstart, hle, hts⟩ := hordered
  have hwords : ∀ w ∈ t.leaves, w ∈ leavesOf (t :: ts) := fun w hw => List.mem_append_left _ hw
  have hapart : ∀ e ∈ es, ∀ w ∈ t.leaves, e.span.stop ≤ w.span.start ∨ w.span.stop ≤ e.span.start :=
    fun e he w hw => h.apart e he w (hwords w hw)
  obtain ⟨before, rest, hbefore, hrest, hbeforeOrder, hrestOrder, hstops, hrestStops⟩ :=
    h.ordered.exists_cut t.span.start
  obtain ⟨inside, after, hinside, hafter, hinsideOrder, hafterOrder, hinsideStops, hafterStops⟩ :=
    hrestOrder.exists_cut t.span.stop
  refine ⟨before, inside, after, ?_, ?_, ?_, ?_⟩
  · rw [weaveAll]
    simp only [hbefore, hrest, hinside, hafter]
  · refine h.of_subset (fun e he => (hstops e he).1) (List.forall_mem_nil _) ?_
    exact hbeforeOrder.restrict hstart fun e he => ⟨(hbeforeOrder.of_mem he).1, (hstops e he).2⟩
  · refine h.of_subset (fun e he => (hrestStops e (hinsideStops e he).1).1) hwords ?_
    refine hinsideOrder.restrict hle fun e he => ⟨?_, (hinsideStops e he).2⟩
    obtain ⟨hmem, hlt⟩ := hrestStops e (hinsideStops e he).1
    exact hbuilt.le_start hle (hapart e hmem) hlt
  · refine h.of_subset (fun e he => (hrestStops e (hafterStops e he).1).1) (fun w hw => List.mem_append_right _ hw) ?_
    refine hafterOrder.restrict hts.le fun e he => ⟨?_, (hafterOrder.of_mem he).2.2⟩
    obtain ⟨hmem, hlt⟩ := hafterStops e he
    exact hbuilt.stop_le hle (hapart e (hrestStops e hmem).1) hlt

/-! ## Trees with comments -/

/-- The nodes of the tree stand in order inside each other, and a phrase begins where its first part does, which is
no comment. -/
inductive Spanned : Tree → Prop
  | leaf {r : Option Role} {l : Label} {s : Span} : Spanned (.node r l s [])
  | phrase {r : Option Role} {l : Label} {s : Span} {c : Tree} {cs : List Tree} : InOrder s.start (c :: cs) s.stop →
      c.span.start = s.start → c.isComment = false → (∀ d ∈ c :: cs, Spanned d) → Spanned (.node r l s (c :: cs))

theorem IsRemark.spanned {e : Tree} (h : e.IsRemark) : e.Spanned := by
  obtain ⟨r, l, s, cs⟩ := e
  obtain rfl : cs = [] := h.children
  exact .leaf

/-- The tree with comments put into it. -/
structure Woven (rules : Kind → List Alternative) (t u : Tree) : Prop where
  slot : u.slot = t.slot
  span : u.span = t.span
  spanned : u.Spanned
  conforms : u.hasFault = false → u.Conforms rules

theorem isComment_iff {t : Tree} : t.isComment = true ↔
    t.role = none ∧ (t.label = .kind .lineComment ∨ t.label = .kind .blockComment) := by
  simp only [Tree.isComment, Slot.comments, List.contains_iff_mem, List.mem_cons, List.not_mem_nil, or_false, slot,
    Slot.mk.injEq]
  tauto

theorem row_append (xs ys : List Tree) : row (xs ++ ys) = row xs ++ row ys := by
  rw [row, List.map_append, List.filter_append]
  rfl

theorem row_cons {t : Tree} (h : t.isComment = false) (ts : List Tree) : row (t :: ts) = t.slot :: row ts := by
  have hslot : t.slot ∉ Slot.comments := by simpa [Tree.isComment] using h
  rw [row, List.map_cons, List.filter_cons_of_pos (by simpa using hslot)]
  rfl

theorem row_eq_nil {es : List Tree} (h : ∀ e ∈ es, e.IsRemark) : row es = [] := by
  rw [row, List.filter_eq_nil_iff]
  intro s hs
  obtain ⟨e, he, rfl⟩ := List.mem_map.1 hs
  simpa [Tree.isComment] using (h e he).isComment

theorem slot_weave (es : List Tree) (t : Tree) : (weave es t).slot = t.slot := by
  cases t
  rfl

theorem span_weave (es : List Tree) (t : Tree) : (weave es t).span = t.span := by
  cases t
  rfl

/-- No comment lies in a word. -/
theorem Extras.eq_nil_of_word {r : Option Role} {l : Label} {s : Span} {es : List Tree}
    (h : Extras s.start es s.stop [.node r l s []]) : es = [] := by
  refine List.eq_nil_iff_forall_not_mem.2 fun e he => ?_
  have hbounds := h.ordered.of_mem he
  have hnonempty := (h.remark e he).nonempty
  have hapart : e.span.stop ≤ s.start ∨ s.stop ≤ e.span.start := h.apart e he _ (List.mem_singleton_self _)
  omega

theorem Built.conforms_word {r : Option Role} {l : Label} {s : Span} (h : (Tree.node r l s []).Built rules)
    (hfault : (Tree.node r l s []).hasFault = false) : (Tree.node r l s []).Conforms rules := by
  cases h with
  | word hl =>
    cases l with
    | word w => exact .word r w s
    | kind k =>
      refine .leaf r s ?_
      simp only [Label.isWordOf, Kind.isSpelling, Bool.or_eq_true, Bool.and_eq_true] at hl
      rw [Kind.isLeaf, Bool.or_eq_true]
      exact hl.imp id fun hspelling => hspelling.1.1
    | error => cases hfault
    | missing => cases hfault
  | phrase _ _ _ hcovers => cases hcovers.first

section
variable (hrules : WellMade rules)
include hrules

theorem IsRemark.conforms {e : Tree} (h : e.IsRemark) : e.Conforms rules := by
  obtain ⟨r, l, s, cs⟩ := e
  obtain rfl : cs = [] := h.children
  obtain ⟨-, hl | hl⟩ := isComment_iff.1 h.isComment
  · cases hl
    exact .leaf r s (by rw [Kind.isLeaf, hrules.comments.1]; rfl)
  · cases hl
    exact .leaf r s (by rw [Kind.isLeaf, hrules.comments.2]; rfl)

theorem Built.isComment_eq_false {t : Tree} (h : t.Built rules) : t.isComment = false := by
  rw [Bool.eq_false_iff]
  intro hcomment
  obtain ⟨-, hl⟩ := isComment_iff.1 hcomment
  cases h with
  | word hword =>
    rcases hl with hl | hl <;> cases hl <;> simp [Label.isWordOf, Kind.isKeyword, Kind.isSpelling] at hword
  | phrase _ ha =>
    rcases hl with hl | hl <;> cases hl
    · rw [hrules.comments.1] at ha
      cases ha
    · rw [hrules.comments.2] at ha
      cases ha

mutual

/-- Comments between its words leave a tree what it is. -/
theorem woven_weave : ∀ (t : Tree) {es : List Tree}, t.Built rules → t.span.start ≤ t.span.stop →
    Extras t.span.start es t.span.stop t.leaves → Woven rules t (weave es t)
  | .node r l s [], es, hbuilt, _, hes => by
    cases Extras.eq_nil_of_word hes
    exact ⟨rfl, rfl, .leaf, hbuilt.conforms_word⟩
  | .node r l s (c :: cs), es, hbuilt, hle, hes => by
    cases hbuilt with
    | @phrase _ k _ _ a hk ha hrow hcovers hcs =>
      obtain ⟨hordered, hrows, hchildren⟩ := woven_weaveAll (c :: cs) hcovers.ordered hcs hes
      obtain ⟨before, inside, after, hsplit, hbefore, -, -⟩ :=
        hes.exists_split (hcs c (List.mem_cons_self ..)) hcovers.ordered
      have hstart : c.span.start = s.start := Option.some.inj hcovers.first
      -- nothing stands before the first part, which begins where the phrase does
      have hnil : before = [] := by
        refine List.eq_nil_iff_forall_not_mem.2 fun e he => ?_
        have hle : s.start ≤ e.span.start ∧ _ ∧ e.span.stop ≤ c.span.start := hbefore.ordered.of_mem he
        have hnonempty := (hbefore.remark e he).nonempty
        omega
      rw [hnil, List.nil_append] at hsplit
      rw [weave, hsplit]
      rw [hsplit] at hordered hrows hchildren
      refine ⟨rfl, rfl, .phrase hordered ?_ ?_ fun d hd => ?_, fun hfault => .phrase hk ha ?_ fun d hd => ?_⟩
      · rw [span_weave, hstart]
      · rw [Tree.isComment, slot_weave]
        exact (hcs c (List.mem_cons_self ..)).isComment_eq_false hrules
      · rcases hchildren d hd with hremark | ⟨t, -, hwoven⟩
        · exact hremark.spanned
        · exact hwoven.spanned
      · rw [hrows]
        exact hrow
      · rcases hchildren d hd with hremark | ⟨t, -, hwoven⟩
        · exact hremark.conforms hrules
        · exact hwoven.conforms (anyFault_eq_false_iff.1 hfault d hd)

theorem woven_weaveAll : ∀ (ts : List Tree) {es : List Tree} {a b : Nat}, InOrder a ts b → (∀ t ∈ ts, t.Built rules) →
    Extras a es b (leavesOf ts) → InOrder a (weaveAll es ts) b ∧ row (weaveAll es ts) = ts.map slot ∧
      ∀ u ∈ weaveAll es ts, u.IsRemark ∨ ∃ t ∈ ts, Woven rules t u
  | [], es, a, b, _, _, hes => ⟨hes.ordered, row_eq_nil hes.remark, fun u hu => .inl (hes.remark u hu)⟩
  | t :: ts, es, a, b, hordered, hbuilt, hes => by
    have ht := hbuilt t (List.mem_cons_self ..)
    obtain ⟨before, inside, after, hsplit, hbefore, hinside, hafter⟩ := hes.exists_split ht hordered
    obtain ⟨hstart, hle, hts⟩ := hordered
    have hwoven := woven_weave t ht hle hinside
    obtain ⟨hordered, hrows, hrest⟩ := woven_weaveAll ts hts (fun u hu => hbuilt u (List.mem_cons_of_mem t hu)) hafter
    have hcomment : (weave inside t).isComment = false := by
      rw [Tree.isComment, slot_weave]
      exact ht.isComment_eq_false hrules
    rw [hsplit]
    refine ⟨inOrder_append_iff.2 ⟨t.span.start, hbefore.ordered, ?_⟩, ?_, fun u hu => ?_⟩
    · rw [InOrder, span_weave]
      exact ⟨Nat.le_refl _, hle, hordered⟩
    · rw [row_append, row_eq_nil hbefore.remark, List.nil_append, row_cons hcomment, hrows, slot_weave, List.map_cons]
    · rcases List.mem_append.1 hu with hu | hu
      · exact .inl (hbefore.remark u hu)
      · rcases List.mem_cons.1 hu with rfl | hu
        · exact .inr ⟨t, List.mem_cons_self .., hwoven⟩
        · rcases hrest u hu with hremark | ⟨v, hv, hwoven⟩
          · exact .inl hremark
          · exact .inr ⟨v, List.mem_cons_of_mem t hv, hwoven⟩

end

end

end Tree

/-! ## The tree of a text -/

/-- The nodes stand in order and inside each other, and those without a fault are of the grammar. -/
def Tree.Arranged (rules : Kind → List Alternative) (cs : List Tree) : Prop :=
  (∃ b, Tree.InOrder 0 cs b) ∧ ∀ c ∈ cs, c.Spanned ∧ (c.hasFault = false → c.Conforms rules)

theorem Tree.mem_leaves_of_mem_leavesOf {t w : Tree} (h : w ∈ leavesOf t.children) : w ∈ t.leaves := by
  obtain ⟨r, l, s, cs⟩ := t
  cases cs with
  | nil => cases h
  | cons c cs => exact h

section
variable (hrules : WellMade rules)
include hrules

theorem arranged_finishTree (text : List Char) {tree : Tree} {b : Nat} (hwords : Tree.InOrder 0 tree.leaves b)
    (hchildren : Tree.InOrder 0 tree.children b) (hbuilt : ∀ c ∈ tree.children, c.Built rules) :
    Tree.Arranged rules (finishTree text none tree).children := by
  have hb : b ≤ max b text.length := Nat.le_max_left ..
  have hextras := Tree.extras_commentsOutside (Nat.le_max_right b text.length) (hwords.mono (Nat.le_refl 0) hb)
  have hfinish : (finishTree text none tree).children =
      Tree.weaveAll (commentsOutside text 0 (tree.leaves.map Tree.span)) tree.children := by
    cases tree
    rfl
  obtain ⟨hordered, -, hwoven⟩ := Tree.woven_weaveAll hrules tree.children (hchildren.mono (Nat.le_refl 0) hb) hbuilt
    (hextras.of_subset (fun _ h => h) (fun w hw => Tree.mem_leaves_of_mem_leavesOf hw) hextras.ordered)
  rw [hfinish]
  refine ⟨⟨_, hordered⟩, fun c hc => ?_⟩
  rcases hwoven c hc with hremark | ⟨t, -, hwoven⟩
  · exact ⟨hremark.spanned, fun _ => hremark.conforms hrules⟩
  · exact ⟨hwoven.spanned, hwoven.conforms⟩

theorem arranged_finishTree_empty (text : List Char) :
    Tree.Arranged rules (finishTree text none (Tree.phrase .program [])).children :=
  arranged_finishTree hrules text (b := 0) ⟨Nat.le_refl 0, Nat.le_refl 0, Nat.le_refl 0⟩ (Nat.le_refl 0)
    (List.forall_mem_nil _)

theorem arranged_finishTree_tree (text : List Char) {head : Head} {offset : Nat} (h : Head.Sound rules offset head) :
    Tree.Arranged rules (finishTree text none head.tree).children := by
  unfold Head.tree
  cases hhead : head.nodes.head? with
  | none => exact arranged_finishTree_empty hrules text
  | some tree =>
    have hmem := List.mem_of_head? hhead
    have hbuilt := h.built tree hmem
    obtain ⟨-, hle, -⟩ := h.ordered.of_mem hmem
    refine arranged_finishTree hrules text (b := tree.span.stop)
      ((hbuilt.covers_leaves hle).ordered.mono (Nat.zero_le _) (Nat.le_refl _)) ?_ ?_
    · cases hbuilt with
      | word => exact Nat.zero_le _
      | phrase _ _ _ hcovers => exact hcovers.ordered.mono (Nat.zero_le _) (Nat.le_refl _)
    · cases hbuilt with
      | word => exact List.forall_mem_nil _
      | phrase _ _ _ _ hcs => exact hcs

/-- In the tree of a text without a fault all nodes are of the grammar, stand in order and inside each other, and
begin where their first words do. -/
theorem arranged_parse {text : List Char} (h : ((Automaton.ofRules rules).parse text).hasFault = false) :
    Tree.Arranged rules ((Automaton.ofRules rules).parse text).children := by
  have hfaulty : ∀ position, (faultyTree text position).hasFault = true := fun _ => rfl
  unfold Automaton.parse at h ⊢
  split
  · exact arranged_finishTree_empty hrules text
  · next hwords =>
    rw [if_neg hwords] at h
    split
    · next head hread =>
      obtain ⟨offset, hsound⟩ := exists_sound_of_read hrules hread
      exact arranged_finishTree_tree hrules text hsound
    · next hread =>
      rw [hread] at h
      cases h
    · next fault rest hread =>
      rw [hread] at h
      dsimp only at h
      -- every tree of a text that had to be repaired has a fault
      split at h
      · rw [hfaulty] at h
        cases h
      · rw [hfaulty] at h
        cases h
      · generalize finishTree text _ _ = mended at h
        by_cases hmended : mended.hasFault = true
        · rw [if_pos hmended, hmended] at h
          cases h
        · rw [if_neg hmended, hfaulty] at h
          cases h

end

end ClassDiagram.Grammar
