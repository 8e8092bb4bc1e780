/-
The lines of declarations. A declaration is recorded on the line of the first word of its node, which
belongs to its first modifier if it has any. The nodes of a tree stand in order inside each other, so
lines never fall from one declaration to the next in the source, nor from a declaration to those inside
it.
-/
import ClassDiagram.Proofs.Grammar.Weaving
import ClassDiagram.Proofs.Service.Entries
import ClassDiagram.Proofs.Unit.Reading
import ClassDiagram.Proofs.Unit.Sites

namespace ClassDiagram

open ClassDiagram.Grammar ClassDiagram.Text

/-! ## Where nodes begin -/

namespace Grammar.Tree

/-- The first word of a node; comments are passed over. -/
def firstWord? (t : Tree) : Option Tree := t.leaves.find? fun w => !w.isComment

theorem firstWord?_cons (r : Option Role) (l : Label) (s : Span) (c : Tree) (cs : List Tree) :
    (node r l s (c :: cs)).firstWord? = c.firstWord?.or ((leavesOf cs).find? fun w => !w.isComment) := by
  rw [firstWord?, leaves, List.isEmpty_cons, if_neg Bool.false_ne_true, leavesOf, List.find?_append]
  rfl

theorem Spanned.of_mem {t c : Tree} (h : t.Spanned) (hc : c ∈ t.children) : c.Spanned := by
  cases h with
  | leaf => cases hc
  | phrase _ _ _ hcs => exact hcs c hc

/-- A node that is no comment begins where its first word does. -/
theorem Spanned.exists_firstWord? {t : Tree} (h : t.Spanned) :
    t.isComment = false → ∃ w, t.firstWord? = some w ∧ w.span.start = t.span.start := by
  induction h with
  | @leaf r l s =>
    intro hcomment
    refine ⟨node r l s [], ?_, rfl⟩
    rw [firstWord?, leaves, List.isEmpty_nil, if_pos rfl, List.find?_cons_of_pos]
    rw [hcomment]
    rfl
  | phrase _ hstart hcomment _ ih =>
    intro _
    obtain ⟨w, hw, hws⟩ := ih _ (List.mem_cons_self ..) hcomment
    refine ⟨w, ?_, hws.trans hstart⟩
    rw [firstWord?_cons, hw, Option.some_or]

/-- A phrase begins with its first child, which is no comment. -/
theorem Spanned.firstWord?_of_head? {t c : Tree} (h : t.Spanned) (hc : t.children.head? = some c) :
    c.isComment = false ∧ c.firstWord? = t.firstWord? := by
  cases h with
  | leaf => cases hc
  | phrase _ _ hcomment hcs =>
    cases hc
    obtain ⟨w, hw, -⟩ := (hcs c (List.mem_cons_self ..)).exists_firstWord? hcomment
    exact ⟨hcomment, by rw [firstWord?_cons, hw, Option.some_or]⟩

/-- The nodes begin between two positions, and none begins before one that is listed earlier. -/
structure Ascending (a : Nat) (ns : List Tree) (b : Nat) : Prop where
  bounds : ∀ n ∈ ns, a ≤ n.span.start ∧ n.span.start ≤ b
  ordered : ns.Pairwise fun m n => m.span.start ≤ n.span.start

theorem InOrder.ascending_nodesOf : ∀ {cs : List Tree} {a b : Nat}, InOrder a cs b →
    (∀ c ∈ cs, c.span.start ≤ c.span.stop → Ascending c.span.start c.nodes c.span.stop) → Ascending a (nodesOf cs) b
  | [], _, _, _, _ => ⟨List.forall_mem_nil _, .nil⟩
  | c :: cs, a, b, ⟨hstart, hle, hrest⟩, hcs => by
    have hc := hcs c (List.mem_cons_self ..) hle
    have ih := hrest.ascending_nodesOf fun d hd => hcs d (List.mem_cons_of_mem _ hd)
    refine ⟨fun n hn => ?_, List.pairwise_append.2 ⟨hc.ordered, ih.ordered, fun m hm n hn => ?_⟩⟩
    · rcases List.mem_append.1 hn with hn | hn
      · have hbounds := hc.bounds n hn
        have hstop := hrest.le
        omega
      · have hbounds := ih.bounds n hn
        omega
    · exact Nat.le_trans (hc.bounds m hm).2 (ih.bounds n hn).1

theorem Ascending.nodes {t : Tree} (hle : t.span.start ≤ t.span.stop)
    (h : Ascending t.span.start (nodesOf t.children) t.span.stop) : Ascending t.span.start t.nodes t.span.stop := by
  rw [nodes_eq]
  refine ⟨fun n hn => ?_, .cons (fun n hn => (h.bounds n hn).1) h.ordered⟩
  rcases List.mem_cons.1 hn with rfl | hn
  · exact ⟨Nat.le_refl _, hle⟩
  · exact h.bounds n hn

/-- The nodes of a tree, each listed before those inside it, begin in this order. -/
theorem Spanned.ascending_nodes {t : Tree} (h : t.Spanned) :
    t.span.start ≤ t.span.stop → Ascending t.span.start t.nodes t.span.stop := by
  induction h with
  | leaf => exact fun hle => Ascending.nodes hle ⟨List.forall_mem_nil _, .nil⟩
  | phrase hordered _ _ _ ih => exact fun hle => Ascending.nodes hle (hordered.ascending_nodesOf ih)

theorem nodesOf_append (xs ys : List Tree) : nodesOf (xs ++ ys) = nodesOf xs ++ nodesOf ys := by
  rw [nodesOf_eq_flatMap, List.flatMap_append, ← nodesOf_eq_flatMap, ← nodesOf_eq_flatMap]

theorem nodes_sublist_nodesOf {t : Tree} : ∀ {cs : List Tree}, t ∈ cs → t.nodes.Sublist (nodesOf cs)
  | c :: cs, h => by
    rw [nodesOf]
    rcases List.mem_cons.1 h with rfl | h
    · exact List.sublist_append_left ..
    · exact (nodes_sublist_nodesOf h).trans (List.sublist_append_right ..)

theorem nodesOf_children_sublist {t : Tree} {cs : List Tree} (h : t ∈ cs) :
    (nodesOf t.children).Sublist (nodesOf cs) := by
  have hnodes := nodes_sublist_nodesOf h
  rw [nodes_eq] at hnodes
  exact (List.sublist_cons_self ..).trans hnodes

end Grammar.Tree

/-! ## Modifiers -/

/-- A rule that begins with modifiers, which may be absent, and has none further on. -/
def Grammar.Rule.beginsWithModifiers : Rule → Bool
  | .seq (.choice (.symbol (.kind .modifiers)) .empty) rest =>
    (rest.bounds (phraseBounds alternatives hiddenDepth) fun s => s.label == .kind .modifiers).most == some 0
  | _ => false

theorem Grammar.Rule.modifiers_of_allows {r : Rule} {ss : List Slot} (hr : r.beginsWithModifiers = true)
    (h : r.Allows alternatives ss) :
    (∃ rest, ss = ⟨none, .kind .modifiers⟩ :: rest) ∨ ∀ s ∈ ss, s.label ≠ .kind .modifiers := by
  unfold beginsWithModifiers at hr
  split at hr
  · next rest =>
    obtain ⟨ts, us, rfl, hopt, hrest⟩ := allows_seq_iff.1 h
    rcases allows_choice_iff.1 hopt with hsome | hnone
    · rw [(allows_sub_iff rfl).1 hsome]
      exact .inl ⟨us, rfl⟩
    · cases hnone
      have hbounds := Rule.Allows.bounds (hold_phraseBounds hiddenDepth) rest (fun s => s.label == .kind .modifiers) us
        hrest
      have hzero := hbounds.2 0 (eq_of_beq hr)
      refine .inr fun s hs hl => ?_
      exact List.countP_eq_zero.1 (Nat.le_zero.1 hzero) s hs (beq_iff_eq.2 hl)
  · cases hr

theorem Grammar.Tree.isComment_eq_false_of_label {t : Tree} (h : t.label ∉ Slot.comments.map Slot.label) :
    t.isComment = false := by
  rw [Tree.isComment, List.contains_eq_mem, decide_eq_false_iff_not]
  exact fun hmem => h (List.mem_map_of_mem hmem)

section
variable {t m : Tree}

/-- The modifiers of a declaration stand before everything else in it. -/
theorem head?_of_child?_modifiers (h : t.Conforms alternatives) (hs : t.Spanned) (hd : t.label.declares = true)
    (hm : t.child? .modifiers = some m) : t.children.head? = some m := by
  have hbegins : ∀ k ∈ Label.declarations, ∀ a ∈ alternatives k, a.body.beginsWithModifiers = true := by decide
  obtain ⟨k, hk, hl⟩ := Label.exists_of_declares hd
  have hphrase : ∀ k ∈ Label.declarations, k.isLeaf alternatives = false := by decide
  obtain ⟨hmem, hkind⟩ := Tree.of_child?_eq_some hm
  obtain ⟨a, ha, hrow⟩ := h.exists_allows_parts hl (hphrase k hk)
  obtain ⟨c, cs, hcs⟩ := List.exists_cons_of_ne_nil (List.ne_nil_of_mem hmem)
  have hhead : t.children.head? = some c := by rw [hcs]; rfl
  have hparts : t.parts = c :: cs.filter fun d => !d.isComment := by
    rw [Tree.parts, hcs, List.filter_cons_of_pos]
    rw [(hs.firstWord?_of_head? hhead).1]
    rfl
  rcases Rule.modifiers_of_allows (hbegins k hk a ha) hrow with ⟨rest, heq⟩ | hnone
  · rw [hparts] at heq
    have hc : c.label = .kind .modifiers := congrArg Slot.label (List.cons.inj heq).1
    rw [hhead, ← hm, Tree.child?, hcs, List.find?_cons_of_pos]
    exact beq_iff_eq.2 hc
  · have hcomment : m.isComment = false := Tree.isComment_eq_false_of_label (by rw [hkind]; decide)
    have hpart : m ∈ t.parts := List.mem_filter.2 ⟨hmem, by rw [hcomment]; rfl⟩
    exact absurd hkind (hnone m.slot (List.mem_map_of_mem hpart))

/-- A declaration with modifiers begins with the first of them. -/
theorem exists_first_modifier (h : t.Conforms alternatives) (hs : t.Spanned) (hd : t.label.declares = true)
    (hm : t.child? .modifiers = some m) :
    ∃ first, m.children.head? = some first ∧ first.isComment = false ∧ first.firstWord? = t.firstWord? := by
  obtain ⟨hmem, hkind⟩ := Tree.of_child?_eq_some hm
  obtain ⟨c, hc, -⟩ :=
    (h.of_mem hmem).exists_mem (q := fun s => !Slot.comments.contains s) hkind (by decide) (by decide)
  obtain ⟨first, rest, hfirst⟩ := List.exists_cons_of_ne_nil (List.ne_nil_of_mem hc)
  have hhead : m.children.head? = some first := by rw [hfirst]; rfl
  obtain ⟨hcomment, hword⟩ := (hs.of_mem hmem).firstWord?_of_head? hhead
  exact ⟨first, hhead, hcomment, hword.trans (hs.firstWord?_of_head? (head?_of_child?_modifiers h hs hd hm)).2⟩

end

/-! ## The nodes of declarations -/

section
variable {text : List Char}

/-- The header of a declaration is read off a node. -/
def Site.IsReadOff (text : List Char) (s : Site) (n : Tree) : Prop :=
  DeclarationKind.ofNode? n = some s.header.kind ∧ s.header.IsOf text s.header.kind n

theorem exists_of_declarationsAmong_eq_cons {d : Declaration} {ds : List Declaration} : ∀ {cs : List Tree},
    declarationsAmong text cs = .ok (d :: ds) → ∃ before c after kind, cs = before ++ c :: after ∧
      DeclarationKind.ofNode? c = some kind ∧ declarationOf text kind c = .ok d ∧ declarationsAmong text after = .ok ds
  | [], h => by
    rw [declarationsAmong] at h
    cases h
  | c :: cs, h => by
    cases hc : DeclarationKind.ofNode? c with
    | none =>
      rw [declarationsAmong_cons_of_none hc] at h
      obtain ⟨before, e, after, kind, rfl, hrest⟩ := exists_of_declarationsAmong_eq_cons h
      exact ⟨c :: before, e, after, kind, rfl, hrest⟩
    | some kind =>
      obtain ⟨e, es, heq, hd, hds⟩ := declarationsAmong_cons_eq_ok hc h
      cases heq
      exact ⟨[], c, cs, kind, rfl, hc, hd, hds⟩

theorem nodesOf_memberNodes_sublist (t : Tree) :
    (Tree.nodesOf (memberNodes t)).Sublist (Tree.nodesOf t.children) := by
  rcases memberNodes_cases t with heq | ⟨body, hbody, heq | ⟨part, hpart, heq⟩⟩
  · rw [heq]
    exact List.nil_sublist _
  · rw [heq]
    exact Tree.nodesOf_children_sublist hbody
  · rw [heq]
    exact (Tree.nodesOf_children_sublist hpart).trans (Tree.nodesOf_children_sublist hbody)

namespace Declaration

mutual

/-- The declarations in a source are read off nodes of the tree that stand in the same order. -/
theorem exists_nodes : ∀ (d : Declaration) (enclosing : List Header) {kind : DeclarationKind} {c : Tree},
    DeclarationKind.ofNode? c = some kind → declarationOf text kind c = .ok d →
    ∃ ns, ns.Sublist c.nodes ∧ List.Forall₂ (Site.IsReadOff text) (d.sites enclosing) ns
  | .node h members, enclosing, kind, c, hkind, hd => by
    obtain ⟨hheader, hmembers⟩ := declarationOf_eq_ok_iff.1 hd
    obtain rfl : h.kind = kind := hheader.kind
    obtain ⟨ns, hns, hread⟩ := exists_nodesOf members (enclosing ++ [h]) hmembers
    refine ⟨c :: ns, ?_, .cons ⟨hkind, hheader⟩ hread⟩
    rw [Tree.nodes_eq]
    exact (hns.trans (nodesOf_memberNodes_sublist c)).cons_cons c

theorem exists_nodesOf : ∀ (ds : List Declaration) (enclosing : List Header) {cs : List Tree},
    declarationsAmong text cs = .ok ds →
    ∃ ns, ns.Sublist (Tree.nodesOf cs) ∧ List.Forall₂ (Site.IsReadOff text) (sitesOf enclosing ds) ns
  | [], _, cs, _ => ⟨[], List.nil_sublist _, .nil⟩
  | d :: ds, enclosing, cs, h => by
    obtain ⟨before, c, after, kind, rfl, hkind, hd, hds⟩ := exists_of_declarationsAmong_eq_cons h
    obtain ⟨ms, hms, hfirst⟩ := exists_nodes d enclosing hkind hd
    obtain ⟨ns, hns, hrest⟩ := exists_nodesOf ds enclosing hds
    refine ⟨ms ++ ns, ?_, List.rel_append hfirst hrest⟩
    rw [Tree.nodesOf_append, Tree.nodesOf]
    exact (hms.append hns).trans (List.sublist_append_right ..)

end

/-! ## Lines -/

mutual

/-- If lines never fall from one declaration to the next, no declaration is on an earlier line than one around it. -/
theorem enclosing_line_le : ∀ (d : Declaration) (enclosing : List Header),
    (d.sites enclosing).Pairwise (fun s u => s.header.line ≤ u.header.line) →
    (∀ s ∈ d.sites enclosing, ∀ h ∈ enclosing, h.line ≤ s.header.line) →
    ∀ s ∈ d.sites enclosing, ∀ h ∈ s.enclosing, h.line ≤ s.header.line
  | .node h members, enclosing, hordered, houter, s, hs => by
    rcases List.mem_cons.1 hs with rfl | hs
    · exact houter _ (List.mem_cons_self ..)
    · obtain ⟨hfirst, hordered⟩ := List.pairwise_cons.1 hordered
      refine enclosing_line_leOf members (enclosing ++ [h]) hordered (fun u hu g hg => ?_) s hs
      rcases List.mem_append.1 hg with hg | hg
      · exact houter u (List.mem_cons_of_mem _ hu) g hg
      · rw [List.mem_singleton.1 hg]
        exact hfirst u hu

theorem enclosing_line_leOf : ∀ (ds : List Declaration) (enclosing : List Header),
    (sitesOf enclosing ds).Pairwise (fun s u => s.header.line ≤ u.header.line) →
    (∀ s ∈ sitesOf enclosing ds, ∀ h ∈ enclosing, h.line ≤ s.header.line) →
    ∀ s ∈ sitesOf enclosing ds, ∀ h ∈ s.enclosing, h.line ≤ s.header.line
  | [], _, _, _, s, hs => nomatch hs
  | d :: ds, enclosing, hordered, houter, s, hs => by
    obtain ⟨hd, hds, -⟩ := List.pairwise_append.1 hordered
    rcases List.mem_append.1 hs with hs | hs
    · exact enclosing_line_le d enclosing hd (fun u hu => houter u (List.mem_append_left _ hu)) s hs
    · exact enclosing_line_leOf ds enclosing hds (fun u hu => houter u (List.mem_append_right _ hu)) s hs

end

end Declaration

end

theorem lineAt_mono (text : List Char) {p q : Nat} (h : p ≤ q) : lineAt text p ≤ lineAt text q :=
  Nat.succ_le_succ ((List.take_prefix_take_left h).sublist.count_le _)

theorem lineAt_le (text : List Char) (p : Nat) : lineAt text p ≤ 1 + text.count '\n' := by
  rw [lineAt, Nat.add_comm]
  exact Nat.add_le_add_left ((List.take_sublist p text).count_le _) 1

/-- A declaration and its node, on the line of whose first word it is recorded. This word belongs to the first of the
modifiers and annotations if there are any. -/
structure Header.BeginsAt (text : List Char) (h : Header) (n : Tree) : Prop where
  kind : n.label = .kind h.kind.phrase
  name : (n.part? .name).map (textOf text) = some h.name
  line : ∃ w, n.firstWord? = some w ∧ h.line = 1 + (text.take w.span.start).count '\n'
  modifiers : ∀ m, n.child? .modifiers = some m →
    ∃ first, m.children.head? = some first ∧ first.isComment = false ∧ first.firstWord? = n.firstWord?

/-- The lines of all declarations of a source: each has a node of the tree, in the order of the source, where it
begins; the lines are lines of the source and never fall, neither along the source nor inwards. -/
structure CompilationUnit.Lined (text : List Char) (tree : Tree) (unit : CompilationUnit) : Prop where
  begins : ∃ ns, ns.Sublist tree.nodes ∧ List.Forall₂ (fun s n => s.header.BeginsAt text n) unit.sites ns
  bounds : ∀ s ∈ unit.sites, 1 ≤ s.header.line ∧ s.header.line ≤ 1 + text.count '\n'
  ordered : unit.sites.Pairwise fun s u => s.header.line ≤ u.header.line
  nested : ∀ s ∈ unit.sites, ∀ h ∈ s.enclosing, h.line ≤ s.header.line

theorem Site.IsReadOff.line_eq {text : List Char} {s : Site} {n : Tree} (h : s.IsReadOff text n) :
    s.header.line = lineAt text n.span.start :=
  h.2.line

theorem Site.IsReadOff.beginsAt {text : List Char} {s : Site} {n : Tree} (h : s.IsReadOff text n) (hs : n.Spanned)
    (hconforms : n.Conforms alternatives) : s.header.BeginsAt text n := by
  have hd := DeclarationKind.declares_of_ofNode? h.1
  have hcomment : n.isComment = false := by
    have hlabel : ∀ k ∈ Label.declarations, Label.kind k ∉ Slot.comments.map Slot.label := by decide
    obtain ⟨k, hk, hl⟩ := Label.exists_of_declares hd
    exact Tree.isComment_eq_false_of_label (hl ▸ hlabel k hk)
  obtain ⟨w, hw, hstart⟩ := hs.exists_firstWord? hcomment
  refine ⟨DeclarationKind.label_of_ofNode? h.1, h.2.name, ⟨w, hw, ?_⟩,
    fun m hm => exists_first_modifier hconforms hs hd hm⟩
  rw [h.line_eq, hstart, lineAt, Nat.add_comm]

/-- The declarations read off a tree whose nodes stand in order are recorded where they begin. -/
theorem CompilationUnit.lined_of_arranged {file : String} {text : List Char} {tree : Tree} {unit : CompilationUnit}
    (harranged : Tree.Arranged alternatives tree.children) (h : CompilationUnit.ofTree file text tree = .ok unit) :
    unit.Lined text tree := by
  obtain ⟨⟨b, hordered⟩, hchildren⟩ := harranged
  obtain ⟨ns, hns, hread⟩ := Declaration.exists_nodesOf unit.types [] (CompilationUnit.ofTree_eq_ok h).1
  have hnodes : ∀ n ∈ Tree.nodesOf tree.children, n.Spanned ∧ n.Conforms alternatives := by
    have hfault : Tree.anyFault tree.children = false := by
      have hfault := CompilationUnit.hasFault_of_ofTree_eq_ok h
      cases tree
      exact (Bool.or_eq_false_iff.1 hfault).2
    intro n hn
    obtain ⟨c, hc, hn⟩ := Tree.mem_nodesOf.1 hn
    obtain ⟨hs, hconforms⟩ := hchildren c hc
    refine Tree.of_mem_nodes (P := fun t => t.Spanned ∧ t.Conforms alternatives) (fun t c ht hc => ?_) c
      ⟨hs, hconforms (Tree.anyFault_eq_false_iff.1 hfault c hc)⟩ n hn
    exact ⟨ht.1.of_mem hc, ht.2.of_mem hc⟩
  have hlines : unit.sites.map (·.header.line) = ns.map fun n => lineAt text n.span.start := by
    rw [← List.forall₂_eq_eq_eq, List.forall₂_map_left_iff, List.forall₂_map_right_iff]
    exact hread.imp fun _ _ hs => hs.line_eq
  have hsorted : unit.sites.Pairwise fun s u => s.header.line ≤ u.header.line := by
    rw [← List.pairwise_map (R := (· ≤ ·)), hlines, List.pairwise_map]
    have hascending := hordered.ascending_nodesOf fun c hc => (hchildren c hc).1.ascending_nodes
    exact (hascending.ordered.sublist hns).imp (lineAt_mono text)
  refine ⟨⟨ns, ?_, ?_⟩, fun s hs => ?_, hsorted, ?_⟩
  · rw [Tree.nodes_eq]
    exact hns.cons _
  · have hboth := (List.forall₂_and_left ns unit.sites).2 ⟨fun n hn => hnodes n (hns.subset hn), hread.flip⟩
    exact hboth.flip.imp fun _ _ hn => Site.IsReadOff.beginsAt hn.2 hn.1.1 hn.1.2
  · have hline : s.header.line ∈ unit.sites.map (·.header.line) := List.mem_map_of_mem hs
    rw [hlines] at hline
    obtain ⟨n, -, hn⟩ := List.mem_map.1 hline
    rw [← hn]
    exact ⟨Nat.le_add_left 1 _, lineAt_le text _⟩
  · exact Declaration.enclosing_line_leOf unit.types [] hsorted fun _ _ _ hh => nomatch hh

/-- The declarations of a text that is read are recorded on the lines where they begin. -/
theorem parseUnit_lined {file text : String} {unit : CompilationUnit} (h : (parseUnit file text).result = .ok unit) :
    unit.Lined text.toList (java.parse text.toList) := by
  have htree := (of_parseUnit_eq_ok h).1
  exact CompilationUnit.lined_of_arranged
    (arranged_parse alternatives_wellMade (CompilationUnit.hasFault_of_ofTree_eq_ok htree)) htree

/-- A class whose modifier stands on a line of its own, and one inside it. -/
def finalSource : String := "\nfinal\nclass A\n{class B{}}"

theorem parseUnit_lined_final : ∃ unit, (parseUnit "A.java" finalSource).result = .ok unit ∧
    unit.sites.map (fun s => (s.header.name, s.header.line)) = [("A", 2), ("B", 4)] ∧
    unit.Lined finalSource.toList (java.parse finalSource.toList) := by
  have hread : (parseUnit "A.java" finalSource).result.toOption.map
      (fun unit => unit.sites.map fun s => (s.header.name, s.header.line)) = some [("A", 2), ("B", 4)] := by
    decide +kernel
  cases h : (parseUnit "A.java" finalSource).result with
  | error fault =>
    rw [h] at hread
    cases hread
  | ok unit =>
    rw [h] at hread
    exact ⟨unit, rfl, Option.some.inj hread, parseUnit_lined h⟩

end ClassDiagram
