/-
Which nodes of a tree are the declarations of its source. The declarations that are read correspond,
one to one and with the same order and nesting, to the declaration nodes around which there are
nothing but declarations and their bodies.
-/
import ClassDiagram.Proofs.Grammar.Check
import ClassDiagram.Proofs.Unit.Address
import ClassDiagram.Proofs.Unit.Reading
import Mathlib.Data.List.Basic
import Mathlib.Data.Set.Function

namespace ClassDiagram

open ClassDiagram.Grammar ClassDiagram.Text

/-! ## From a declaration to its node -/

/-- The place of a declaration's node among these nodes. -/
def nodeIndex (cs : List Tree) (i : Nat) : Nat := cs.findIdxNth (fun c => c.label.declares) i

theorem nodeIndex_cons_of_none {c : Tree} (hc : DeclarationKind.ofNode? c = none) (cs : List Tree) (i : Nat) :
    nodeIndex (c :: cs) i = nodeIndex cs i + 1 :=
  List.findIdxNth_cons_of_neg (p := fun c : Tree => c.label.declares) (DeclarationKind.declares_eq_false hc)

theorem nodeIndex_cons_zero {c : Tree} {kind : DeclarationKind} (hc : DeclarationKind.ofNode? c = some kind)
    (cs : List Tree) : nodeIndex (c :: cs) 0 = 0 :=
  List.findIdxNth_cons_zero_of_pos (p := fun c : Tree => c.label.declares) (DeclarationKind.declares_of_ofNode? hc)

theorem nodeIndex_cons_succ {c : Tree} {kind : DeclarationKind} (hc : DeclarationKind.ofNode? c = some kind)
    (cs : List Tree) (i : Nat) : nodeIndex (c :: cs) (i + 1) = nodeIndex cs i + 1 :=
  List.findIdxNth_cons_succ_of_pos (p := fun c : Tree => c.label.declares) (DeclarationKind.declares_of_ofNode? hc)

/-- The address of the node from which the declaration at an address is read. -/
def place : List Tree → List Nat → List Nat
  | _, [] => []
  | cs, i :: p =>
    nodeIndex cs i :: cs[nodeIndex cs i]?.elim [] fun c =>
      if p = [] then [] else bodyPath c ++ place (memberNodes c) p

theorem place_cons {cs : List Tree} {i : Nat} {c : Tree} (hc : cs[nodeIndex cs i]? = some c) (p : List Nat) :
    place cs (i :: p) = nodeIndex cs i :: if p = [] then [] else bodyPath c ++ place (memberNodes c) p := by
  rw [place, hc, Option.elim_some]

theorem place_ne_nil (cs : List Tree) {p : List Nat} (hp : p ≠ []) : place cs p ≠ [] := by
  cases p with
  | nil => exact absurd rfl hp
  | cons i p => exact List.cons_ne_nil _ _

section
variable {text : List Char}

theorem length_declarationsAmong : ∀ {cs : List Tree} {ds : List Declaration}, declarationsAmong text cs = .ok ds →
    ds.length = cs.countP fun c => c.label.declares
  | [], ds, h => by
    rw [declarationsAmong] at h
    cases h
    rfl
  | c :: cs, ds, h => by
    rw [List.countP_cons]
    cases hc : DeclarationKind.ofNode? c with
    | none =>
      rw [declarationsAmong_cons_of_none hc] at h
      rw [length_declarationsAmong h, DeclarationKind.declares_eq_false hc]
      rfl
    | some kind =>
      obtain ⟨d, es, rfl, -, hes⟩ := declarationsAmong_cons_eq_ok hc h
      rw [List.length_cons, length_declarationsAmong hes, DeclarationKind.declares_of_ofNode? hc]
      rfl

theorem nodeIndex_lt_iff {cs : List Tree} {ds : List Declaration} {i : Nat} {d : Declaration}
    (h : declarationsAmong text cs = .ok ds) (hi : ds[i]? = some d) (j : Nat) :
    nodeIndex cs i < nodeIndex cs j ↔ i < j := by
  have hlt : i < cs.countP fun c => c.label.declares := by
    rw [← length_declarationsAmong h]
    exact (List.getElem?_eq_some_iff.1 hi).1
  exact List.findIdxNth_lt_findIdxNth_iff_of_lt_countP hlt

/-- The declaration at a place is read off the node at its place. -/
theorem getElem?_declarationsAmong : ∀ {cs : List Tree} {ds : List Declaration} {i : Nat} {d : Declaration},
    declarationsAmong text cs = .ok ds → ds[i]? = some d →
    ∃ c kind, cs[nodeIndex cs i]? = some c ∧ DeclarationKind.ofNode? c = some kind ∧
      declarationOf text kind c = .ok d
  | [], ds, i, d, h, hi => by
    rw [declarationsAmong] at h
    cases h
    cases hi
  | c :: cs, ds, i, d, h, hi => by
    cases hc : DeclarationKind.ofNode? c with
    | none =>
      rw [declarationsAmong_cons_of_none hc] at h
      rw [nodeIndex_cons_of_none hc]
      exact getElem?_declarationsAmong h hi
    | some kind =>
      obtain ⟨e, es, rfl, he, hes⟩ := declarationsAmong_cons_eq_ok hc h
      cases i with
      | zero =>
        cases hi
        rw [nodeIndex_cons_zero hc]
        exact ⟨c, kind, rfl, hc, he⟩
      | succ i =>
        rw [nodeIndex_cons_succ hc]
        exact getElem?_declarationsAmong hes hi

/-- Each node that makes a declaration is the one of some declaration that is read. -/
theorem exists_nodeIndex_eq : ∀ {cs : List Tree} {ds : List Declaration} {j : Nat} {c : Tree},
    declarationsAmong text cs = .ok ds → cs[j]? = some c → c.label.declares = true →
    ∃ i d, ds[i]? = some d ∧ nodeIndex cs i = j
  | e :: cs, ds, 0, c, h, hj, hd => by
    cases hj
    cases he : DeclarationKind.ofNode? e with
    | none =>
      rw [DeclarationKind.declares_eq_false he] at hd
      cases hd
    | some kind =>
      obtain ⟨d, es, rfl, -, -⟩ := declarationsAmong_cons_eq_ok he h
      exact ⟨0, d, rfl, nodeIndex_cons_zero he cs⟩
  | e :: cs, ds, j + 1, c, h, hj, hd => by
    cases he : DeclarationKind.ofNode? e with
    | none =>
      rw [declarationsAmong_cons_of_none he] at h
      obtain ⟨i, d, hi, rfl⟩ := exists_nodeIndex_eq h hj hd
      exact ⟨i, d, hi, nodeIndex_cons_of_none he cs i⟩
    | some kind =>
      obtain ⟨d, es, rfl, -, hes⟩ := declarationsAmong_cons_eq_ok he h
      obtain ⟨i, d, hi, rfl⟩ := exists_nodeIndex_eq hes hj hd
      exact ⟨i + 1, d, hi, nodeIndex_cons_succ he cs i⟩

/-- A declaration is read off the node at its place, which is reachable. -/
theorem place_spec {cs : List Tree} {ds : List Declaration} {p : List Nat} {d : Declaration} (hcs : Members cs)
    (h : declarationsAmong text cs = .ok ds) (hp : locate Declaration.members ds p = some d) :
    Reachable cs (place cs p) ∧ ∃ c kind, locate Tree.children cs (place cs p) = some c ∧
      DeclarationKind.ofNode? c = some kind ∧ declarationOf text kind c = .ok d := by
  induction p generalizing cs ds with
  | nil => cases hp
  | cons i p ih =>
    obtain ⟨e, he, hp⟩ := Option.bind_eq_some_iff.1 hp
    obtain ⟨c, kind, hc, hkind, hread⟩ := getElem?_declarationsAmong h he
    have hd := DeclarationKind.declares_of_ofNode? hkind
    rw [place_cons hc, reachable_cons, locate, hc]
    cases p with
    | nil =>
      cases hp
      exact ⟨⟨c, rfl, .inl ⟨rfl, hd⟩⟩, c, kind, rfl, hkind, hread⟩
    | cons k p =>
      have hconforms := hcs.conforms c (List.mem_of_getElem? hc)
      have hopens : c.label.opens = true := by rw [Label.opens, hd, Bool.true_or]
      obtain ⟨-, hmembers⟩ := declarationOf_eq_ok_iff.1 hread
      obtain ⟨hreach, x, kind, hx, hkind, hread⟩ := ih (Members.memberNodes hconforms hd) hmembers hp
      refine ⟨⟨c, rfl, .inr ⟨hopens, ?_⟩⟩, x, kind, descend_bodyPath hconforms hd hx, hkind, hread⟩
      exact (reachable_children_iff hconforms hd).2 ⟨_, rfl, hreach⟩

/-- No reachable node is passed over. -/
theorem exists_place_eq (n : Nat) : ∀ {cs : List Tree} {ds : List Declaration} {a : List Nat}, a.length ≤ n →
    Members cs → declarationsAmong text cs = .ok ds → Reachable cs a →
    ∃ p d, locate Declaration.members ds p = some d ∧ place cs p = a := by
  -- by induction on the length: inside a declaration the way to its members is taken off the address
  induction n with
  | zero =>
    intro cs ds a hn _ _ ha
    exact absurd (List.length_eq_zero_iff.1 (Nat.le_zero.1 hn)) ha.ne_nil
  | succ n ih =>
    intro cs ds a hn hcs h ha
    obtain ⟨j, a, rfl⟩ := List.exists_cons_of_ne_nil ha.ne_nil
    obtain ⟨c, hc, hrest⟩ := reachable_cons.1 ha
    have hd : c.label.declares = true := by
      rcases hrest with ⟨-, hd⟩ | ⟨hopens, -⟩
      · exact hd
      · rw [Label.opens, hcs.plain c (List.mem_of_getElem? hc), Bool.or_false] at hopens
        exact hopens
    obtain ⟨i, d, hi, rfl⟩ := exists_nodeIndex_eq h hc hd
    rcases hrest with ⟨rfl, -⟩ | ⟨-, ha⟩
    · refine ⟨[i], d, ?_, place_cons hc []⟩
      rw [locate, hi]
      rfl
    · have hconforms := hcs.conforms c (List.mem_of_getElem? hc)
      obtain ⟨q, rfl, hq⟩ := (reachable_children_iff hconforms hd).1 ha
      obtain ⟨c', kind, hc', -, hread⟩ := getElem?_declarationsAmong h hi
      obtain rfl := Option.some.inj (hc'.symm.trans hc)
      obtain ⟨-, hmembers⟩ := declarationOf_eq_ok_iff.1 hread
      have hlength : q.length ≤ n := by
        simp only [List.length_cons, List.length_append] at hn
        omega
      obtain ⟨p, e, hp, rfl⟩ := ih hlength (Members.memberNodes hconforms hd) hmembers hq
      have hne : p ≠ [] := by
        rintro rfl
        cases hp
      refine ⟨i :: p, e, ?_, ?_⟩
      · rw [locate, hi]
        exact descend_of_locate hp
      · rw [place_cons hc, if_neg hne]

end

/-! ## Order and nesting -/

/-- A relation between addresses that is decided where they part: by the step that comes first, if `early`
holds, and else not at all. -/
structure Stepwise (R : List Nat → List Nat → Prop) (early : Prop) : Prop where
  nil_cons : ∀ (i : Nat) (p : List Nat), R [] (i :: p)
  not_cons_nil : ∀ (i : Nat) (p : List Nat), ¬ R (i :: p) []
  cons_iff : ∀ (i j : Nat) (p q : List Nat), R (i :: p) (j :: q) ↔ early ∧ i < j ∨ i = j ∧ R p q

/-- The order in which nodes begin. -/
theorem stepwise_lt : Stepwise (· < ·) True where
  nil_cons _ _ := List.nil_lt_cons _ _
  not_cons_nil _ _ := List.not_lt_nil _
  cons_iff i j p q := by rw [List.cons_lt_cons_iff, true_and]

/-- One node stands around another, or is the same. -/
theorem stepwise_prefix : Stepwise (· <+: ·) False where
  nil_cons _ _ := List.nil_prefix
  not_cons_nil i p h := List.cons_ne_nil i p (List.prefix_nil.1 h)
  cons_iff i j p q := by rw [List.cons_prefix_cons, false_and, false_or]

namespace Stepwise

variable {R : List Nat → List Nat → Prop} {early : Prop}

theorem append_iff (hR : Stepwise R early) (p q : List Nat) : ∀ w : List Nat, R (w ++ p) (w ++ q) ↔ R p q
  | [] => Iff.rfl
  | i :: w => by
    rw [List.cons_append, List.cons_append, hR.cons_iff, append_iff hR p q w]
    simp only [Nat.lt_irrefl, and_false, false_or, true_and]

theorem nil_left (hR : Stepwise R early) {p : List Nat} (hp : p ≠ []) : R [] p := by
  obtain ⟨i, p, rfl⟩ := List.exists_cons_of_ne_nil hp
  exact hR.nil_cons i p

theorem not_nil_right (hR : Stepwise R early) {p : List Nat} (hp : p ≠ []) : ¬ R p [] := by
  obtain ⟨i, p, rfl⟩ := List.exists_cons_of_ne_nil hp
  exact hR.not_cons_nil i p

/-- Inside one declaration: its own address and those of its members are as far apart as their places. -/
theorem within_iff (hR : Stepwise R early) (c : Tree) {p q : List Nat}
    (h : p ≠ [] → q ≠ [] → (R p q ↔ R (place (memberNodes c) p) (place (memberNodes c) q))) :
    R p q ↔ R (if p = [] then [] else bodyPath c ++ place (memberNodes c) p)
      (if q = [] then [] else bodyPath c ++ place (memberNodes c) q) := by
  have hne : ∀ {r : List Nat}, r ≠ [] → bodyPath c ++ place (memberNodes c) r ≠ [] :=
    fun hr => List.append_ne_nil_of_right_ne_nil (bodyPath c) (place_ne_nil (memberNodes c) hr)
  by_cases hp : p = []
  · by_cases hq : q = []
    · rw [if_pos hp, if_pos hq, hp, hq]
    · rw [if_pos hp, if_neg hq, hp]
      exact iff_of_true (hR.nil_left hq) (hR.nil_left (hne hq))
  · by_cases hq : q = []
    · rw [if_neg hp, if_pos hq, hq]
      exact iff_of_false (hR.not_nil_right hp) (hR.not_nil_right (hne hp))
    · rw [if_neg hp, if_neg hq, hR.append_iff]
      exact h hp hq

/-- Between the nodes the relation is the same as between the declarations. -/
theorem place_iff (hR : Stepwise R early) {text : List Char} {cs : List Tree} {ds : List Declaration}
    {p q : List Nat} {d e : Declaration} (h : declarationsAmong text cs = .ok ds)
    (hp : locate Declaration.members ds p = some d) (hq : locate Declaration.members ds q = some e) :
    R p q ↔ R (place cs p) (place cs q) := by
  induction p generalizing cs ds q with
  | nil => cases hp
  | cons i p ih =>
    cases q with
    | nil => cases hq
    | cons j q =>
      obtain ⟨x, hx, hp⟩ := Option.bind_eq_some_iff.1 hp
      obtain ⟨y, hy, hq⟩ := Option.bind_eq_some_iff.1 hq
      obtain ⟨c, kind, hc, -, hread⟩ := getElem?_declarationsAmong h hx
      obtain ⟨c', -, hc', -, -⟩ := getElem?_declarationsAmong h hy
      have hlt := nodeIndex_lt_iff h hx j
      have hgt := nodeIndex_lt_iff h hy i
      have heq : nodeIndex cs i = nodeIndex cs j ↔ i = j := by omega
      rw [place_cons hc, place_cons hc', hR.cons_iff, hR.cons_iff, hlt, heq]
      refine or_congr Iff.rfl (and_congr_right ?_)
      rintro rfl
      obtain rfl := Option.some.inj (hx.symm.trans hy)
      obtain rfl := Option.some.inj (hc.symm.trans hc')
      refine hR.within_iff c fun hpne hqne => ?_
      obtain ⟨-, hmembers⟩ := declarationOf_eq_ok_iff.1 hread
      exact ih hmembers (locate_of_descend hpne hp) (locate_of_descend hqne hq)

end Stepwise

/-! ## The correspondence -/

/-- The addresses of all declarations. -/
def addresses (ds : List Declaration) : Set (List Nat) := {p | (locate Declaration.members ds p).isSome = true}

/-- A way to assign to the declarations their nodes: each reachable declaration node to exactly one of them,
with the same order and nesting, and a node of the declaration's kind and name to each. -/
structure Correspondence (text : List Char) (cs : List Tree) (ds : List Declaration)
    (node : List Nat → List Nat) : Prop where
  bijOn : Set.BijOn node (addresses ds) {a | Reachable cs a}
  order : ∀ p ∈ addresses ds, ∀ q ∈ addresses ds, (p < q ↔ node p < node q)
  nesting : ∀ p ∈ addresses ds, ∀ q ∈ addresses ds, (p <+: q ↔ node p <+: node q)
  agrees : ∀ p d, locate Declaration.members ds p = some d → ∃ t, locate Tree.children cs (node p) = some t ∧
    t.label = .kind d.header.kind.phrase ∧ (t.part? .name).map (textOf text) = some d.header.name

theorem correspondence_place {text : List Char} {cs : List Tree} {ds : List Declaration} (hcs : Members cs)
    (h : declarationsAmong text cs = .ok ds) : Correspondence text cs ds (place cs) := by
  have hstepwise : ∀ {R : List Nat → List Nat → Prop} {early : Prop}, Stepwise R early →
      ∀ p ∈ addresses ds, ∀ q ∈ addresses ds, (R p q ↔ R (place cs p) (place cs q)) := by
    intro R early hR p hp q hq
    obtain ⟨d, hp⟩ := Option.isSome_iff_exists.1 hp
    obtain ⟨e, hq⟩ := Option.isSome_iff_exists.1 hq
    exact hR.place_iff h hp hq
  have hnesting := hstepwise stepwise_prefix
  refine ⟨⟨?_, ?_, ?_⟩, hstepwise stepwise_lt, hnesting, ?_⟩
  · intro p hp
    obtain ⟨d, hp⟩ := Option.isSome_iff_exists.1 hp
    exact (place_spec hcs h hp).1
  · -- two declarations with one node enclose each other
    intro p hp q hq heq
    have hpq := (hnesting p hp q hq).2 (heq ▸ List.prefix_rfl)
    have hqp := (hnesting q hq p hp).2 (heq ▸ List.prefix_rfl)
    exact hpq.eq_of_length (Nat.le_antisymm hpq.length_le hqp.length_le)
  · intro a ha
    obtain ⟨p, d, hp, rfl⟩ := exists_place_eq a.length (Nat.le_refl _) hcs h ha
    exact ⟨p, Option.isSome_iff_exists.2 ⟨d, hp⟩, rfl⟩
  · intro p d hp
    obtain ⟨-, c, kind, hc, hkind, hread⟩ := place_spec hcs h hp
    obtain ⟨hheader, -⟩ := declarationOf_eq_ok_iff.1 hread
    refine ⟨c, hc, ?_, hheader.name⟩
    rw [hheader.kind]
    exact DeclarationKind.label_of_ofNode? hkind

/-- Every program of the grammar is read, and its declarations are exactly the reachable declaration nodes. -/
theorem CompilationUnit.ofTree_corresponds (file : String) (text : List Char) {tree : Tree}
    (hprogram : tree.isKind .program = true) (h : tree.Conforms alternatives) :
    ∃ unit node, CompilationUnit.ofTree file text tree = .ok unit ∧
      Correspondence text tree.children unit.types node := by
  have hcs : Members tree.children := Members.children h (by decide) (eq_of_beq hprogram)
  obtain ⟨ds, hds⟩ : ∃ ds, declarationsAmong text tree.children = .ok ds := hcs.exists_declarationsAmong
  unfold CompilationUnit.ofTree
  simp only [h.hasFault_eq_false, hds]
  exact ⟨_, place tree.children, rfl, correspondence_place hcs hds⟩

/-- The node of a class with a name of one letter and nothing in it. -/
def smallClass (start : Nat) : Tree :=
  .node none (.kind .classDeclaration) ⟨start, start + 9⟩ [
    .leaf (.word .classWord) ⟨start, start + 5⟩,
    .node (some .name) (.kind .identifier) ⟨start + 6, start + 7⟩ [],
    .node (some .body) (.kind .classBody) ⟨start + 7, start + 9⟩ [
      .leaf (.word .openBrace) ⟨start + 7, start + 8⟩, .leaf (.word .closeBrace) ⟨start + 8, start + 9⟩]]

/-- The tree of `enum E{A{class X{}};class B{}}`, of which `X` is not read. -/
def enumWithClasses : Tree :=
  .node none (.kind .program) ⟨0, 30⟩ [
    .node none (.kind .enumDeclaration) ⟨0, 30⟩ [
      .leaf (.word .enumWord) ⟨0, 4⟩,
      .node (some .name) (.kind .identifier) ⟨5, 6⟩ [],
      .node (some .body) (.kind .enumBody) ⟨6, 30⟩ [
        .leaf (.word .openBrace) ⟨6, 7⟩,
        .node none (.kind .enumConstant) ⟨7, 19⟩ [
          .node (some .name) (.kind .identifier) ⟨7, 8⟩ [],
          .node (some .body) (.kind .classBody) ⟨8, 19⟩ [
            .leaf (.word .openBrace) ⟨8, 9⟩, smallClass 9, .leaf (.word .closeBrace) ⟨18, 19⟩]],
        .node none (.kind .enumBodyDeclarations) ⟨19, 29⟩ [
          .leaf (.word .semicolon) ⟨19, 20⟩, smallClass 20],
        .leaf (.word .closeBrace) ⟨29, 30⟩]]]

theorem CompilationUnit.ofTree_corresponds_enumWithClasses :
    enumWithClasses.isKind .program = true ∧ enumWithClasses.Conforms alternatives ∧
      ∃ unit node, CompilationUnit.ofTree "E.java" "enum E{A{class X{}};class B{}}".toList enumWithClasses = .ok unit ∧
        Correspondence "enum E{A{class X{}};class B{}}".toList enumWithClasses.children unit.types node := by
  have hprogram : enumWithClasses.isKind .program = true := by decide
  have hconforms : enumWithClasses.Conforms alternatives := Tree.conforms_of_fits enumWithClasses (by decide)
  exact ⟨hprogram, hconforms, CompilationUnit.ofTree_corresponds _ _ hprogram hconforms⟩

end ClassDiagram
