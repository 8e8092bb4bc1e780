/-
The types in the clauses of a declaration. A clause names a class type directly or behind annotations.
A declaration has at most one clause of each kind, so looking for the first one misses no type: the
types that are read are all class types in the clauses, in the order of the clauses.
-/
import ClassDiagram.Proofs.Grammar.Parts
import ClassDiagram.Proofs.Unit.Tidy

namespace ClassDiagram

open ClassDiagram.Grammar ClassDiagram.Text

/-! ## Looking for what is there once -/

section
variable {α β : Type} {p : α → Bool} {xs : List α} {x : α}

/-- Nothing before the only member with a property has it. -/
theorem exists_append_of_countP_le (hone : xs.countP p ≤ 1) (hx : x ∈ xs) (hp : p x = true) :
    ∃ before after, xs = before ++ x :: after ∧ ∀ y ∈ before, p y = false := by
  obtain ⟨before, after, rfl⟩ := List.append_of_mem hx
  refine ⟨before, after, rfl, ?_⟩
  rw [List.countP_append, List.countP_cons, hp, if_pos rfl] at hone
  have hnone : before.countP p = 0 := by omega
  exact fun y hy => Bool.eq_false_iff.2 (List.countP_eq_zero.1 hnone y hy)

theorem find?_eq_some_of_countP_le (hone : xs.countP p ≤ 1) (hx : x ∈ xs) (hp : p x = true) :
    xs.find? p = some x := by
  obtain ⟨before, after, hxs, hbefore⟩ := exists_append_of_countP_le hone hx hp
  refine List.find?_eq_some_iff_append.2 ⟨hp, before, after, hxs, fun y hy => ?_⟩
  rw [hbefore y hy]
  rfl

theorem findSome?_eq_some_of_countP_le {f : α → Option β} {b : β} (hf : ∀ y b, f y = some b → p y = true)
    (hone : xs.countP p ≤ 1) (hx : x ∈ xs) (hb : f x = some b) : xs.findSome? f = some b := by
  obtain ⟨before, after, hxs, hbefore⟩ := exists_append_of_countP_le hone hx (hf x b hb)
  refine List.findSome?_eq_some_iff.2 ⟨before, x, after, hxs, hb, fun y hy => ?_⟩
  cases hy' : f y with
  | none => rfl
  | some c => exact absurd ((hbefore y hy).symm.trans (hf y c hy')) Bool.false_ne_true

end

/-! ## Class types in clauses -/

/-- A class type that is the entry of a clause or stands behind the annotations of the entry. -/
def Names (entry n : Tree) : Prop :=
  isClassType n = true ∧ (n = entry ∨ entry.isKind .annotatedType = true ∧ n ∈ entry.children)

/-- A class type in an extends or implements clause of a declaration. -/
inductive InClause (t : Tree) : Tree → Prop
  | superclass {clause entry n : Tree} : clause ∈ t.children → clause.isKind .superclass = true →
      entry ∈ clause.children → Names entry n → InClause t n
  | listed {k : Kind} {clause list entry n : Tree} : k ∈ [Kind.superInterfaces, .extendsInterfaces] →
      clause ∈ t.children → clause.isKind k = true → list ∈ clause.children → list.isKind .typeList = true →
      entry ∈ list.children → Names entry n → InClause t n

section
variable {t n entry : Tree}

theorem isClassType_iff : isClassType t = true ↔ t.label ∈ Label.classTypes := by
  simp [isClassType, Tree.isKind, Label.classTypes, or_assoc]

/-- What may be or hold the class type of an entry. -/
def entryLabels : List Label := .kind .annotatedType :: Label.classTypes

theorem Names.label_mem (h : Names entry n) : entry.label ∈ entryLabels := by
  obtain ⟨hn, rfl | ⟨hentry, -⟩⟩ := h
  · exact List.mem_cons_of_mem _ (isClassType_iff.1 hn)
  · rw [eq_of_beq hentry]
    decide

theorem isNamed_of_mem_entryLabels : ∀ l ∈ entryLabels, l.isNamed = true := by decide

theorem countP_namedChildren_le {k : Kind} {q : Slot → Bool} (h : t.Conforms alternatives) (hl : t.label = .kind k)
    (hq : ∀ s ∈ Slot.comments, q s = false) (hb : (Tree.childBounds alternatives q k).most = some 1) :
    t.namedChildren.countP (fun c => q c.slot) ≤ 1 :=
  Nat.le_trans List.filter_sublist.countP_le ((h.hold_childBounds hl hq).2 1 hb)

theorem names_of_classType? (h : classType? entry = some n) : Names entry n := by
  unfold classType? at h
  split at h
  · rename_i hentry
    cases h
    exact ⟨hentry, .inl rfl⟩
  · split at h
    · rename_i hannotated
      have hmem := (List.mem_filter.1 (List.mem_of_find?_eq_some h)).1
      exact ⟨List.find?_some h, .inr ⟨hannotated, hmem⟩⟩
    · cases h

/-- An entry names at most one class type, so the first one is found. -/
theorem Names.classType?_eq_some (h : Names entry n) (hc : entry.Conforms alternatives) :
    classType? entry = some n := by
  obtain ⟨hn, rfl | ⟨hentry, hmem⟩⟩ := h
  · rw [classType?, if_pos hn]
  · have hl : entry.label = .kind .annotatedType := eq_of_beq hentry
    have hnot : ¬ isClassType entry = true := by
      rw [isClassType_iff, hl]
      decide
    have hnamed : n ∈ entry.namedChildren :=
      List.mem_filter.2 ⟨hmem, isNamed_of_mem_entryLabels _ (List.mem_cons_of_mem _ (isClassType_iff.1 hn))⟩
    have hone := countP_namedChildren_le (q := fun s => decide (s.label ∈ Label.classTypes)) hc hl (by decide)
      (by decide)
    have heq : isClassType = fun c : Tree => decide (c.slot.label ∈ Label.classTypes) := by
      funext c
      rw [Bool.eq_iff_iff, isClassType_iff, decide_eq_true_iff, Tree.slot]
    rw [classType?, if_neg hnot, if_pos hentry]
    exact find?_eq_some_of_countP_le (heq ▸ hone) hnamed hn

/-! ## All types in the clauses are read -/

theorem child?_eq_some_iff {k j : Kind} {c : Tree} (h : t.Conforms alternatives) (hl : t.label = .kind j)
    (hk : k ≠ .lineComment ∧ k ≠ .blockComment)
    (hb : (Tree.childBounds alternatives (fun s => s.label == .kind k) j).most = some 1) :
    t.child? k = some c ↔ c ∈ t.children ∧ c.isKind k = true := by
  constructor
  · intro hc
    exact ⟨List.mem_of_find?_eq_some hc, List.find?_some hc⟩
  · rintro ⟨hc, hkind⟩
    have hq : ∀ s ∈ Slot.comments, (s.label == Label.kind k) = false := by
      simp [Slot.comments, Ne.symm hk.1, Ne.symm hk.2]
    exact find?_eq_some_of_countP_le ((h.hold_childBounds hl hq).2 1 hb) hc hkind

/-- The types listed in a clause that a declaration has at most once. -/
theorem mem_listedNodes_iff {j k : Kind} (h : t.Conforms alternatives) (hl : t.label = .kind j)
    (hk : k ∈ [Kind.superInterfaces, .extendsInterfaces])
    (hb : (Tree.childBounds alternatives (fun s => s.label == .kind k) j).most = some 1) :
    n ∈ listedNodes t k ↔ ∃ clause ∈ t.children, clause.isKind k = true ∧ ∃ list ∈ clause.children,
      list.isKind .typeList = true ∧ ∃ entry ∈ list.children, Names entry n := by
  have hcomment : ∀ k ∈ [Kind.superInterfaces, .extendsInterfaces], k ≠ .lineComment ∧ k ≠ .blockComment := by decide
  have hlist : ∀ k ∈ [Kind.superInterfaces, .extendsInterfaces],
      (Tree.childBounds alternatives (fun s => s.label == .kind .typeList) k).most = some 1 := by decide
  constructor
  · intro hn
    unfold listedNodes at hn
    cases hfound : (t.child? k).bind (·.child? .typeList) with
    | none =>
      rw [hfound] at hn
      cases hn
    | some list =>
      obtain ⟨clause, hclause, hchild⟩ := Option.bind_eq_some_iff.1 hfound
      rw [hfound] at hn
      obtain ⟨entry, hentry, hnames⟩ := List.mem_filterMap.1 hn
      exact ⟨clause, List.mem_of_find?_eq_some hclause, List.find?_some hclause, list,
        List.mem_of_find?_eq_some hchild, List.find?_some hchild, entry, (List.mem_filter.1 hentry).1,
        names_of_classType? hnames⟩
  · rintro ⟨clause, hclause, hkind, list, hmem, hlk, entry, hentry, hnames⟩
    have hcc := h.of_mem hclause
    -- the clause and the list in it are the only ones, so both look-ups end at them
    have hfirst := (child?_eq_some_iff h hl (hcomment k hk) hb).2 ⟨hclause, hkind⟩
    have hsecond := (child?_eq_some_iff hcc (eq_of_beq hkind) (by decide) (hlist k hk)).2 ⟨hmem, hlk⟩
    have hnamed := isNamed_of_mem_entryLabels _ hnames.label_mem
    rw [listedNodes, hfirst, Option.bind_some, hsecond]
    exact List.mem_filterMap.2 ⟨entry, List.mem_filter.2 ⟨hentry, hnamed⟩,
      hnames.classType?_eq_some ((hcc.of_mem hmem).of_mem hentry)⟩

/-- The type in the extends clause of a class. -/
theorem superclassNode?_eq_some_iff (h : t.Conforms alternatives) (hl : t.label = .kind .classDeclaration) :
    superclassNode? t = some n ↔ ∃ clause ∈ t.children, clause.isKind .superclass = true ∧
      ∃ entry ∈ clause.children, Names entry n := by
  constructor
  · intro hn
    obtain ⟨clause, hclause, hfound⟩ := Option.bind_eq_some_iff.1 hn
    obtain ⟨entry, hentry, hnames⟩ := List.exists_of_findSome?_eq_some hfound
    exact ⟨clause, List.mem_of_find?_eq_some hclause, List.find?_some hclause, entry, (List.mem_filter.1 hentry).1,
      names_of_classType? hnames⟩
  · rintro ⟨clause, hclause, hkind, entry, hentry, hnames⟩
    have hcc := h.of_mem hclause
    have hfirst := (child?_eq_some_iff h hl (by decide) (by decide)).2 ⟨hclause, hkind⟩
    have hnamed := isNamed_of_mem_entryLabels _ hnames.label_mem
    -- of the children of the clause only the type can be an entry
    have hone := countP_namedChildren_le (q := fun s => decide (s.label ∈ entryLabels)) hcc (eq_of_beq hkind)
      (by decide) (by decide)
    rw [superclassNode?, hfirst, Option.bind_some]
    refine findSome?_eq_some_of_countP_le ?_ hone (List.mem_filter.2 ⟨hentry, hnamed⟩)
      (hnames.classType?_eq_some (hcc.of_mem hentry))
    exact fun e m he => decide_eq_true (names_of_classType? he).label_mem

end

/-- The types that are read off a class or an interface are the class types in its clauses. -/
theorem mem_typeNodes_iff {t n : Tree} {kind : DeclarationKind} (h : t.Conforms alternatives)
    (hkind : DeclarationKind.ofNode? t = some kind) (hmodeled : kind = .classType ∨ kind = .interfaceType) :
    n ∈ typeNodes t ↔ InClause t n := by
  have hl := DeclarationKind.label_of_ofNode? hkind
  unfold typeNodes
  rw [hkind]
  cases kind with
  | classType =>
    have hnone : ∀ c ∈ t.children, c.isKind .extendsInterfaces = false := fun c hc =>
      h.eq_false_of_mem (q := fun s => s.label == .kind .extendsInterfaces) hl (by decide) (by decide) hc
    simp only [List.mem_append, mem_listedNodes_iff h hl (k := .superInterfaces) (by decide) (by decide),
      Option.mem_toList, superclassNode?_eq_some_iff h hl]
    constructor
    · rintro (⟨clause, hc, hk, list, hlist, hlk, entry, hentry, hnames⟩ | ⟨clause, hc, hk, entry, hentry, hnames⟩)
      · exact .listed (by decide) hc hk hlist hlk hentry hnames
      · exact .superclass hc hk hentry hnames
    · rintro (⟨hc, hk, hentry, hnames⟩ | ⟨hclause, hc, hk, hlist, hlk, hentry, hnames⟩)
      · exact .inr ⟨_, hc, hk, _, hentry, hnames⟩
      · rcases List.mem_pair.1 hclause with rfl | rfl
        · exact .inl ⟨_, hc, hk, _, hlist, hlk, _, hentry, hnames⟩
        · exact absurd ((hnone _ hc).symm.trans hk) Bool.false_ne_true
  | interfaceType =>
    have hnone : ∀ c ∈ t.children, (c.isKind .superclass || c.isKind .superInterfaces) = false := fun c hc =>
      h.eq_false_of_mem (q := fun s => s.label == .kind .superclass || s.label == .kind .superInterfaces) hl (by decide)
        (by decide) hc
    simp only [mem_listedNodes_iff h hl (k := .extendsInterfaces) (by decide) (by decide)]
    constructor
    · rintro ⟨clause, hc, hk, list, hlist, hlk, entry, hentry, hnames⟩
      exact .listed (by decide) hc hk hlist hlk hentry hnames
    · rintro (⟨hc, hk, hentry, hnames⟩ | ⟨hclause, hc, hk, hlist, hlk, hentry, hnames⟩)
      · exact absurd hk (by simp [(Bool.or_eq_false_iff.1 (hnone _ hc)).1])
      · rcases List.mem_pair.1 hclause with rfl | rfl
        · exact absurd hk (by simp [(Bool.or_eq_false_iff.1 (hnone _ hc)).2])
        · exact ⟨_, hc, hk, _, hlist, hlk, _, hentry, hnames⟩
  | enumType => simp at hmodeled
  | recordType => simp at hmodeled

/-- A class type in a clause is a node of the declaration. -/
theorem InClause.mem_nodes {t n : Tree} (h : InClause t n) : isClassType n = true ∧ n ∈ t.nodes := by
  have hentry : ∀ {entry : Tree}, Names entry n → isClassType n = true ∧ n ∈ entry.nodes := by
    rintro entry ⟨hn, rfl | ⟨-, hmem⟩⟩
    · exact ⟨hn, n.self_mem_nodes⟩
    · exact ⟨hn, Tree.mem_nodes_of_child hmem n.self_mem_nodes⟩
  cases h with
  | superclass hc _ he hnames =>
    obtain ⟨hn, hmem⟩ := hentry hnames
    exact ⟨hn, Tree.mem_nodes_of_child hc (Tree.mem_nodes_of_child he hmem)⟩
  | listed _ hc _ hlist _ he hnames =>
    obtain ⟨hn, hmem⟩ := hentry hnames
    exact ⟨hn, Tree.mem_nodes_of_child hc (Tree.mem_nodes_of_child hlist (Tree.mem_nodes_of_child he hmem))⟩

end ClassDiagram
