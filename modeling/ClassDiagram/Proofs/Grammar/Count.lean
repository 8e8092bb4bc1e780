/-
How many children of a kind a phrase can have. The rules are followed with bounds in place of rows:
those of a sequence are added, those of a choice joined, and a hidden phrase counts with what it
stands for. The children of every tree of the grammar lie within the bounds.
-/
import ClassDiagram.Proofs.Grammar.Conformance

namespace ClassDiagram.Grammar

/-! ## Bounds on a number -/

/-- A lower bound, and perhaps an upper one. -/
structure Bounds where
  least : Nat
  most : Option Nat
  deriving DecidableEq

namespace Bounds

def Hold (b : Bounds) (n : Nat) : Prop := b.least ≤ n ∧ ∀ m ∈ b.most, n ≤ m

def exactly (n : Nat) : Bounds := ⟨n, some n⟩

/-- The bounds that say nothing. -/
def trivial : Bounds := ⟨0, none⟩

def add (a b : Bounds) : Bounds := ⟨a.least + b.least, a.most.bind fun m => b.most.map (m + ·)⟩

def join (a b : Bounds) : Bounds := ⟨min a.least b.least, a.most.bind fun m => b.most.map (max m)⟩

/-- One or more times. -/
def many (b : Bounds) : Bounds := ⟨b.least, if b.most = some 0 then some 0 else none⟩

theorem hold_exactly (n : Nat) : (exactly n).Hold n :=
  ⟨Nat.le_refl n, fun _ hm => Nat.le_of_eq (Option.some.inj hm)⟩

theorem hold_trivial (n : Nat) : trivial.Hold n := ⟨Nat.zero_le n, fun _ hm => nomatch hm⟩

theorem Hold.eq_of_exactly {b : Bounds} {m n : Nat} (h : b.Hold m) (hb : b = exactly n) : m = n := by
  subst hb
  exact Nat.le_antisymm (h.2 n rfl) h.1

theorem Hold.add {a b : Bounds} {m n : Nat} (ha : a.Hold m) (hb : b.Hold n) : (a.add b).Hold (m + n) := by
  refine ⟨Nat.add_le_add ha.1 hb.1, ?_⟩
  intro k hk
  obtain ⟨i, hi, hk⟩ := Option.bind_eq_some_iff.1 hk
  obtain ⟨j, hj, rfl⟩ := Option.map_eq_some_iff.1 hk
  exact Nat.add_le_add (ha.2 i hi) (hb.2 j hj)

theorem Hold.join_left {a : Bounds} {n : Nat} (h : a.Hold n) (b : Bounds) : (a.join b).Hold n := by
  refine ⟨Nat.le_trans (Nat.min_le_left ..) h.1, ?_⟩
  intro k hk
  obtain ⟨i, hi, hk⟩ := Option.bind_eq_some_iff.1 hk
  obtain ⟨j, -, rfl⟩ := Option.map_eq_some_iff.1 hk
  exact Nat.le_trans (h.2 i hi) (Nat.le_max_left ..)

theorem Hold.join_right {b : Bounds} {n : Nat} (h : b.Hold n) (a : Bounds) : (a.join b).Hold n := by
  refine ⟨Nat.le_trans (Nat.min_le_right ..) h.1, ?_⟩
  intro k hk
  obtain ⟨i, -, hk⟩ := Option.bind_eq_some_iff.1 hk
  obtain ⟨j, hj, rfl⟩ := Option.map_eq_some_iff.1 hk
  exact Nat.le_trans (h.2 j hj) (Nat.le_max_right ..)

theorem Hold.many {b : Bounds} {n : Nat} (h : b.Hold n) : b.many.Hold n := by
  refine ⟨h.1, ?_⟩
  intro k hk
  by_cases hb : b.most = some 0
  · exact Nat.le_trans (h.2 0 hb) (Nat.zero_le k)
  · rw [Bounds.many, if_neg hb] at hk
    cases hk

theorem Hold.many_add {b : Bounds} {m n : Nat} (hm : b.many.Hold m) (hn : b.Hold n) :
    b.many.Hold (m + n) := by
  refine ⟨Nat.le_add_right_of_le hm.1, ?_⟩
  intro k hk
  by_cases hb : b.most = some 0
  · have hm0 : m ≤ 0 := hm.2 0 (if_pos hb)
    have hn0 : n ≤ 0 := hn.2 0 hb
    omega
  · rw [Bounds.many, if_neg hb] at hk
    cases hk

end Bounds

/-! ## Bounds for rules -/

namespace Rule

/-- The bounds for the nodes of a rule with a property, given those for its phrases. -/
def bounds (phrase : (Slot → Bool) → Kind → Bounds) (q : Slot → Bool) : Rule → Bounds
  | .empty => .exactly 0
  | .symbol (.word w) => .exactly ([⟨none, .word w⟩].countP q)
  | .symbol (.kind k) => phrase q k
  | .symbol .finish => .trivial
  | .seq a b => (a.bounds phrase q).add (b.bounds phrase q)
  | .choice a b => (a.bounds phrase q).join (b.bounds phrase q)
  | .role p r => r.bounds phrase fun s => q (s.withRole p)
  | .shownAs k r => r.bounds phrase fun s => q (s.shownAs k)

/-- The item of which a rule makes a run. -/
def item? (k : Kind) : Rule → Option Rule
  | .choice item (.seq (.symbol (.kind j)) last) => if j = k ∧ last = item then some item else none
  | _ => none

theorem eq_run_of_item? {k : Kind} {r item : Rule} (h : r.item? k = some item) : r = run k item := by
  unfold item? at h
  split at h
  · split at h
    · rename_i hjk
      obtain ⟨rfl, rfl⟩ := hjk
      cases h
      rfl
    · cases h
  · cases h

/-- The phrases being within their bounds, so are the rules. -/
theorem Allows.bounds {rules : Kind → List Alternative} {phrase : (Slot → Bool) → Kind → Bounds}
    (hphrase : ∀ q k ss, (sub k).Allows rules ss → (phrase q k).Hold (ss.countP q)) (r : Rule) :
    ∀ q ss, r.Allows rules ss → (r.bounds phrase q).Hold (ss.countP q) := by
  induction r with
  | empty =>
    intro q ss h
    cases h
    exact Bounds.hold_exactly 0
  | symbol x =>
    intro q ss h
    cases x with
    | word w =>
      cases h
      exact Bounds.hold_exactly _
    | kind k => exact hphrase q k ss h
    | finish => exact Bounds.hold_trivial _
  | seq a b iha ihb =>
    intro q ss h
    cases h with
    | seq ha hb =>
      rw [List.countP_append]
      exact (iha q _ ha).add (ihb q _ hb)
  | choice a b iha ihb =>
    intro q ss h
    cases h with
    | left ha => exact (iha q ss ha).join_left _
    | right hb => exact (ihb q ss hb).join_right _
  | role p r ih =>
    intro q ss h
    cases h with
    | role hr =>
      rw [List.countP_map]
      exact ih _ _ hr
  | shownAs k r ih =>
    intro q ss h
    cases h with
    | shownAs hr =>
      rw [List.countP_map]
      exact ih _ _ hr

/-- A run of items is within their bounds taken one or more times. -/
theorem Allows.many {rules : Kind → List Alternative} {k : Kind} {item : Rule} {q : Slot → Bool}
    {b : Bounds} (hk : k.isHidden = true) (hrun : ∀ a ∈ rules k, a.body = run k item)
    (hitem : ∀ ss, item.Allows rules ss → b.Hold (ss.countP q)) {r : Rule} {ss : List Slot}
    (h : r.Allows rules ss) (hr : r = sub k ∨ r = .seq (sub k) item ∨ r = run k item) :
    b.many.Hold (ss.countP q) := by
  -- a run is unrolled through three rules, and the induction goes round them
  induction h with
  | empty => simp [sub, run] at hr
  | word w => simp [sub, run] at hr
  | role => simp [sub, run] at hr
  | shownAs => simp [sub, run] at hr
  | kind hj =>
    rcases hr with hr | hr | hr
    · cases hr
      rw [hk] at hj
      cases hj
    · cases hr
    · cases hr
  | hidden _ ha _ ih =>
    rcases hr with hr | hr | hr
    · cases hr
      exact ih (.inr (.inr (hrun _ ha)))
    · cases hr
    · cases hr
  | seq _ hlast ihrun _ =>
    rcases hr with hr | hr | hr
    · cases hr
    · cases hr
      rw [List.countP_append]
      exact (ihrun (.inl rfl)).many_add (hitem _ hlast)
    · cases hr
  | left hfirst =>
    rcases hr with hr | hr | hr
    · cases hr
    · cases hr
    · cases hr
      exact (hitem _ hfirst).many
  | right _ ih =>
    rcases hr with hr | hr | hr
    · cases hr
    · cases hr
    · cases hr
      exact ih (.inr (.inl rfl))

end Rule

/-! ## Bounds for phrases -/

/-- The bounds for the nodes of a list of alternatives. -/
def boundsOf (phrase : (Slot → Bool) → Kind → Bounds) (q : Slot → Bool) : List Alternative → Bounds
  | [] => .trivial
  | [a] => a.body.bounds phrase q
  | a :: as => (a.body.bounds phrase q).join (boundsOf phrase q as)

/-- The bounds for the nodes that a phrase puts into the phrase around it. Hidden phrases are opened
to the given depth. -/
def phraseBounds (rules : Kind → List Alternative) : Nat → (Slot → Bool) → Kind → Bounds
  | 0, _, _ => .trivial
  | depth + 1, q, k =>
    if k.isHidden then
      match rules k with
      | [a] =>
        match a.body.item? k with
        | some item => (item.bounds (phraseBounds rules depth) q).many
        | none => a.body.bounds (phraseBounds rules depth) q
      | as => boundsOf (phraseBounds rules depth) q as
    else .exactly ([⟨none, .kind k⟩].countP q)

section
variable {rules : Kind → List Alternative}

theorem hold_boundsOf {phrase : (Slot → Bool) → Kind → Bounds}
    (hphrase : ∀ q k ss, (Rule.sub k).Allows rules ss → (phrase q k).Hold (ss.countP q)) {q : Slot → Bool}
    {a : Alternative} {ss : List Slot} (h : a.body.Allows rules ss) :
    ∀ as, a ∈ as → (boundsOf phrase q as).Hold (ss.countP q)
  | [b], ha => by
    cases List.mem_singleton.1 ha
    exact Rule.Allows.bounds hphrase a.body q ss h
  | b :: c :: as, ha => by
    rw [boundsOf]
    · rcases List.mem_cons.1 ha with rfl | ha
      · exact (Rule.Allows.bounds hphrase a.body q ss h).join_left _
      · exact (hold_boundsOf hphrase h (c :: as) ha).join_right _
    · exact List.cons_ne_nil c as

theorem hold_phraseBounds (depth : Nat) : ∀ q k ss, (Rule.sub k).Allows rules ss →
    (phraseBounds rules depth q k).Hold (ss.countP q) := by
  induction depth with
  | zero => exact fun _ _ _ _ => Bounds.hold_trivial _
  | succ depth ih =>
    intro q k ss h
    rw [phraseBounds]
    cases h with
    | kind hk =>
      rw [hk]
      exact Bounds.hold_exactly _
    | hidden hk ha hbody =>
      rw [if_pos hk]
      split
      · rename_i a heq
        split
        · rename_i item hitem
          refine Rule.Allows.many hk ?_ (Rule.Allows.bounds ih item q) (.hidden hk ha hbody) (.inl rfl)
          intro b hb
          rw [heq, List.mem_singleton] at hb
          rw [hb]
          exact Rule.eq_run_of_item? hitem
        · rw [heq, List.mem_singleton] at ha
          rw [← ha]
          exact Rule.Allows.bounds ih _ q ss hbody
      · exact hold_boundsOf ih hbody _ ha

end

/-! ## Bounds for children -/

namespace Tree

/-- The bounds for the children of a node that have a property. -/
def childBounds (rules : Kind → List Alternative) (q : Slot → Bool) (k : Kind) : Bounds :=
  if k.isLeaf rules then .exactly 0 else boundsOf (phraseBounds rules hiddenDepth) q (rules k)

theorem countP_row {q : Slot → Bool} (hq : ∀ s ∈ Slot.comments, q s = false) (cs : List Tree) :
    (row cs).countP q = cs.countP fun c => q c.slot := by
  rw [row, List.countP_filter, List.countP_map]
  refine List.countP_congr fun c _ => ?_
  simp only [Function.comp_apply, Bool.and_eq_true, decide_eq_true_eq]
  constructor
  · exact fun h => h.1
  · intro h
    refine ⟨h, fun hc => ?_⟩
    rw [hq c.slot hc] at h
    cases h

section
variable {rules : Kind → List Alternative} {t : Tree} {k : Kind} {q : Slot → Bool}

/-- The children of a phrase are within its bounds. -/
theorem Conforms.hold_childBounds (h : t.Conforms rules) (hk : t.label = .kind k)
    (hq : ∀ s ∈ Slot.comments, q s = false) :
    (childBounds rules q k).Hold (t.children.countP fun c => q c.slot) := by
  cases h with
  | word => cases hk
  | leaf _ _ hleaf =>
    cases hk
    rw [childBounds, if_pos hleaf]
    exact Bounds.hold_exactly 0
  | phrase hleaf ha hrow _ =>
    cases hk
    rw [← countP_row hq, childBounds, hleaf]
    exact hold_boundsOf (hold_phraseBounds hiddenDepth) hrow _ ha

theorem Conforms.eq_false_of_mem (h : t.Conforms rules) (hk : t.label = .kind k)
    (hq : ∀ s ∈ Slot.comments, q s = false) (hb : (childBounds rules q k).most = some 0) {c : Tree}
    (hc : c ∈ t.children) : q c.slot = false := by
  have hn := (h.hold_childBounds hk hq).2 0 hb
  have h0 := List.countP_eq_zero.1 (Nat.le_zero.1 hn) c hc
  exact Bool.eq_false_iff.2 h0

/-- Where no child of a phrase has one property without another, a child with the one has the other. -/
theorem Conforms.imp_of_mem {p : Slot → Bool} (h : t.Conforms rules) (hk : t.label = .kind k)
    (hp : ∀ s ∈ Slot.comments, (p s && !q s) = false)
    (hb : (childBounds rules (fun s => p s && !q s) k).most = some 0) {c : Tree} (hc : c ∈ t.children)
    (hpc : p c.slot = true) : q c.slot = true := by
  have hfalse := h.eq_false_of_mem hk hp hb hc
  rw [hpc, Bool.true_and] at hfalse
  simpa using hfalse

theorem Conforms.exists_mem (h : t.Conforms rules) (hk : t.label = .kind k)
    (hq : ∀ s ∈ Slot.comments, q s = false) (hb : 0 < (childBounds rules q k).least) :
    ∃ c ∈ t.children, q c.slot = true := by
  have hn := (h.hold_childBounds hk hq).1
  exact List.countP_pos_iff.1 (Nat.lt_of_lt_of_le hb hn)

theorem findIdx?_eq_some_of_countP_le {α : Type} {p : α → Bool} {x : α} :
    ∀ {xs : List α} {i : Nat}, xs.countP p ≤ 1 → xs[i]? = some x → p x = true → xs.findIdx? p = some i
  | y :: ys, 0, _, hi, hx => by
    cases hi
    rw [List.findIdx?_cons, if_pos hx]
  | y :: ys, i + 1, hn, hi, hx => by
    have hmem : x ∈ ys := List.mem_of_getElem? hi
    have hpos : 0 < ys.countP p := List.countP_pos_iff.2 ⟨x, hmem, hx⟩
    rw [List.countP_cons] at hn
    have hy : p y = false := by
      cases hy : p y with
      | false => rfl
      | true =>
        rw [hy, if_pos rfl] at hn
        omega
    rw [hy] at hn
    rw [List.findIdx?_cons, hy, findIdx?_eq_some_of_countP_le hn hi hx]
    rfl

/-- Of what a phrase has at most once, the place is known wherever it stands. -/
theorem Conforms.findIdx?_eq_some (h : t.Conforms rules) (hk : t.label = .kind k)
    (hq : ∀ s ∈ Slot.comments, q s = false) (hb : (childBounds rules q k).most = some 1) {i : Nat} {c : Tree}
    (hi : t.children[i]? = some c) (hc : q c.slot = true) :
    t.children.findIdx? (fun c => q c.slot) = some i :=
  findIdx?_eq_some_of_countP_le ((h.hold_childBounds hk hq).2 1 hb) hi hc

end

end Tree

end ClassDiagram.Grammar
