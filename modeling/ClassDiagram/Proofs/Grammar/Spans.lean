/-
Where the nodes of a tree stand. The trees that a reading builds have no comments in them yet: each
phrase is one of the grammar and reaches from its first part to its last, and the parts stand one
after the other. So the words stand in the order of the text, and a phrase begins where its first
word does and ends where its last word does.
-/
import ClassDiagram.Proofs.Grammar.Productions

namespace ClassDiagram.Grammar

open ClassDiagram.Text

/-! ## Order -/

namespace Tree

/-- The nodes stand one after the other between two positions. -/
def InOrder : Nat → List Tree → Nat → Prop
  | a, [], b => a ≤ b
  | a, t :: ts, b => a ≤ t.span.start ∧ t.span.start ≤ t.span.stop ∧ InOrder t.span.stop ts b

theorem InOrder.le : ∀ {ts : List Tree} {a b : Nat}, InOrder a ts b → a ≤ b
  | [], _, _, h => h
  | _ :: _, _, _, ⟨h, h', hs⟩ => Nat.le_trans h (Nat.le_trans h' hs.le)

theorem InOrder.mono : ∀ {ts : List Tree} {a a' b b' : Nat}, InOrder a ts b → a' ≤ a → b ≤ b' → InOrder a' ts b'
  | [], _, _, _, _, h, ha, hb => Nat.le_trans ha (Nat.le_trans h hb)
  | _ :: _, _, _, _, _, ⟨h, h', hs⟩, ha, hb => ⟨Nat.le_trans ha h, h', hs.mono (Nat.le_refl _) hb⟩

theorem inOrder_append_iff : ∀ {xs ys : List Tree} {a b : Nat},
    InOrder a (xs ++ ys) b ↔ ∃ m, InOrder a xs m ∧ InOrder m ys b
  | [], ys, a, b => ⟨fun h => ⟨a, Nat.le_refl a, h⟩, fun ⟨_, hm, h⟩ => h.mono hm (Nat.le_refl b)⟩
  | x :: xs, ys, a, b => by
    rw [List.cons_append, InOrder, inOrder_append_iff]
    constructor
    · rintro ⟨h, h', m, hxs, hys⟩
      exact ⟨m, ⟨h, h', hxs⟩, hys⟩
    · rintro ⟨m, ⟨h, h', hxs⟩, hys⟩
      exact ⟨h, h', m, hxs, hys⟩

theorem InOrder.of_mem {t : Tree} : ∀ {ts : List Tree} {a b : Nat}, InOrder a ts b → t ∈ ts →
    a ≤ t.span.start ∧ t.span.start ≤ t.span.stop ∧ t.span.stop ≤ b
  | u :: us, a, b, ⟨h, h', hs⟩, ht => by
    rcases List.mem_cons.1 ht with rfl | ht
    · exact ⟨h, h', hs.le⟩
    · have ih := hs.of_mem ht
      omega

/-- The order is a matter of the stretches alone. -/
theorem inOrder_congr : ∀ {xs ys : List Tree} {a b : Nat}, xs.map span = ys.map span → InOrder a xs b →
    InOrder a ys b
  | [], [], _, _, _, h => h
  | x :: xs, y :: ys, a, b, hspan, h => by
    obtain ⟨hxy, hspan⟩ := List.cons.inj hspan
    rw [InOrder, hxy] at h
    exact ⟨h.1, h.2.1, inOrder_congr hspan h.2.2⟩

/-! ## Phrases -/

/-- The nodes stand in order, and the stretch reaches from the first to the last of them. -/
structure Covers (s : Span) (cs : List Tree) : Prop where
  ordered : InOrder s.start cs s.stop
  first : cs.head?.map (·.span.start) = some s.start
  last : cs.getLast?.map (·.span.stop) = some s.stop

theorem InOrder.getLast_le {ts : List Tree} {t : Tree} : ∀ {a b : Nat}, InOrder a ts b → ts.getLast? = some t →
    InOrder a ts t.span.stop := by
  induction ts with
  | nil => exact nofun
  | cons u us ih =>
    intro a b h ht
    obtain ⟨h, h', hs⟩ := h
    cases us with
    | nil =>
      cases ht
      exact ⟨h, h', Nat.le_refl _⟩
    | cons v vs => exact ⟨h, h', ih hs (by rwa [List.getLast?_cons_cons] at ht)⟩

theorem covers_phrase (k : Kind) {parts : List Tree} {a b : Nat} (hne : parts ≠ []) (h : InOrder a parts b) :
    Covers (phrase k parts).span parts ∧ InOrder a [phrase k parts] b := by
  obtain ⟨c, cs, rfl⟩ := List.exists_cons_of_ne_nil hne
  obtain ⟨l, hl⟩ : ∃ l, (c :: cs).getLast? = some l := Option.isSome_iff_exists.1 (by simp)
  have hspan : (phrase k (c :: cs)).span = ⟨c.span.start, l.span.stop⟩ := by
    simp only [phrase, span, hl]
    rfl
  have hlast := h.getLast_le hl
  have hinner : InOrder c.span.start (c :: cs) l.span.stop := ⟨Nat.le_refl _, hlast.2.1, hlast.2.2⟩
  rw [InOrder, InOrder, hspan]
  refine ⟨⟨hinner, rfl, ?_⟩, h.1, hinner.le, ?_⟩
  · rw [hl]
    rfl
  · exact (h.of_mem (List.mem_of_getLast? hl)).2.2

end Tree

/-! ## Trees of a reading -/

section
variable {rules : Kind → List Alternative}

/-- What a word may be: no comment, and no phrase unless it is a keyword. -/
def Label.isWordOf (rules : Kind → List Alternative) : Label → Bool
  | .kind k => k.isKeyword || k.isSpelling rules
  | _ => true

namespace Tree

/-- The trees that a reading builds. -/
inductive Built (rules : Kind → List Alternative) : Tree → Prop
  | word {r : Option Role} {l : Label} {s : Span} : l.isWordOf rules = true → Built rules (.node r l s [])
  | phrase {r : Option Role} {k : Kind} {s : Span} {cs : List Tree} {a : Alternative} : k.isLeaf rules = false →
      a ∈ rules k → a.body.Allows rules (cs.map slot) → Covers s cs → (∀ c ∈ cs, Built rules c) →
      Built rules (.node r (.kind k) s cs)

theorem Built.withRole {t : Tree} (r : Role) (h : t.Built rules) : (t.withRole r).Built rules := by
  cases h with
  | word h => exact .word h
  | phrase hk ha hrow hcovers hcs => exact .phrase hk ha hrow hcovers hcs

theorem Built.shownAs {t : Tree} {k : Kind} (hk : (Label.kind k).isWordOf rules = true) (h : t.Built rules)
    (hleaf : t.children = []) : (t.shownAs k).Built rules := by
  obtain ⟨r, l, s, cs⟩ := t
  cases hleaf
  refine .word ?_
  split
  · next hfault =>
    cases h with
    | word h => exact h
    | phrase => cases hfault
  · exact hk

/-- What is read for a word is this word. -/
theorem label_eq_of_allows {s : Symbol} {parts : List Tree} {t : Tree} (hs : s.isWord rules = true)
    (h : (Rule.symbol s).Allows rules (parts.map slot)) (ht : t ∈ parts) : t.label = s.label := by
  have hslot : t.slot ∈ parts.map slot := List.mem_map_of_mem ht
  generalize parts.map slot = row at h hslot
  cases h with
  | word w =>
    rw [List.mem_singleton] at hslot
    exact congrArg Slot.label hslot
  | kind =>
    rw [List.mem_singleton] at hslot
    exact congrArg Slot.label hslot
  | hidden _ ha =>
    rw [List.isEmpty_iff.1 hs] at ha
    cases ha

theorem Built.children_eq_nil {t : Tree} {s : Symbol} (h : t.Built rules) (hs : s.isWord rules = true)
    (hl : t.label = s.label) : t.children = [] := by
  cases h with
  | word => rfl
  | phrase _ ha =>
    cases s with
    | kind k =>
      cases hl
      rw [List.isEmpty_iff.1 hs] at ha
      cases ha
    | word => cases hl
    | finish => cases hs

/-- What a step reads is built also as the step shows it. -/
theorem Built.dress {t : Tree} {step : Step} {parts : List Tree} (h : t.Built rules)
    (hshows : step.symbol.showsAs rules step.shown = true)
    (hparts : (Rule.symbol step.symbol).Allows rules (parts.map slot)) (ht : t ∈ parts) :
    (step.dress t).Built rules := by
  obtain ⟨symbol, role, shown⟩ := step
  have hshown : ∀ k, shown = some k → (t.shownAs k).Built rules := by
    rintro k rfl
    simp only [Symbol.showsAs, Option.all_some, Bool.and_eq_true] at hshows
    obtain ⟨-, hk, hword⟩ := hshows
    exact h.shownAs (Bool.or_eq_true_iff.2 (.inr hk)) (h.children_eq_nil hword (label_eq_of_allows hword hparts ht))
  cases role <;> cases shown
  · exact h
  · exact hshown _ rfl
  · exact h.withRole _
  · exact (hshown _ rfl).withRole _

end Tree

end

end ClassDiagram.Grammar
