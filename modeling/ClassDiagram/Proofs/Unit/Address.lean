/-
Addresses of nodes: the places among the siblings on the way down. A declaration node is reachable if
there are nothing but declarations and bodies around it. In a tree of the grammar, what is reachable
inside a declaration is reachable among the nodes where its members stand.
-/
import ClassDiagram.Proofs.Unit.Shape

namespace ClassDiagram

open ClassDiagram.Grammar ClassDiagram.Text

/-! ## Addresses -/

section
variable {α : Type} (inside : α → List α)

/-- What stands at an address below `x`. -/
def descend (x : α) : List Nat → Option α
  | [] => some x
  | i :: p => (inside x)[i]?.bind fun y => descend y p

/-- What stands at an address in a list. -/
def locate (xs : List α) : List Nat → Option α
  | [] => none
  | i :: p => xs[i]?.bind fun x => descend inside x p

theorem descend_of_locate {inside : α → List α} {x y : α} {a : List Nat}
    (h : locate inside (inside x) a = some y) : descend inside x a = some y := by
  cases a with
  | nil => cases h
  | cons => exact h

theorem locate_of_descend {inside : α → List α} {x y : α} {a : List Nat} (ha : a ≠ [])
    (h : descend inside x a = some y) : locate inside (inside x) a = some y := by
  cases a with
  | nil => exact absurd rfl ha
  | cons => exact h

end

/-- A declaration stands at the address, and all that is around it, down from the nodes of the list, are
declarations and bodies. -/
def Reachable (cs : List Tree) (a : List Nat) : Prop :=
  (∃ t, locate Tree.children cs a = some t ∧ t.label.declares = true) ∧
    ∀ b t, b <+: a → b ≠ a → locate Tree.children cs b = some t → t.label.opens = true

theorem not_reachable_nil (cs : List Tree) : ¬ Reachable cs [] := by
  rintro ⟨⟨t, ht, -⟩, -⟩
  cases ht

theorem Reachable.ne_nil {cs : List Tree} {a : List Nat} (h : Reachable cs a) : a ≠ [] := by
  rintro rfl
  exact not_reachable_nil cs h

/-- One step down. -/
theorem reachable_cons {cs : List Tree} {i : Nat} {a : List Nat} :
    Reachable cs (i :: a) ↔ ∃ c, cs[i]? = some c ∧
      (a = [] ∧ c.label.declares = true ∨ c.label.opens = true ∧ Reachable c.children a) := by
  constructor
  · rintro ⟨⟨t, ht, hd⟩, haround⟩
    obtain ⟨c, hc, ht⟩ := Option.bind_eq_some_iff.1 ht
    refine ⟨c, hc, ?_⟩
    cases a with
    | nil =>
      cases ht
      exact .inl ⟨rfl, hd⟩
    | cons j a =>
      refine .inr ⟨?_, ⟨t, ht, hd⟩, ?_⟩
      · refine haround [i] c (by simp) (by simp) ?_
        rw [locate, hc]
        rfl
      · intro b u hb hne hu
        refine haround (i :: b) u ((List.prefix_cons_inj i).2 hb) (by simpa using hne) ?_
        rw [locate, hc]
        cases b with
        | nil => cases hu
        | cons => exact hu
  · rintro ⟨c, hc, ⟨rfl, hd⟩ | ⟨hopen, ⟨t, ht, hd⟩, haround⟩⟩
    · refine ⟨⟨c, by rw [locate, hc]; rfl, hd⟩, ?_⟩
      intro b u hb hne hu
      rcases List.prefix_cons_iff.1 hb with rfl | ⟨e, rfl, he⟩
      · cases hu
      · rw [List.prefix_nil.1 he] at hne
        exact absurd rfl hne
    · refine ⟨⟨t, ?_, hd⟩, ?_⟩
      · rw [locate, hc]
        cases a with
        | nil => cases ht
        | cons => exact ht
      · intro b u hb hne hu
        rcases List.prefix_cons_iff.1 hb with rfl | ⟨e, rfl, he⟩
        · cases hu
        · rw [locate, hc] at hu
          cases e with
          | nil =>
            cases hu
            exact hopen
          | cons j e => exact haround (j :: e) u he (fun h => hne (by rw [h])) hu

theorem not_reachable {cs : List Tree} (h : ∀ c ∈ cs, c.label.opens = false) (a : List Nat) : ¬ Reachable cs a := by
  intro ha
  cases a with
  | nil => exact not_reachable_nil cs ha
  | cons i a =>
    obtain ⟨c, hc, ⟨-, hd⟩ | ⟨hopen, -⟩⟩ := reachable_cons.1 ha
    · have hno := h c (List.mem_of_getElem? hc)
      rw [Label.opens, hd] at hno
      cases hno
    · rw [h c (List.mem_of_getElem? hc)] at hopen
      cases hopen

/-- Where there is a sole body, all declarations are inside it. -/
theorem Sole.reachable_iff {cs : List Tree} {b : Nat} {body : Tree} (h : Sole cs b body) {a : List Nat} :
    Reachable cs a ↔ ∃ p, a = b :: p ∧ Reachable body.children p := by
  have hopens : body.label.opens = true := by rw [Label.opens, h.encloses, Bool.or_true]
  constructor
  · intro ha
    cases a with
    | nil => exact absurd ha (not_reachable_nil cs)
    | cons i a =>
      obtain ⟨c, hc, hrest⟩ := reachable_cons.1 ha
      have hc' : c.label.opens = true := by
        rcases hrest with ⟨-, hd⟩ | ⟨hopen, -⟩
        · rw [Label.opens, hd, Bool.true_or]
        · exact hopen
      have hi := h.unique i c hc hc'
      subst hi
      obtain rfl := Option.some.inj (hc.symm.trans h.getElem?)
      rcases hrest with ⟨-, hd⟩ | ⟨-, ha⟩
      · have hno := Label.encloses_of_declares hd
        rw [h.encloses] at hno
        cases hno
      · exact ⟨a, rfl, ha⟩
  · rintro ⟨p, rfl, hp⟩
    exact reachable_cons.2 ⟨body, h.getElem?, .inr ⟨hopens, hp⟩⟩

/-! ## From a declaration to its members -/

/-- The way from a declaration to the nodes among which its members stand. -/
def bodyPath (t : Tree) : List Nat :=
  match bodyIndex? t with
  | none => []
  | some b =>
    match t.children[b]? with
    | none => [b]
    | some body => b :: if body.isKind .enumBody then (afterConstants? body.children).toList else []

/-- There is one way, or two steps of it in an enum, and nothing is found beside it. -/
theorem exists_way {t : Tree} (h : t.Conforms alternatives) (hd : t.label.declares = true) :
    ∃ b body, Sole t.children b body ∧
      (bodyPath t = [b] ∧ memberNodes t = body.children ∨
        (∃ i c, Sole body.children i c ∧ bodyPath t = [b, i] ∧ memberNodes t = c.children) ∨
        memberNodes t = [] ∧ ∀ c ∈ body.children, c.label.opens = false) := by
  obtain ⟨b, body, hb, hsole⟩ := exists_body h hd
  have hbody := hsole.getElem?
  have hconforms := h.of_mem (List.mem_of_getElem? hbody)
  refine ⟨b, body, hsole, ?_⟩
  rcases Label.exists_of_encloses hsole.encloses with hl | ⟨k, hk, hl⟩
  · right
    cases hi : afterConstants? body.children with
    | none =>
      refine .inr ⟨memberNodes_of_constants hb hbody hl hi, fun c hc => ?_⟩
      obtain ⟨i, hc⟩ := List.mem_iff_getElem?.1 hc
      cases hopens : c.label.opens with
      | false => rfl
      | true =>
        rw [afterConstants?_eq_some hconforms hl hc hopens] at hi
        cases hi
    | some i =>
      obtain ⟨c, hc, hlabel⟩ := label_of_afterConstants? hi
      refine .inl ⟨i, c, ⟨hc, by rw [hlabel]; rfl, ?_⟩, ?_, memberNodes_of_enumBody hb hbody hl hi hc⟩
      · intro j e he hopens
        have hj := afterConstants?_eq_some hconforms hl he hopens
        exact Option.some.inj (hj.symm.trans hi)
      · simp only [bodyPath, hb, hbody, Tree.isKind, hl, beq_self_eq_true, if_true, hi, Option.toList_some]
  · left
    refine ⟨?_, memberNodes_of_scope hb hbody hk hl⟩
    have hne : ∀ k ∈ Label.scopes, (Label.kind k == .kind .enumBody) = false := by decide
    simp only [bodyPath, hb, hbody, Tree.isKind, hl, hne k hk, Bool.false_eq_true, if_false]

/-- What is reachable inside a declaration is reachable among its member nodes. -/
theorem reachable_children_iff {t : Tree} (h : t.Conforms alternatives) (hd : t.label.declares = true)
    {a : List Nat} : Reachable t.children a ↔ ∃ p, a = bodyPath t ++ p ∧ Reachable (memberNodes t) p := by
  obtain ⟨b, body, hsole, ⟨hpath, hmembers⟩ | ⟨i, c, hinner, hpath, hmembers⟩ | ⟨hmembers, hnone⟩⟩ :=
    exists_way h hd
  · rw [hsole.reachable_iff, hpath, hmembers]
    rfl
  · rw [hsole.reachable_iff, hpath, hmembers]
    constructor
    · rintro ⟨p, rfl, hp⟩
      obtain ⟨q, rfl, hq⟩ := hinner.reachable_iff.1 hp
      exact ⟨q, rfl, hq⟩
    · rintro ⟨q, rfl, hq⟩
      exact ⟨i :: q, rfl, hinner.reachable_iff.2 ⟨q, rfl, hq⟩⟩
  · rw [hsole.reachable_iff, hmembers]
    constructor
    · rintro ⟨p, -, hp⟩
      exact absurd hp (not_reachable hnone p)
    · rintro ⟨p, -, hp⟩
      exact absurd hp (not_reachable (fun _ hc => absurd hc List.not_mem_nil) p)

theorem descend_bodyPath {t c : Tree} (h : t.Conforms alternatives) (hd : t.label.declares = true) {a : List Nat}
    (ha : locate Tree.children (memberNodes t) a = some c) : descend Tree.children t (bodyPath t ++ a) = some c := by
  obtain ⟨b, body, hsole, ⟨hpath, hmembers⟩ | ⟨i, e, hinner, hpath, hmembers⟩ | ⟨hmembers, -⟩⟩ := exists_way h hd
  · rw [hmembers] at ha
    rw [hpath, List.singleton_append, descend, hsole.getElem?]
    exact descend_of_locate ha
  · rw [hmembers] at ha
    rw [hpath, List.cons_append, List.singleton_append, descend, hsole.getElem?, Option.bind_some, descend,
      hinner.getElem?]
    exact descend_of_locate ha
  · rw [hmembers] at ha
    cases a with
    | nil => cases ha
    | cons => cases ha

end ClassDiagram
