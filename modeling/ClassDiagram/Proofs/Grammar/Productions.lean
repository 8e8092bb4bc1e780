/-
What the productions of a grammar stand for, and what the states of a reading say about them. A
production comes from an alternative of its phrase: a row of nodes that its steps allow is a row that
the alternative allows. In every state the steps that an item has behind it are those of the symbols
read last.
-/
import ClassDiagram.Grammar.Reading
import ClassDiagram.Proofs.Grammar.Conformance
import Mathlib.Tactic.SplitIfs

namespace ClassDiagram.Grammar

variable {rules : Kind → List Alternative}

/-! ## Rows that steps allow -/

/-- How a step shows what is read there. -/
def Step.dressSlot (step : Step) (s : Slot) : Slot :=
  let s := match step.shown with
    | some k => s.shownAs k
    | none => s
  match step.role with
  | some r => s.withRole r
  | none => s

theorem Step.slot_dress (step : Step) (t : Tree) : (step.dress t).slot = step.dressSlot t.slot := by
  obtain ⟨symbol, role, shown⟩ := step
  obtain ⟨r, l, s, cs⟩ := t
  cases role <;> cases shown <;> rfl

theorem Step.dressSlot_withRole (p : Role) (step : Step) (s : Slot) :
    ({ step with role := some p } : Step).dressSlot s = Slot.withRole p (step.dressSlot s) := by
  obtain ⟨symbol, role, shown⟩ := step
  cases role <;> rfl

theorem Step.dressSlot_shownAs (k : Kind) (step : Step) (s : Slot) :
    ({ step with shown := some k } : Step).dressSlot s = Slot.shownAs k (step.dressSlot s) := by
  obtain ⟨symbol, role, shown⟩ := step
  obtain ⟨r, l⟩ := s
  cases role <;> cases shown <;> cases l <;> rfl

/-- The rows of nodes that a sequence of steps allows. -/
inductive StepsAllow (rules : Kind → List Alternative) : List Step → List Slot → Prop
  | nil : StepsAllow rules [] []
  | cons {step : Step} {steps : List Step} {ss ts : List Slot} : (Rule.symbol step.symbol).Allows rules ss →
      StepsAllow rules steps ts → StepsAllow rules (step :: steps) (ss.map step.dressSlot ++ ts)

namespace StepsAllow

theorem exists_append : ∀ {xs ys : List Step} {ss : List Slot}, StepsAllow rules (xs ++ ys) ss →
    ∃ ts us, ss = ts ++ us ∧ StepsAllow rules xs ts ∧ StepsAllow rules ys us
  | [], ys, ss, h => ⟨[], ss, rfl, .nil, h⟩
  | x :: xs, ys, _, h => by
    cases h with
    | cons hx h =>
      obtain ⟨ts, us, rfl, hxs, hys⟩ := exists_append h
      exact ⟨_, us, (List.append_assoc ..).symm, .cons hx hxs, hys⟩

/-- If the steps are changed in one way, so are the rows. -/
theorem exists_map {f : Step → Step} {g : Slot → Slot} {xs : List Step} {ss : List Slot}
    (h : StepsAllow rules (xs.map f) ss) (hsymbol : ∀ step, (f step).symbol = step.symbol)
    (hdress : ∀ step s, (f step).dressSlot s = g (step.dressSlot s)) :
    ∃ ts, ss = ts.map g ∧ StepsAllow rules xs ts := by
  induction xs generalizing ss with
  | nil =>
    cases h
    exact ⟨[], rfl, .nil⟩
  | cons x xs ih =>
    cases h with
    | cons hx h =>
      obtain ⟨ts, rfl, hxs⟩ := ih h
      rw [hsymbol] at hx
      refine ⟨_, ?_, .cons hx hxs⟩
      rw [List.map_append, List.map_map]
      congr 1
      exact List.map_congr_left fun s _ => hdress x s

end StepsAllow

namespace Rule

/-- What one of the forms of a rule allows, the rule allows. -/
theorem allows_of_mem_forms (r : Rule) : ∀ {steps : List Step} {ss : List Slot}, steps ∈ r.forms →
    StepsAllow rules steps ss → r.Allows rules ss := by
  induction r with
  | empty =>
    intro steps ss hs h
    cases List.mem_singleton.1 hs
    cases h
    exact .empty
  | symbol s =>
    intro steps ss hs h
    cases List.mem_singleton.1 hs
    cases h with
    | cons hx h =>
      cases h
      rw [List.append_nil]
      exact (List.map_id _).symm ▸ hx
  | seq a b iha ihb =>
    intro steps ss hs h
    obtain ⟨first, hfirst, hs⟩ := List.mem_flatMap.1 hs
    obtain ⟨second, hsecond, rfl⟩ := List.mem_map.1 hs
    obtain ⟨ts, us, rfl, hts, hus⟩ := h.exists_append
    exact .seq (iha hfirst hts) (ihb hsecond hus)
  | choice a b iha ihb =>
    intro steps ss hs h
    rcases List.mem_append.1 hs with hs | hs
    · exact .left (iha hs h)
    · exact .right (ihb hs h)
  | role p r ih =>
    intro steps ss hs h
    obtain ⟨inner, hinner, rfl⟩ := List.mem_map.1 hs
    obtain ⟨ts, rfl, hts⟩ := h.exists_map (fun _ => rfl) (Step.dressSlot_withRole p)
    exact .role (ih hinner hts)
  | shownAs k r ih =>
    intro steps ss hs h
    obtain ⟨inner, hinner, rfl⟩ := List.mem_map.1 hs
    obtain ⟨ts, rfl, hts⟩ := h.exists_map (fun _ => rfl) (Step.dressSlot_shownAs k)
    exact .shownAs (ih hinner hts)

theorem exists_allows_of_any {ss : List Slot} : ∀ {rs : List Rule}, rs ≠ [] → (any rs).Allows rules ss →
    ∃ r ∈ rs, r.Allows rules ss
  | [r], _, h => ⟨r, List.mem_singleton_self r, h⟩
  | r :: s :: rs, _, h => by
    cases h with
    | left h => exact ⟨r, List.mem_cons_self .., h⟩
    | right h =>
      obtain ⟨x, hx, h⟩ := exists_allows_of_any (List.cons_ne_nil s rs) h
      exact ⟨x, List.mem_cons_of_mem r hx, h⟩

/-- The phrase as a choice between its alternatives. -/
def definition (rules : Kind → List Alternative) (k : Kind) : Rule := any ((rules k).map (·.body))

/-- Phrases that are spread are hidden and have alternatives. -/
def SpreadsHidden (rules : Kind → List Alternative) : Prop :=
  ∀ k : Kind, k.isSpread = true → k.isHidden = true ∧ rules k ≠ []

/-- A rule with phrases spread allows nothing more. -/
theorem allows_of_allows_spread (hspread : SpreadsHidden rules) (r : Rule) : ∀ {ss : List Slot},
    (r.spread (definition rules)).Allows rules ss → r.Allows rules ss := by
  induction r with
  | empty => exact id
  | symbol s =>
    intro ss h
    cases s with
    | word w => exact h
    | finish => exact h
    | kind k =>
      rw [spread] at h
      split at h
      · next hk =>
        obtain ⟨hhidden, hne⟩ := hspread k hk
        obtain ⟨r, hr, h⟩ := exists_allows_of_any (by simpa using hne) h
        obtain ⟨a, ha, rfl⟩ := List.mem_map.1 hr
        exact .hidden hhidden ha h
      · exact h
  | seq a b iha ihb =>
    intro ss h
    cases h with
    | seq ha hb => exact .seq (iha ha) (ihb hb)
  | choice a b iha ihb =>
    intro ss h
    cases h with
    | left h => exact .left (iha h)
    | right h => exact .right (ihb h)
  | role p r ih =>
    intro ss h
    cases h with
    | role h => exact .role (ih h)
  | shownAs k r ih =>
    intro ss h
    cases h with
    | shownAs h => exact .shownAs (ih h)

end Rule

/-! ## What is shown in place of what -/

/-- A kind of words that are no comments. -/
def Kind.isSpelling (rules : Kind → List Alternative) (k : Kind) : Bool :=
  (rules k).isEmpty && k != .lineComment && k != .blockComment

/-- Whether a word stands for itself only: it is made of nothing else. -/
def Symbol.isWord (rules : Kind → List Alternative) : Symbol → Bool
  | .word _ => true
  | .kind k => (rules k).isEmpty
  | .finish => false

/-- A step reads a word or a phrase; only a word may be shown as one of another kind. -/
def Symbol.showsAs (rules : Kind → List Alternative) (s : Symbol) (shown : Option Kind) : Bool :=
  s != .finish && shown.all fun k => k.isSpelling rules && s.isWord rules

/-- Whether all steps of the rule may be shown as they are, all of them as the given kind if there is one. -/
def Rule.isProper (rules : Kind → List Alternative) : Rule → Option Kind → Bool
  | .empty, _ => true
  | .symbol s, shown => s.showsAs rules shown
  | .seq a b, shown | .choice a b, shown => a.isProper rules shown && b.isProper rules shown
  | .role _ r, shown => r.isProper rules shown
  | .shownAs k r, shown => r.isProper rules (shown.or (some k))

/-- Whether the rule is a single keyword or mark. -/
def Rule.isWord : Rule → Bool
  | .symbol (.word _) => true
  | _ => false

/-- The kinds of words that are found in a text by their spelling. -/
def scannedKinds : List Kind :=
  [.identifier, .decimalIntegerLiteral, .hexIntegerLiteral, .octalIntegerLiteral, .binaryIntegerLiteral,
    .decimalFloatingPointLiteral, .hexFloatingPointLiteral, .characterLiteral, .stringFragment, .textBlockFragment,
    .plainEscape, .escapeSequence]

/-- What the reader relies on in a grammar. -/
structure WellMade (rules : Kind → List Alternative) : Prop where
  spreadsHidden : Rule.SpreadsHidden rules
  proper : ∀ k, ∀ a ∈ rules k, a.body.isProper rules none = true
  scanned : ∀ k ∈ scannedKinds, k.isSpelling rules = true ∧ k.isHidden = false
  keywords : ∀ k, k.isKeyword = true → ∀ a ∈ rules k, a.body.isWord = true
  comments : rules .lineComment = [] ∧ rules .blockComment = []

namespace Rule

theorem exists_of_isWord {r : Rule} (h : r.isWord = true) : ∃ w, r = .symbol (.word w) := by
  unfold isWord at h
  split at h
  · exact ⟨_, rfl⟩
  · cases h

theorem showsAs_of_mem_forms (r : Rule) : ∀ {shown : Option Kind} {steps : List Step} {step : Step},
    r.isProper rules shown = true → steps ∈ r.forms → step ∈ steps →
    step.symbol.showsAs rules (shown.or step.shown) = true := by
  induction r with
  | empty =>
    intro shown steps step _ hs hstep
    cases List.mem_singleton.1 hs
    cases hstep
  | symbol s =>
    intro shown steps step h hs hstep
    cases List.mem_singleton.1 hs
    cases List.mem_singleton.1 hstep
    rw [Option.or_none]
    exact h
  | seq a b iha ihb =>
    intro shown steps step h hs hstep
    obtain ⟨ha, hb⟩ := Bool.and_eq_true_iff.1 h
    obtain ⟨first, hfirst, hs⟩ := List.mem_flatMap.1 hs
    obtain ⟨second, hsecond, rfl⟩ := List.mem_map.1 hs
    rcases List.mem_append.1 hstep with hstep | hstep
    · exact iha ha hfirst hstep
    · exact ihb hb hsecond hstep
  | choice a b iha ihb =>
    intro shown steps step h hs hstep
    obtain ⟨ha, hb⟩ := Bool.and_eq_true_iff.1 h
    rcases List.mem_append.1 hs with hs | hs
    · exact iha ha hs hstep
    · exact ihb hb hs hstep
  | role p r ih =>
    intro shown steps step h hs hstep
    obtain ⟨inner, hinner, rfl⟩ := List.mem_map.1 hs
    obtain ⟨step, hmem, rfl⟩ := List.mem_map.1 hstep
    exact @ih _ _ step h hinner hmem
  | shownAs k r ih =>
    intro shown steps step h hs hstep
    obtain ⟨inner, hinner, rfl⟩ := List.mem_map.1 hs
    obtain ⟨step, hmem, rfl⟩ := List.mem_map.1 hstep
    have hshown := ih h hinner hmem
    cases shown <;> exact hshown

theorem isProper_any {shown : Option Kind} : ∀ {rs : List Rule}, (∀ r ∈ rs, r.isProper rules shown = true) →
    (any rs).isProper rules shown = true
  | [], _ => rfl
  | [r], h => h r (List.mem_singleton_self r)
  | r :: _ :: _, h =>
    Bool.and_eq_true_iff.2 ⟨h r (List.mem_cons_self ..), isProper_any fun x hx => h x (List.mem_cons_of_mem r hx)⟩

theorem isProper_spread (hrules : WellMade rules) (r : Rule) : ∀ {shown : Option Kind},
    r.isProper rules shown = true → (r.spread (definition rules)).isProper rules shown = true := by
  induction r with
  | empty => exact id
  | symbol s =>
    intro shown h
    cases s with
    | word w => exact h
    | finish => exact h
    | kind k =>
      rw [spread]
      split
      · next hk =>
        cases shown with
        | none =>
          refine isProper_any fun r hr => ?_
          obtain ⟨a, ha, rfl⟩ := List.mem_map.1 hr
          exact hrules.proper k a ha
        | some j =>
          -- a phrase is no word
          simp only [isProper, Symbol.showsAs, Symbol.isWord, Option.all_some, Bool.and_eq_true,
            List.isEmpty_iff] at h
          exact absurd h.2.2 (hrules.spreadsHidden k hk).2
      · exact h
  | seq a b iha ihb | choice a b iha ihb =>
    intro shown h
    obtain ⟨ha, hb⟩ := Bool.and_eq_true_iff.1 h
    exact Bool.and_eq_true_iff.2 ⟨iha ha, ihb hb⟩
  | role p r ih =>
    intro shown h
    exact @ih shown h
  | shownAs k r ih =>
    intro shown h
    exact @ih (shown.or (some k)) h

end Rule

/-- What a production stands for: it is not empty, its rows are rows of its phrase, and if this is a keyword it
reads one word. -/
structure Production.Sound (rules : Kind → List Alternative) (p : Production) : Prop where
  steps_ne_nil : p.steps ≠ []
  allows : ∀ {ss : List Slot}, StepsAllow rules p.steps ss → ∃ a ∈ rules p.head, a.body.Allows rules ss
  shows : ∀ step ∈ p.steps, step.symbol.showsAs rules step.shown = true
  keyword : p.head.isKeyword = true → ∃ w, p.steps = [{ symbol := .word w }]

theorem Production.sound_of_mem (hrules : WellMade rules) {k : Kind} {p : Production}
    (hp : p ∈ productionsOf rules k) : p.Sound rules := by
  unfold productionsOf at hp
  split at hp
  · cases hp
  · obtain ⟨number, hlt, rfl⟩ := List.mem_mapIdx.1 hp
    generalize hw : (List.flatMap _ (rules k))[number] = way
    obtain ⟨a, ha, hway⟩ := List.mem_flatMap.1 (hw ▸ List.getElem_mem hlt)
    obtain ⟨steps, hsteps, rfl⟩ := List.mem_map.1 hway
    obtain ⟨hsteps, hne⟩ := List.mem_filter.1 hsteps
    refine ⟨by simpa using hne, fun hss => ⟨a, ha, ?_⟩, fun step hstep => ?_, fun hk => ?_⟩
    · exact Rule.allows_of_allows_spread hrules.spreadsHidden a.body (Rule.allows_of_mem_forms _ hsteps hss)
    · exact Rule.showsAs_of_mem_forms _ (Rule.isProper_spread hrules a.body (hrules.proper k a ha)) hsteps hstep
    · obtain ⟨w, hbody⟩ := Rule.exists_of_isWord (hrules.keywords k hk a ha)
      rw [hbody] at hsteps
      exact ⟨w, List.mem_singleton.1 hsteps⟩

/-! ## Tables -/

theorem Kind.ctorIdx_lt_count (k : Kind) : k.ctorIdx < count := by cases k <;> decide

theorem Kind.getElem?_all (k : Kind) : Kind.all[k.ctorIdx]? = some k := by
  rw [all, List.getElem?_map, List.getElem?_range k.ctorIdx_lt_count, Option.map_some, ofNat_ctorIdx]

/-- The grammar of Java sources is well made. -/
theorem alternatives_wellMade : WellMade alternatives := by
  have hall : ∀ k : Kind, k ∈ Kind.all := fun k => List.mem_of_getElem? (Kind.getElem?_all k)
  have hspread : ∀ k ∈ Kind.all, k.isSpread = true → k.isHidden = true ∧ (alternatives k).isEmpty = false := by
    decide +kernel
  have hproper : ∀ k ∈ Kind.all, ∀ a ∈ alternatives k, a.body.isProper alternatives none = true := by decide +kernel
  have hkeywords : ∀ k ∈ Kind.all, k.isKeyword = true → ∀ a ∈ alternatives k, a.body.isWord = true := by
    decide +kernel
  refine ⟨fun k hk => ?_, fun k => hproper k (hall k), by decide, fun k => hkeywords k (hall k), rfl, rfl⟩
  obtain ⟨hhidden, hsome⟩ := hspread k (hall k) hk
  refine ⟨hhidden, fun hnil => ?_⟩
  rw [hnil] at hsome
  cases hsome

theorem Word.ctorIdx_lt_count (w : Word) : w.ctorIdx < count := by cases w <;> decide

theorem Word.getElem?_all (w : Word) : Word.all[w.ctorIdx]? = some w := by
  rw [all, List.getElem?_map, List.getElem?_range w.ctorIdx_lt_count, Option.map_some, ofNat_ctorIdx]

theorem Symbol.getElem?_all (s : Symbol) : Symbol.all[s.index]? = some s := by
  have hwords : (Word.all.map word).length = Word.count := by simp [Word.all]
  have hkinds : (Kind.all.map kind).length = Kind.count := by simp [Kind.all]
  cases s with
  | word w =>
    have hlt := w.ctorIdx_lt_count
    rw [all, index, List.append_assoc, List.getElem?_append_left (by omega), List.getElem?_map, Word.getElem?_all]
    rfl
  | kind k =>
    have hlt := k.ctorIdx_lt_count
    rw [all, index, List.append_assoc, List.getElem?_append_right (by omega), hwords, Nat.add_sub_cancel_left,
      List.getElem?_append_left (by omega), List.getElem?_map, Kind.getElem?_all]
    rfl
  | finish =>
    have hlength : (Word.all.map word ++ Kind.all.map kind).length = Word.count + Kind.count := by
      rw [List.length_append, hwords, hkinds]
    rw [all, index, List.getElem?_append_right (by omega), hlength, Nat.sub_self]
    rfl

namespace Automaton

theorem getD_tableOf {α : Type} (f : Kind → α) (d : α) (k : Kind) : (tableOf f).getD k.ctorIdx d = f k := by
  simp [tableOf, Kind.getElem?_all]

theorem getD_toArray_all {α : Type} (f : Symbol → α) (d : α) (s : Symbol) :
    (Symbol.all.map f).toArray.getD s.index d = f s := by
  simp [Symbol.getElem?_all]

variable (hrules : WellMade rules)
include hrules

theorem sound_of_mem_productions {k : Kind} {p : Production}
    (hp : p ∈ (ofRules rules).productions.getD k.ctorIdx []) : p.Sound rules := by
  rw [ofRules, getD_tableOf] at hp
  exact Production.sound_of_mem hrules hp

/-- The productions that a symbol opens begin with it. -/
theorem sound_of_mem_opening {s : Symbol} {p : Production} (hp : p ∈ (ofRules rules).opening.getD s.index []) :
    p.Sound rules ∧ p.steps.head?.map (·.symbol) = some s := by
  have hopening : (ofRules rules).opening = (Symbol.all.map fun s =>
      (Kind.all.flatMap fun k => (ofRules rules).productions.getD k.ctorIdx []).filter
        fun p => p.steps.head?.map (·.symbol) == some s).toArray := rfl
  rw [hopening, getD_toArray_all] at hp
  obtain ⟨hp, hs⟩ := List.mem_filter.1 hp
  obtain ⟨k, -, hp⟩ := List.mem_flatMap.1 hp
  exact ⟨sound_of_mem_productions hrules hp, eq_of_beq hs⟩

omit hrules

/-! ## States -/

/-- What is added to a state is in it, but for what may follow. -/
theorem State.mem_insert {item x : Item} : ∀ {state : State}, x ∈ State.insert item state →
    x.production = item.production ∧ x.rest = item.rest ∨ x ∈ state
  | [], h => by
    rw [List.mem_singleton.1 h]
    exact .inl ⟨rfl, rfl⟩
  | other :: rest, h => by
    rw [State.insert] at h
    split at h
    · rcases List.mem_cons.1 h with rfl | h
      · exact .inl ⟨rfl, rfl⟩
      · exact .inr h
    · rcases List.mem_cons.1 h with rfl | h
      · exact .inl ⟨rfl, rfl⟩
      · exact .inr (List.mem_cons_of_mem other h)
    · rcases List.mem_cons.1 h with rfl | h
      · exact .inr (List.mem_cons_self ..)
      · rcases mem_insert h with h | h
        · exact .inl h
        · exact .inr (List.mem_cons_of_mem other h)

/-- The item is what an item of the state becomes by the symbol. -/
def Advances (state : State) (s : Symbol) (x : Item) : Prop :=
  ∃ item ∈ state, ∃ expected, item.rest = expected :: x.rest ∧ expected.symbol = s ∧ x.production = item.production

/-- The item is one of a production that begins with the symbol. -/
def Opens (rules : Kind → List Alternative) (s : Symbol) (x : Item) : Prop :=
  x.production.Sound rules ∧ ∃ first, x.production.steps = first :: x.rest ∧ first.symbol = s

include hrules

theorem opens_of_mem_begun {expected s : Symbol} {p : Production} {c : Corner}
    (h : (p, c) ∈ (ofRules rules).begun expected s) :
    p.Sound rules ∧ ∃ first, p.steps = first :: p.steps.tail ∧ first.symbol = s := by
  unfold begun at h
  split at h
  · obtain ⟨q, hq, h⟩ := List.mem_filterMap.1 h
    obtain ⟨corner, -, h⟩ := Option.map_eq_some_iff.1 h
    cases h
    obtain ⟨hsound, hhead⟩ := sound_of_mem_opening hrules hq
    obtain ⟨first, rest, hsteps⟩ := List.exists_cons_of_ne_nil hsound.steps_ne_nil
    rw [hsteps] at hhead
    exact ⟨hsound, first, by rw [hsteps]; rfl, Option.some.inj hhead⟩
  · cases h

/-- Every item of a state has come one step further, or its production begins with the symbol that was read. -/
theorem mem_next {state : State} {s : Symbol} {x : Item} (hx : x ∈ (ofRules rules).next state s) :
    Advances state s x ∨ Opens rules s x := by
  suffices h : ∀ x ∈ (ofRules rules).next state s, Advances state s x ∨ Opens rules s x from h x hx
  refine List.foldlRecOn (motive := fun result => ∀ x ∈ result, Advances state s x ∨ Opens rules s x) state _
    (List.forall_mem_nil _) fun result hresult item hitem => ?_
  split
  · exact hresult
  · next expected after hrest =>
    -- first the item itself, and then what begins where it stands
    refine List.foldlRecOn (motive := fun result => ∀ x ∈ result, Advances state s x ∨ Opens rules s x) _ _ ?_
      fun result hresult begun hbegun x hx => ?_
    · split
      · next hs =>
        intro x hx
        rcases State.mem_insert hx with ⟨hp, hafter⟩ | hx
        · exact .inl ⟨item, hitem, expected, by rw [hrest, hafter], eq_of_beq hs, hp⟩
        · exact hresult x hx
      · exact hresult
    · rcases State.mem_insert hx with ⟨hp, hafter⟩ | hx
      · obtain ⟨hsound, hsteps⟩ := opens_of_mem_begun hrules hbegun
        exact .inr ⟨hp ▸ hsound, by rw [hp, hafter]; exact hsteps⟩
      · exact hresult x hx

theorem sound_of_mem_start {x : Item} (hx : x ∈ (ofRules rules).start) :
    x.production.Sound rules ∧ x.rest = x.production.steps := by
  obtain ⟨p, hp, rfl⟩ := List.mem_map.1 hx
  exact ⟨sound_of_mem_productions hrules hp, rfl⟩

omit hrules

/-- What is closed is complete. -/
theorem exists_of_mem_reduce {a : Automaton} {state : State} {s : Symbol} {p : Production}
    (hp : p ∈ (a.moves state s).reduce) : ∃ item ∈ state, item.production = p ∧ item.rest = [] := by
  have hclosing : p ∈ closing state s := by
    unfold moves at hp
    dsimp only at hp
    split at hp
    · cases hp
    · exact hp
    · split_ifs at hp <;> first | exact hp | cases hp
  obtain ⟨hp, -⟩ := List.mem_filter.1 hclosing
  obtain ⟨item, hitem, h⟩ := List.mem_filterMap.1 hp
  split at h
  · next hrest =>
    cases h
    exact ⟨item, hitem, rfl, List.isEmpty_iff.1 (Bool.and_eq_true_iff.1 hrest).1⟩
  · cases h

end Automaton

end ClassDiagram.Grammar
