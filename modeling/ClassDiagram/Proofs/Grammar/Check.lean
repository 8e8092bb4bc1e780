/-
Checking whether a tree conforms to a grammar. A rule takes nodes off the front of a row in every way
it can, and a phrase fits if one of its alternatives can take its whole row. What the check accepts
conforms.
-/
import ClassDiagram.Proofs.Grammar.Conformance

namespace ClassDiagram.Grammar

/-- Takes a node off the front of a row. -/
def Slot.take (s : Slot) : List Slot → List (List Slot)
  | [] => []
  | t :: ts => if t = s then [ts] else []

theorem Slot.eq_of_mem_take {s : Slot} {ss rest : List Slot} (h : rest ∈ s.take ss) : ss = s :: rest := by
  cases ss with
  | nil => cases h
  | cons t ts =>
    rw [take] at h
    split at h
    · rename_i hs
      rw [List.mem_singleton.1 h, hs]
    · cases h

/-- What a rule can leave of a row, given what phrases leave. The nodes stand in the row as `dress`
shows them. -/
def Rule.rests (phrase : (Slot → Slot) → Kind → List Slot → List (List Slot)) (dress : Slot → Slot) :
    Rule → List Slot → List (List Slot)
  | .empty, ss => [ss]
  | .symbol (.word w), ss => (dress ⟨none, .word w⟩).take ss
  | .symbol (.kind k), ss => phrase dress k ss
  | .symbol .finish, _ => []
  | .seq a b, ss => (a.rests phrase dress ss).flatMap (b.rests phrase dress)
  | .choice a b, ss => a.rests phrase dress ss ++ b.rests phrase dress ss
  | .role p r, ss => r.rests phrase (fun s => dress (s.withRole p)) ss
  | .shownAs k r, ss => r.rests phrase (fun s => dress (s.shownAs k)) ss

/-- What a phrase can leave of a row. Hidden phrases are opened to the given depth. -/
def phraseRests (rules : Kind → List Alternative) : Nat → (Slot → Slot) → Kind → List Slot → List (List Slot)
  | 0, _, _, _ => []
  | depth + 1, dress, k, ss =>
    if k.isHidden then (rules k).flatMap fun a => a.body.rests (phraseRests rules depth) dress ss
    else (dress ⟨none, .kind k⟩).take ss

namespace Tree

/-- Whether a phrase can have this row. A run is opened once for each of its nodes. -/
def fitsRow (rules : Kind → List Alternative) (k : Kind) (ss : List Slot) : Bool :=
  (rules k).any fun a => (a.body.rests (phraseRests rules (ss.length + hiddenDepth)) id ss).contains []

mutual

def fits (rules : Kind → List Alternative) : Tree → Bool
  | node _ (.word _) _ cs => cs.isEmpty
  | node _ (.kind k) _ cs =>
    if k.isLeaf rules then cs.isEmpty else fitsRow rules k (row cs) && fitsAll rules cs
  | _ => false

def fitsAll (rules : Kind → List Alternative) : List Tree → Bool
  | [] => true
  | c :: cs => c.fits rules && fitsAll rules cs

end

end Tree

/-! ## What is accepted conforms -/

section
variable {rules : Kind → List Alternative}

/-- The phrases leaving only what they may, so do the rules. -/
theorem Rule.exists_of_mem_rests {phrase : (Slot → Slot) → Kind → List Slot → List (List Slot)}
    (hphrase : ∀ dress k ss rest, rest ∈ phrase dress k ss →
      ∃ taken, (sub k).Allows rules taken ∧ ss = taken.map dress ++ rest) (r : Rule) :
    ∀ dress ss rest, rest ∈ r.rests phrase dress ss →
      ∃ taken, r.Allows rules taken ∧ ss = taken.map dress ++ rest := by
  induction r with
  | empty =>
    intro dress ss rest h
    exact ⟨[], .empty, (List.mem_singleton.1 h).symm⟩
  | symbol x =>
    intro dress ss rest h
    cases x with
    | word w => exact ⟨[⟨none, .word w⟩], .word w, Slot.eq_of_mem_take h⟩
    | kind k => exact hphrase dress k ss rest h
    | finish => cases h
  | seq a b iha ihb =>
    intro dress ss rest h
    obtain ⟨mid, hmid, hrest⟩ := List.mem_flatMap.1 h
    obtain ⟨first, hfirst, rfl⟩ := iha dress ss mid hmid
    obtain ⟨second, hsecond, rfl⟩ := ihb dress mid rest hrest
    refine ⟨first ++ second, .seq hfirst hsecond, ?_⟩
    rw [List.map_append, List.append_assoc]
  | choice a b iha ihb =>
    intro dress ss rest h
    rcases List.mem_append.1 h with h | h
    · obtain ⟨taken, htaken, hss⟩ := iha dress ss rest h
      exact ⟨taken, .left htaken, hss⟩
    · obtain ⟨taken, htaken, hss⟩ := ihb dress ss rest h
      exact ⟨taken, .right htaken, hss⟩
  | role p r ih =>
    intro dress ss rest h
    obtain ⟨taken, htaken, rfl⟩ := ih _ ss rest h
    refine ⟨taken.map (Slot.withRole p), .role htaken, ?_⟩
    rw [List.map_map]
    rfl
  | shownAs k r ih =>
    intro dress ss rest h
    obtain ⟨taken, htaken, rfl⟩ := ih _ ss rest h
    refine ⟨taken.map (Slot.shownAs k), .shownAs htaken, ?_⟩
    rw [List.map_map]
    rfl

theorem exists_of_mem_phraseRests (depth : Nat) : ∀ dress k ss rest, rest ∈ phraseRests rules depth dress k ss →
    ∃ taken, (Rule.sub k).Allows rules taken ∧ ss = taken.map dress ++ rest := by
  induction depth with
  | zero =>
    intro _ _ _ _ h
    cases h
  | succ depth ih =>
    intro dress k ss rest h
    rw [phraseRests] at h
    cases hk : k.isHidden with
    | false =>
      rw [hk] at h
      exact ⟨[⟨none, .kind k⟩], .kind hk, Slot.eq_of_mem_take h⟩
    | true =>
      rw [hk, if_pos rfl] at h
      obtain ⟨a, ha, h⟩ := List.mem_flatMap.1 h
      obtain ⟨taken, htaken, hss⟩ := Rule.exists_of_mem_rests ih a.body dress ss rest h
      exact ⟨taken, .hidden hk ha htaken, hss⟩

namespace Tree

theorem exists_of_fitsRow {k : Kind} {ss : List Slot} (h : fitsRow rules k ss = true) :
    ∃ a ∈ rules k, a.body.Allows rules ss := by
  obtain ⟨a, ha, h⟩ := List.any_eq_true.1 h
  obtain ⟨taken, htaken, hss⟩ := Rule.exists_of_mem_rests (exists_of_mem_phraseRests _) a.body id ss []
    (List.contains_iff_mem.1 h)
  rw [List.map_id, List.append_nil] at hss
  exact ⟨a, ha, hss ▸ htaken⟩

mutual

theorem conforms_of_fits : ∀ t : Tree, t.fits rules = true → t.Conforms rules
  | node r (.word w) s cs, h => by
    rw [fits] at h
    cases List.isEmpty_iff.1 h
    exact .word r w s
  | node r (.kind k) s cs, h => by
    rw [fits] at h
    split at h
    · rename_i hk
      cases List.isEmpty_iff.1 h
      exact .leaf r s hk
    · rename_i hk
      obtain ⟨hrow, hcs⟩ := Bool.and_eq_true_iff.1 h
      obtain ⟨a, ha, hrow⟩ := exists_of_fitsRow hrow
      exact .phrase (Bool.eq_false_iff.2 hk) ha hrow (conforms_of_fitsAll cs hcs)
  | node _ .error _ _, h => by simp [fits] at h
  | node _ (.missing _) _ _, h => by simp [fits] at h

theorem conforms_of_fitsAll : ∀ cs : List Tree, fitsAll rules cs = true → ∀ c ∈ cs, c.Conforms rules
  | [], _, _, hc => nomatch hc
  | t :: ts, h, c, hc => by
    rw [fitsAll] at h
    obtain ⟨ht, hts⟩ := Bool.and_eq_true_iff.1 h
    rcases List.mem_cons.1 hc with hc | hc
    · rw [hc]
      exact conforms_of_fits t ht
    · exact conforms_of_fitsAll ts hts c hc

end

end Tree

end

end ClassDiagram.Grammar
