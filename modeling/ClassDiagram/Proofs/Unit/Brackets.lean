/-
Angle brackets in the name of a type. Brackets match if every one that closes belongs to one that was opened
before it and all that are opened are closed again: the scan that counts the open ones accepts exactly the
texts of this grammar. Of a text with groups in matching brackets stripping leaves what stands outside of
them, without its white space. Whatever the text, what is left holds neither brackets nor white space, comes in
the order of the text and is not changed by stripping it again.
-/
import ClassDiagram.Proofs.Unit.Dimensions

namespace ClassDiagram

open ClassDiagram.Text

/-! ## Matching brackets -/

/-- Angle brackets that match each other, with other characters anywhere between them. -/
inductive Balanced : List Char → Prop
  | nil : Balanced []
  | other {c : Char} {cs : List Char} : c ≠ '<' → c ≠ '>' → Balanced cs → Balanced (c :: cs)
  | group {inside behind : List Char} : Balanced inside → Balanced behind →
      Balanced ('<' :: inside ++ '>' :: behind)

/-- Whether all brackets are closed that are opened in the text or before it, where `depth` are still open, and
none is closed that was not opened. -/
def closes (depth : Nat) : List Char → Bool
  | [] => depth == 0
  | c :: rest =>
    if c == '<' then closes (depth + 1) rest
    else if c == '>' then depth != 0 && closes (depth - 1) rest
    else closes depth rest

/-- Counting goes on after matching brackets as before them. -/
theorem Balanced.closes_append {cs : List Char} (h : Balanced cs) (depth : Nat) (rest : List Char) :
    closes depth (cs ++ rest) = closes depth rest := by
  induction h generalizing depth rest with
  | nil => rfl
  | other ho hc _ ih =>
    rw [List.cons_append, closes]
    simp only [beq_iff_eq, ho, hc, if_false, ih]
  | @group inside behind _ _ ihInside ihBehind =>
    calc closes depth ('<' :: inside ++ '>' :: behind ++ rest)
        = closes (depth + 1) (inside ++ '>' :: (behind ++ rest)) := by simp [closes]
      _ = closes (depth + 1) ('>' :: (behind ++ rest)) := ihInside _ _
      _ = closes depth (behind ++ rest) := by simp [closes]
      _ = closes depth rest := ihBehind _ _

/-- The innermost of the open brackets is closed by one before which the brackets match. -/
theorem exists_of_closes_succ {depth : Nat} {cs : List Char} (h : closes (depth + 1) cs = true) :
    ∃ inside behind, cs = inside ++ '>' :: behind ∧ Balanced inside ∧ closes depth behind = true := by
  match cs with
  | [] => simp [closes] at h
  | c :: rest =>
    by_cases ho : c = '<'
    · subst ho
      -- the bracket that is opened here is closed first, and then the one that was open before
      have hopened : closes (depth + 1 + 1) rest = true := h
      obtain ⟨inner, between, hrest, hinner, hbetween⟩ := exists_of_closes_succ hopened
      have hlength : between.length < rest.length := by
        rw [hrest, List.length_append, List.length_cons]
        omega
      obtain ⟨inside, behind, rfl, hinside, hbehind⟩ := exists_of_closes_succ hbetween
      subst hrest
      exact ⟨'<' :: inner ++ '>' :: inside, behind, by simp, .group hinner hinside, hbehind⟩
    · by_cases hc : c = '>'
      · subst hc
        exact ⟨[], rest, rfl, .nil, by simpa [closes] using h⟩
      · have hcloses : closes (depth + 1) rest = true := by simpa [closes, ho, hc] using h
        obtain ⟨inside, behind, rfl, hinside, hbehind⟩ := exists_of_closes_succ hcloses
        exact ⟨c :: inside, behind, rfl, .other ho hc hinside, hbehind⟩
termination_by cs.length
decreasing_by all_goals simp only [List.length_cons]; omega

theorem balanced_of_closes {cs : List Char} (h : closes 0 cs = true) : Balanced cs := by
  match cs with
  | [] => exact .nil
  | c :: rest =>
    by_cases ho : c = '<'
    · subst ho
      have hopened : closes (0 + 1) rest = true := h
      obtain ⟨inside, behind, hrest, hinside, hbehind⟩ := exists_of_closes_succ hopened
      have hlength : behind.length < rest.length := by
        rw [hrest, List.length_append, List.length_cons]
        omega
      have hbalanced := balanced_of_closes hbehind
      subst hrest
      exact .group hinside hbalanced
    · by_cases hc : c = '>'
      · subst hc
        simp [closes] at h
      · exact .other ho hc (balanced_of_closes (by simpa [closes, ho, hc] using h))
termination_by cs.length
decreasing_by all_goals simp only [List.length_cons]; omega

/-- Brackets match if counting them ends with none open and never closes one too many. -/
theorem balanced_iff_closes {cs : List Char} : Balanced cs ↔ closes 0 cs = true := by
  constructor
  · intro h
    have hcloses := h.closes_append 0 []
    rw [List.append_nil] at hcloses
    rw [hcloses]
    rfl
  · exact balanced_of_closes

instance (cs : List Char) : Decidable (Balanced cs) := decidable_of_iff _ balanced_iff_closes.symm

/-- Where a bracket is open, nothing is left of a text in which the brackets match. -/
theorem Balanced.strips {cs : List Char} (h : Balanced cs) (depth : Nat) : Strips (depth + 1) cs [] := by
  induction h generalizing depth with
  | nil => exact .nil
  | @other c cs ho hc _ ih =>
    have hchar : Strips (depth + 1) [c] [] := .of_isHidden (by simp [isHidden, ho, hc])
    exact hchar.append (ih depth)
  | @group inside behind _ _ ihInside ihBehind =>
    have hgroup := (Strips.bracketed (ihInside (depth + 1))).append (ihBehind depth)
    simpa using hgroup

/-! ## Texts with groups in brackets -/

/-- A group in angle brackets, together with what stands behind it up to the next group. -/
structure BracketGroup where
  inside : String
  behind : String
  balanced : Balanced inside.toList := by decide
  unopened : '<' ∉ behind.toList := by decide
  unclosed : '>' ∉ behind.toList := by decide

/-- The text of a group and of what stands behind it. -/
def BracketGroup.text (g : BracketGroup) : String := "<" ++ g.inside ++ ">" ++ g.behind

theorem BracketGroup.strips (g : BracketGroup) : Strips 0 g.text.toList (unspaced g.behind).toList := by
  have hgroup : Strips 0 ('<' :: (g.inside.toList ++ ['>'])) [] := .bracketed (g.balanced.strips 0)
  have hbehind := Strips.of_unbracketed g.unopened g.unclosed
  simpa [BracketGroup.text, unspaced] using hgroup.append hbehind

/-- Of groups and what stands behind them the latter is left. -/
theorem BracketGroup.strips_join (groups : List BracketGroup) :
    Strips 0 (String.join (groups.map BracketGroup.text)).toList
      (unspaced (String.join (groups.map BracketGroup.behind))).toList := by
  induction groups with
  | nil => exact .nil
  | cons g groups ih => simpa [String.join_cons, unspaced] using g.strips.append ih

/-! ## Any text -/

theorem stripFrom_sublist : ∀ (depth : Nat) (cs : List Char), (stripFrom depth cs).Sublist cs
  | _, [] => .slnil
  | depth, c :: cs => by
    rw [stripFrom]
    split
    · exact (stripFrom_sublist _ cs).cons c
    · split
      · exact (stripFrom_sublist _ cs).cons c
      · split
        · exact (stripFrom_sublist _ cs).cons_cons c
        · exact (stripFrom_sublist _ cs).cons c

theorem stripTypeArguments_eq_self {s : String} (h : Unbroken s) : stripTypeArguments s = s := by
  rw [stripTypeArguments, (Strips.of_unbroken h).stripFrom_eq, String.ofList_toList]

/-- Of a text with groups in matching brackets what stands outside of them is left, without its white space.
Of any text, whether its brackets match or not, a part is left that holds no brackets and no white space and stands
in the order of the text, and stripping it again changes nothing. -/
theorem stripTypeArguments_keeps_outside :
    (∀ (first : String) (groups : List BracketGroup), '<' ∉ first.toList → '>' ∉ first.toList →
      stripTypeArguments (first ++ String.join (groups.map BracketGroup.text)) =
        unspaced (first ++ String.join (groups.map BracketGroup.behind))) ∧
    ∀ s, Unbroken (stripTypeArguments s) ∧ (stripTypeArguments s).toList.Sublist s.toList ∧
      stripTypeArguments (stripTypeArguments s) = stripTypeArguments s := by
  constructor
  · intro first groups hopen hclose
    have hfirst := Strips.of_unbracketed hopen hclose
    have hstrips := hfirst.append (BracketGroup.strips_join groups)
    rw [stripTypeArguments, String.toList_append, hstrips.stripFrom_eq]
    simp [unspaced]
  · intro s
    have hunbroken := unbroken_stripTypeArguments s
    refine ⟨hunbroken, ?_, stripTypeArguments_eq_self hunbroken⟩
    rw [stripTypeArguments, String.toList_ofList]
    exact stripFrom_sublist 0 s.toList

/-! ### Groups inside groups -/

def nestedGroups : List BracketGroup :=
  [{ inside := "K, Map<K,? extends V>", behind := " . Entry" }, { inside := "A<B<C>>D", behind := "[ ]" }]

theorem stripTypeArguments_keeps_outside_nested :
    '<' ∉ "Map ".toList ∧ '>' ∉ "Map ".toList ∧
    "Map " ++ String.join (nestedGroups.map BracketGroup.text) = "Map <K, Map<K,? extends V>> . Entry<A<B<C>>D>[ ]" ∧
    stripTypeArguments "Map <K, Map<K,? extends V>> . Entry<A<B<C>>D>[ ]" = "Map.Entry[]" ∧
    Unbroken (stripTypeArguments "Map> .Entry<K<V") := by
  have hopen : '<' ∉ "Map ".toList := by decide
  have hclose : '>' ∉ "Map ".toList := by decide
  have htext : "Map " ++ String.join (nestedGroups.map BracketGroup.text) =
      "Map <K, Map<K,? extends V>> . Entry<A<B<C>>D>[ ]" := by decide
  have hkept : unspaced ("Map " ++ String.join (nestedGroups.map BracketGroup.behind)) = "Map.Entry[]" := by decide
  obtain ⟨hgroups, hany⟩ := stripTypeArguments_keeps_outside
  have hstripped := hgroups "Map " nestedGroups hopen hclose
  rw [htext, hkept] at hstripped
  exact ⟨hopen, hclose, htext, hstripped, (hany _).1⟩

end ClassDiagram
