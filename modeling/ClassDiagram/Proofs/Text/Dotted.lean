/-
Dotted names and their segments. A segment holds no dot, so a name that was put together from
segments comes apart in one way only: the cut at the last dot gives back the last segment and the
join of those before it, the cut at the first dot the first segment and what follows it, and two joins
are equal only if their segments are.
-/
import ClassDiagram.Text.Dotted
import Mathlib.Data.List.TakeWhile

namespace ClassDiagram.Text

/-- A segment of a dotted name. -/
def DotFree (name : String) : Prop := '.' ∉ name.toList

instance (name : String) : Decidable (DotFree name) := inferInstanceAs (Decidable ('.' ∉ name.toList))

/-! ## The cut at the last dot -/

theorem cutLast_eq_none : ∀ (cs : List Char), '.' ∉ cs → cutLast cs = none
  | [], _ => rfl
  | c :: cs, h => by
    rw [List.mem_cons, not_or] at h
    have hc : (c == '.') = false := by simpa using Ne.symm h.1
    simp [cutLast, cutLast_eq_none cs h.2, hc]

theorem cutLast_append : ∀ (before after : List Char), '.' ∉ after →
    cutLast (before ++ '.' :: after) = some (before, after)
  | [], after, h => by simp [cutLast, cutLast_eq_none after h]
  | c :: before, after, h => by
    rw [List.cons_append, cutLast, cutLast_append before after h]

theorem not_mem_of_cutLast_eq_none : ∀ {cs : List Char}, cutLast cs = none → '.' ∉ cs
  | [], _ => List.not_mem_nil
  | c :: cs, h => by
    rw [cutLast] at h
    cases hcut : cutLast cs with
    | some parts =>
      simp only [hcut] at h
      cases h
    | none =>
      simp only [hcut] at h
      split at h
      · cases h
      · rename_i hc
        rw [List.mem_cons, not_or]
        exact ⟨fun heq => hc (beq_iff_eq.2 heq.symm), not_mem_of_cutLast_eq_none hcut⟩

theorem of_cutLast_eq_some : ∀ {cs before after : List Char}, cutLast cs = some (before, after) →
    cs = before ++ '.' :: after ∧ '.' ∉ after
  | c :: cs, before, after, h => by
    rw [cutLast] at h
    cases hcut : cutLast cs with
    | some parts =>
      simp only [hcut] at h
      cases h
      obtain ⟨hcs, hafter⟩ := of_cutLast_eq_some hcut
      exact ⟨congrArg (c :: ·) hcs, hafter⟩
    | none =>
      simp only [hcut] at h
      split at h
      · rename_i hc
        cases h
        exact ⟨congrArg (· :: cs) (eq_of_beq hc), not_mem_of_cutLast_eq_none hcut⟩
      · cases h

theorem splitLast?_eq_none {name : String} (h : DotFree name) : splitLast? name = none := by
  unfold splitLast?
  rw [cutLast_eq_none _ h]
  rfl

/-- The cut falls before the last segment, whatever stands before it. -/
theorem splitLast?_append (before : String) {last : String} (h : DotFree last) :
    splitLast? (before ++ "." ++ last) = some (before, last) := by
  have ht : (before ++ "." ++ last).toList = before.toList ++ '.' :: last.toList := by simp
  unfold splitLast?
  rw [ht, cutLast_append _ _ h]
  simp

/-- The cut comes out in one way only: the second part is the last segment. -/
theorem splitLast?_eq_some_iff {name before last : String} :
    splitLast? name = some (before, last) ↔ name = before ++ "." ++ last ∧ DotFree last := by
  constructor
  · intro h
    obtain ⟨⟨front, back⟩, hcut, h⟩ := Option.map_eq_some_iff.1 h
    obtain ⟨hname, hback⟩ := of_cutLast_eq_some hcut
    cases h
    refine ⟨String.toList_inj.1 ?_, by simpa [DotFree] using hback⟩
    simp [hname]
  · rintro ⟨rfl, hlast⟩
    exact splitLast?_append before hlast

theorem dotFree_of_splitLast?_eq_none {name : String} (h : splitLast? name = none) : DotFree name :=
  not_mem_of_cutLast_eq_none (Option.map_eq_none_iff.1 h)

/-! ## The cut at the first dot -/

/-- The part of a name before its first dot, which is all of it if it has none. -/
def firstSegment (name : String) : String := String.ofList (name.toList.takeWhile (· != '.'))

/-- What follows the first segment of a name, from the dot on. -/
def afterFirst (name : String) : String := String.ofList (name.toList.dropWhile (· != '.'))

theorem firstSegment_append_afterFirst (name : String) : firstSegment name ++ afterFirst name = name := by
  simp [firstSegment, afterFirst, ← String.toList_inj]

theorem dotFree_firstSegment (name : String) : DotFree (firstSegment name) := by
  intro h
  rw [firstSegment, String.toList_ofList] at h
  simpa using List.mem_takeWhile_imp h

theorem ne_dot_of_mem {cs : List Char} (h : '.' ∉ cs) : ∀ c ∈ cs, (c != '.') = true := by
  intro c hc
  rw [bne_iff_ne]
  rintro rfl
  exact h hc

theorem firstSegment_of_dotFree {name : String} (h : DotFree name) : firstSegment name = name := by
  rw [firstSegment, List.takeWhile_eq_self_iff.2 (ne_dot_of_mem h), String.ofList_toList]

theorem afterFirst_of_dotFree {name : String} (h : DotFree name) : afterFirst name = "" := by
  rw [afterFirst, List.dropWhile_eq_nil_iff.2 (ne_dot_of_mem h)]

theorem takeWhile_append_dot (cs ds : List Char) :
    (cs ++ '.' :: ds).takeWhile (· != '.') = cs.takeWhile (· != '.') := by
  induction cs with
  | nil => rfl
  | cons c cs ih => simp only [List.cons_append, List.takeWhile_cons, ih]

theorem dropWhile_append_dot (cs ds : List Char) :
    (cs ++ '.' :: ds).dropWhile (· != '.') = cs.dropWhile (· != '.') ++ '.' :: ds := by
  induction cs with
  | nil => rfl
  | cons c cs ih =>
    simp only [List.cons_append, List.dropWhile_cons, ih]
    split <;> rfl

/-- Further segments change nothing of the first one. -/
theorem firstSegment_append (name rest : String) : firstSegment (name ++ "." ++ rest) = firstSegment name := by
  have ht : (name ++ "." ++ rest).toList = name.toList ++ '.' :: rest.toList := by simp
  rw [firstSegment, ht, takeWhile_append_dot, firstSegment]

theorem afterFirst_append (name rest : String) :
    afterFirst (name ++ "." ++ rest) = afterFirst name ++ "." ++ rest := by
  have ht : (name ++ "." ++ rest).toList = name.toList ++ '.' :: rest.toList := by simp
  rw [afterFirst, ht, dropWhile_append_dot, afterFirst]
  simp [← String.toList_inj]

theorem not_dotFree_append (name rest : String) : ¬ DotFree (name ++ "." ++ rest) := by
  simp [DotFree]

theorem cutFirst_eq_none_iff : ∀ (cs : List Char), cutFirst cs = none ↔ '.' ∉ cs
  | [] => by simp [cutFirst]
  | c :: cs => by
    by_cases hc : c = '.'
    · simp [cutFirst, hc]
    · simp [cutFirst, hc, cutFirst_eq_none_iff cs, Ne.symm hc]

theorem of_cutFirst_eq_some : ∀ {cs before after : List Char}, cutFirst cs = some (before, after) →
    cs = before ++ '.' :: after ∧ '.' ∉ before
  | c :: cs, before, after, h => by
    rw [cutFirst] at h
    split at h
    · rename_i hc
      cases h
      exact ⟨congrArg (· :: cs) (eq_of_beq hc), List.not_mem_nil⟩
    · rename_i hc
      obtain ⟨⟨front, back⟩, hcut, h⟩ := Option.map_eq_some_iff.1 h
      cases h
      obtain ⟨hcs, hfront⟩ := of_cutFirst_eq_some hcut
      refine ⟨congrArg (c :: ·) hcs, ?_⟩
      rw [List.mem_cons, not_or]
      exact ⟨fun heq => hc (beq_iff_eq.2 heq.symm), hfront⟩

theorem dotFree_of_splitFirst?_eq_none {name : String} (h : splitFirst? name = none) : DotFree name :=
  (cutFirst_eq_none_iff _).1 (Option.map_eq_none_iff.1 h)

theorem of_splitFirst?_eq_some {name first rest : String} (h : splitFirst? name = some (first, rest)) :
    name = first ++ "." ++ rest ∧ DotFree first := by
  obtain ⟨⟨front, back⟩, hcut, h⟩ := Option.map_eq_some_iff.1 h
  obtain ⟨hname, hfront⟩ := of_cutFirst_eq_some hcut
  cases h
  refine ⟨String.toList_inj.1 ?_, by simpa [DotFree] using hfront⟩
  simp [hname]

/-! ## Joined segments -/

/-- The join of a path splits before its last segment. -/
theorem intercalate_concat {names : List String} (h : names ≠ []) (last : String) :
    ".".intercalate (names ++ [last]) = ".".intercalate names ++ "." ++ last := by
  rw [String.intercalate_append_of_ne_nil h (List.cons_ne_nil _ _), String.intercalate_singleton]

theorem lastSegment_intercalate (names : List String) {last : String} (h : DotFree last) :
    lastSegment (".".intercalate (names ++ [last])) = last := by
  unfold lastSegment
  by_cases hn : names = []
  · rw [hn, List.nil_append, String.intercalate_singleton, splitLast?_eq_none h]
  · rw [intercalate_concat hn, splitLast?_append _ h]

theorem toList_intercalate_dot (names : List String) :
    (".".intercalate names).toList = ['.'].intercalate (names.map String.toList) := by
  simp

/-- Paths of segments are told apart by their joins, also if one is longer than the other. -/
theorem intercalate_injective {ms ns : List String} (hm : ms ≠ []) (hn : ns ≠ [])
    (dm : ∀ m ∈ ms, DotFree m) (dn : ∀ n ∈ ns, DotFree n)
    (h : ".".intercalate ms = ".".intercalate ns) : ms = ns := by
  -- both paths are read off the same characters by splitting them at every dot
  have split : ∀ names : List String, names ≠ [] → (∀ n ∈ names, DotFree n) →
      (".".intercalate names).toList.splitOn '.' = names.map String.toList := by
    intro names hne hd
    rw [toList_intercalate_dot, List.splitOn_intercalate '.' _ (by simpa using hne)]
    intro l hl
    obtain ⟨n, hmem, rfl⟩ := List.mem_map.1 hl
    exact hd n hmem
  have hmap : ms.map String.toList = ns.map String.toList := by
    rw [← split ms hm dm, ← split ns hn dn, h]
  exact (List.map_inj_right fun _ _ => String.toList_inj.1).1 hmap

/-! ## Names in a package -/

theorem qualify_injective (package : String) {a b : String} (h : qualify package a = qualify package b) :
    a = b := by
  unfold qualify at h
  split at h
  · exact h
  · have ht := congrArg String.toList h
    simp only [String.toList_append] at ht
    exact String.toList_inj.1 (List.append_cancel_left ht)

end ClassDiagram.Text
