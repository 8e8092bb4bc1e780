/-
Reading what was printed. The text of a value without numbers is read back as that value, whatever
text follows it, at every level of indentation: strings first, character by character through their
escapes, then values, where the reader gets by with as many steps as the text has characters.
-/
import ClassDiagram.Json.Printer
import ClassDiagram.Json.Reader
import Mathlib.Tactic.SplitIfs

namespace ClassDiagram.Json

/-! ## Blanks -/

/-- A text of blanks only. -/
def AllBlank (ws : List Char) : Prop := ∀ c ∈ ws, isBlank c = true

theorem allBlank_newline (level : Nat) : AllBlank (newline level) := by
  intro c hc
  rcases List.mem_cons.1 hc with rfl | hc
  · rfl
  · rw [List.eq_of_mem_replicate hc]; rfl

theorem allBlank_space : AllBlank [' '] := by
  intro c hc
  rw [List.mem_singleton.1 hc]
  rfl

theorem skipBlanks_append {ws : List Char} (h : AllBlank ws) (text : List Char) :
    skipBlanks (ws ++ text) = skipBlanks text := by
  unfold skipBlanks
  exact List.dropWhile_append_of_pos h

theorem skipBlanks_cons {c : Char} (h : isBlank c = false) (text : List Char) :
    skipBlanks (c :: text) = c :: text := by
  unfold skipBlanks
  rw [List.dropWhile_cons_of_neg (by simp [h])]

/-! ## Strings -/

theorem hexValue_hexDigit : ∀ n < 16, hexValue (hexDigit n) = some n := by decide

theorem readEscape_control {c : Char} (h : c.toNat < 0x20) (rest : List Char) :
    readEscape ('u' :: '0' :: '0' :: hexDigit (c.toNat / 16) :: hexDigit (c.toNat % 16) :: rest) =
      some (.char c, rest) := by
  have h0 : hexValue '0' = some 0 := by decide
  have h1 := hexValue_hexDigit (c.toNat / 16) (by omega)
  have h2 := hexValue_hexDigit (c.toNat % 16) (by omega)
  have hv : ((0 * 16 + 0) * 16 + c.toNat / 16) * 16 + c.toNat % 16 = c.toNat := by omega
  have hx : hex4 ('0' :: '0' :: hexDigit (c.toNat / 16) :: hexDigit (c.toNat % 16) :: rest) =
      some (c.toNat, rest) := by
    simp only [hex4, h0, h1, h2, Option.bind_eq_bind, Option.bind_some, hv]
  have hh : isHighHalf c.toNat = false := by simp [isHighHalf]; omega
  have hl : isLowHalf c.toNat = false := by simp [isLowHalf]; omega
  simp only [readEscape, hx, hh, hl, Char.ofNat_toNat]
  rfl

/-- A character is read back from the way it is written. -/
theorem readChars_escape (c : Char) (bound : Nat) (rest : List Char) :
    readChars (bound + 1) (escape c ++ rest) =
      (readChars bound rest).map fun (cs, rest) => (cs.map (c :: ·), rest) := by
  unfold escape
  split_ifs with h1 h2 h3 h4 h5 h6 h7 h8
  · rw [beq_iff_eq.1 h1]; rfl
  · rw [beq_iff_eq.1 h2]; rfl
  · rw [beq_iff_eq.1 h3]; rfl
  · rw [beq_iff_eq.1 h4]; rfl
  · rw [beq_iff_eq.1 h5]; rfl
  · rw [beq_iff_eq.1 h6]; rfl
  · rw [beq_iff_eq.1 h7]; rfl
  · simp only [List.cons_append, List.nil_append]
    rw [readChars, if_neg (by decide), if_pos (by decide), readEscape_control h8]
  · simp only [List.cons_append, List.nil_append]
    rw [readChars, if_neg h1, if_neg h2, if_neg h8]

theorem readChars_flatMap_escape : ∀ (cs : List Char) (bound : Nat) (rest : List Char), cs.length < bound →
    readChars bound (cs.flatMap escape ++ '"' :: rest) = some (some cs, rest)
  | [], bound + 1, rest, _ => rfl
  | c :: cs, bound + 1, rest, h => by
    rw [List.flatMap_cons, List.append_assoc, readChars_escape,
      readChars_flatMap_escape cs bound rest (by simpa using h)]
    rfl

theorem length_le_flatMap_escape : ∀ (cs : List Char), cs.length ≤ (cs.flatMap escape).length
  | [] => Nat.le_refl _
  | c :: cs => by
    have hc : 1 ≤ (escape c).length := by unfold escape; split_ifs <;> simp
    have := length_le_flatMap_escape cs
    simp only [List.flatMap_cons, List.length_append, List.length_cons]
    omega

/-- A string is read back from its quoted form, also the one that denotes no text. -/
theorem readString_quotedOrHalf (s : Option String) (rest : List Char) :
    ∃ body, quotedOrHalf s = '"' :: body ∧ readString (body ++ rest) = some (s, rest) := by
  cases s with
  | none => exact ⟨"\\ud800\"".toList, rfl, rfl⟩
  | some s =>
    refine ⟨s.toList.flatMap escape ++ ['"'], rfl, ?_⟩
    have hlen := length_le_flatMap_escape s.toList
    have hbound : s.toList.length < (s.toList.flatMap escape ++ '"' :: rest).length + 1 := by
      rw [List.length_append]; omega
    unfold readString
    rw [List.append_assoc, List.singleton_append, readChars_flatMap_escape _ _ _ hbound]
    simp

/-! ## Values without numbers -/

mutual

/-- Whether no number occurs in the value. -/
def numberless : Json → Bool
  | .number _ => false
  | .array items => numberlessAll items
  | .object members => numberlessMembers members
  | _ => true

def numberlessAll : List Json → Bool
  | [] => true
  | j :: js => j.numberless && numberlessAll js

def numberlessMembers : List (Option String × Json) → Bool
  | [] => true
  | (_, j) :: ms => j.numberless && numberlessMembers ms

end

mutual

/-- The steps that it takes to read the value. -/
def steps : Json → Nat
  | .array items => 1 + stepsAll items
  | .object members => 1 + stepsMembers members
  | _ => 1

def stepsAll : List Json → Nat
  | [] => 0
  | j :: js => 1 + j.steps + stepsAll js

def stepsMembers : List (Option String × Json) → Nat
  | [] => 0
  | (_, j) :: ms => 1 + j.steps + stepsMembers ms

end

/-- The text of one or more items, without the brackets. -/
def itemsText (level : Nat) : List Json → List Char
  | [] => []
  | j :: js => j.prettyAt level ++ prettyItems level js

/-- The text of one or more members, without the braces. -/
def membersText (level : Nat) : List (Option String × Json) → List Char
  | [] => []
  | (key, j) :: ms => quotedOrHalf key ++ (':' :: ' ' :: j.prettyAt level) ++ prettyMembers level ms

theorem prettyAt_array (level : Nat) {items : List Json} (h : items ≠ []) :
    (Json.array items).prettyAt level =
      '[' :: (newline (level + 1) ++ itemsText (level + 1) items ++ newline level ++ [']']) := by
  cases items with
  | nil => exact absurd rfl h
  | cons j js => simp [prettyAt, itemsText]

theorem prettyAt_object (level : Nat) {members : List (Option String × Json)} (h : members ≠ []) :
    (Json.object members).prettyAt level =
      '\x7b' :: (newline (level + 1) ++ membersText (level + 1) members ++ newline level ++ ['\x7d']) := by
  cases members with
  | nil => exact absurd rfl h
  | cons m ms => simp [prettyAt, membersText]

theorem prettyItems_eq (level : Nat) {items : List Json} (h : items ≠ []) :
    prettyItems level items = ',' :: (newline level ++ itemsText level items) := by
  cases items with
  | nil => exact absurd rfl h
  | cons j js => simp [prettyItems, itemsText]

theorem prettyMembers_eq (level : Nat) {members : List (Option String × Json)} (h : members ≠ []) :
    prettyMembers level members = ',' :: (newline level ++ membersText level members) := by
  cases members with
  | nil => exact absurd rfl h
  | cons m ms => simp [prettyMembers, membersText]

/-- The text of a value begins with a character that is no blank and closes no array. -/
theorem prettyAt_head (level : Nat) (j : Json) (h : j.numberless = true) :
    ∃ c cs, j.prettyAt level = c :: cs ∧ isBlank c = false ∧ c ≠ ']' := by
  cases j with
  | null => exact ⟨'n', _, rfl, by decide⟩
  | bool b => cases b <;> exact ⟨_, _, rfl, by decide⟩
  | number s => cases h
  | string s => cases s <;> exact ⟨'"', _, rfl, by decide⟩
  | array items => cases items <;> exact ⟨'[', _, rfl, by decide⟩
  | object members => cases members <;> exact ⟨'\x7b', _, rfl, by decide⟩

theorem one_le_length (level : Nat) (j : Json) (h : j.numberless = true) : 1 ≤ (j.prettyAt level).length := by
  obtain ⟨c, cs, hc, -⟩ := prettyAt_head level j h
  rw [hc, List.length_cons]
  omega

theorem itemsText_head (level : Nat) {items : List Json} (hne : items ≠ []) (h : numberlessAll items = true) :
    ∃ c cs, itemsText level items = c :: cs ∧ isBlank c = false ∧ c ≠ ']' := by
  cases items with
  | nil => exact absurd rfl hne
  | cons j js =>
    rw [numberlessAll, Bool.and_eq_true] at h
    obtain ⟨c, cs, hc, hb, hclose⟩ := prettyAt_head level j h.1
    exact ⟨c, cs ++ prettyItems level js, by rw [itemsText, hc, List.cons_append], hb, hclose⟩

/-! ## Reading step by step -/

theorem readValue_append_blanks {ws : List Char} (h : AllBlank ws) (fuel : Nat) (text : List Char) :
    readValue fuel (ws ++ text) = readValue fuel text := by
  cases fuel with
  | zero => rfl
  | succ fuel => rw [readValue, readValue, skipBlanks_append h]

theorem readItems_append_blanks {ws : List Char} (h : AllBlank ws) (fuel : Nat) (text : List Char) :
    readItems fuel (ws ++ text) = readItems fuel text := by
  cases fuel with
  | zero => rfl
  | succ fuel => rw [readItems, readItems, readValue_append_blanks h]

theorem readMembers_append_blanks {ws : List Char} (h : AllBlank ws) (fuel : Nat) (text : List Char) :
    readMembers fuel (ws ++ text) = readMembers fuel text := by
  cases fuel with
  | zero => rfl
  | succ fuel => rw [readMembers, readMembers, skipBlanks_append h]

/-- After an opening bracket, if it is not closed at once, come items. -/
theorem readValue_array (fuel : Nat) {text : List Char} (h : ∀ rest, skipBlanks text ≠ ']' :: rest) :
    readValue (fuel + 1) ('[' :: text) =
      (readItems fuel text).map fun (items, rest) => (.array items, rest) := by
  simp only [readValue, skipBlanks_cons (show isBlank '[' = false by decide)]

/-- After an opening brace, if it is not closed at once, come members. -/
theorem readValue_object (fuel : Nat) {text : List Char} (h : ∀ rest, skipBlanks text ≠ '\x7d' :: rest) :
    readValue (fuel + 1) ('\x7b' :: text) =
      (readMembers fuel text).map fun (members, rest) => (.object members, rest) := by
  simp only [readValue, skipBlanks_cons (show isBlank '\x7b' = false by decide)]

/-- The items go on after a comma. -/
theorem readItems_comma {fuel : Nat} {text rest : List Char} {item : Json}
    (h : readValue fuel text = some (item, ',' :: rest)) :
    readItems (fuel + 1) text = (readItems fuel rest).map fun (items, rest) => (item :: items, rest) := by
  rw [readItems, h]
  rfl

/-- The items end with a bracket. -/
theorem readItems_close {fuel : Nat} {text ws rest : List Char} {item : Json} (hw : AllBlank ws)
    (h : readValue fuel text = some (item, ws ++ ']' :: rest)) :
    readItems (fuel + 1) text = some ([item], rest) := by
  rw [readItems, h]
  dsimp only
  rw [skipBlanks_append hw]
  rfl

/-- A member is a quoted key, a colon and a value; the members go on after a comma. -/
theorem readMembers_comma {fuel : Nat} {text rest : List Char} (key : Option String) {value : Json}
    (h : readValue fuel text = some (value, ',' :: rest)) :
    readMembers (fuel + 1) (quotedOrHalf key ++ ':' :: text) =
      (readMembers fuel rest).map fun (members, rest) => ((key, value) :: members, rest) := by
  obtain ⟨body, hq, hs⟩ := readString_quotedOrHalf key (':' :: text)
  rw [readMembers, hq, List.cons_append, skipBlanks_cons (by decide)]
  simp only [hs, skipBlanks_cons (show isBlank ':' = false by decide), h,
    skipBlanks_cons (show isBlank ',' = false by decide)]

/-- The members end with a brace. -/
theorem readMembers_close {fuel : Nat} {text ws rest : List Char} (key : Option String) {value : Json}
    (hw : AllBlank ws) (h : readValue fuel text = some (value, ws ++ '\x7d' :: rest)) :
    readMembers (fuel + 1) (quotedOrHalf key ++ ':' :: text) = some ([(key, value)], rest) := by
  obtain ⟨body, hq, hs⟩ := readString_quotedOrHalf key (':' :: text)
  rw [readMembers, hq, List.cons_append, skipBlanks_cons (by decide)]
  simp only [hs, skipBlanks_cons (show isBlank ':' = false by decide), h, skipBlanks_append hw,
    skipBlanks_cons (show isBlank '\x7d' = false by decide)]

/-! ## The round trip -/

mutual

/-- A value is read back from its text at every level, and what follows it is left. -/
theorem readValue_prettyAt (level : Nat) : ∀ (j : Json) (fuel : Nat) (rest : List Char),
    j.numberless = true → j.steps ≤ fuel → readValue fuel (j.prettyAt level ++ rest) = some (j, rest)
  | j, 0, rest, _, hf => by cases j <;> simp [steps] at hf
  | .null, fuel + 1, rest, _, _ => rfl
  | .bool true, fuel + 1, rest, _, _ => rfl
  | .bool false, fuel + 1, rest, _, _ => rfl
  | .number _, _, _, hj, _ => by cases hj
  | .string s, fuel + 1, rest, _, _ => by
    obtain ⟨body, hq, hs⟩ := readString_quotedOrHalf s rest
    rw [prettyAt, hq, List.cons_append]
    simp only [readValue, skipBlanks_cons (show isBlank '"' = false by decide), hs, Option.map_some]
  | .array [], fuel + 1, rest, _, _ => rfl
  | .array (j :: js), fuel + 1, rest, hj, hf => by
    have hne : j :: js ≠ [] := List.cons_ne_nil j js
    obtain ⟨c, cs, hc, hb, hclose⟩ := itemsText_head (level + 1) hne hj
    have hopen : ∀ after, skipBlanks (newline (level + 1) ++
        (itemsText (level + 1) (j :: js) ++ (newline level ++ ']' :: rest))) ≠ ']' :: after := by
      intro after h
      rw [skipBlanks_append (allBlank_newline _), hc, List.cons_append, skipBlanks_cons hb] at h
      exact hclose (List.cons.inj h).1
    rw [prettyAt_array level hne]
    simp only [List.cons_append, List.append_assoc, List.nil_append]
    rw [readValue_array fuel hopen, readItems_append_blanks (allBlank_newline _),
      readItems_itemsText (level + 1) (j :: js) fuel (newline level) rest hne hj (by rw [steps] at hf; omega)
        (allBlank_newline level)]
    rfl
  | .object [], fuel + 1, rest, _, _ => rfl
  | .object (m :: ms), fuel + 1, rest, hj, hf => by
    have hne : m :: ms ≠ [] := List.cons_ne_nil m ms
    obtain ⟨body, hq, -⟩ := readString_quotedOrHalf m.1 []
    have hopen : ∀ after, skipBlanks (newline (level + 1) ++
        (membersText (level + 1) (m :: ms) ++ (newline level ++ '\x7d' :: rest))) ≠ '\x7d' :: after := by
      intro after h
      rw [skipBlanks_append (allBlank_newline _), membersText, hq] at h
      simp only [List.cons_append, skipBlanks_cons (show isBlank '"' = false by decide)] at h
      exact absurd (List.cons.inj h).1 (by decide)
    rw [prettyAt_object level hne]
    simp only [List.cons_append, List.append_assoc, List.nil_append]
    rw [readValue_object fuel hopen, readMembers_append_blanks (allBlank_newline _),
      readMembers_membersText (level + 1) (m :: ms) fuel (newline level) rest hne hj (by rw [steps] at hf; omega)
        (allBlank_newline level)]
    rfl

theorem readItems_itemsText (level : Nat) : ∀ (items : List Json) (fuel : Nat) (ws rest : List Char),
    items ≠ [] → numberlessAll items = true → stepsAll items ≤ fuel → AllBlank ws →
    readItems fuel (itemsText level items ++ (ws ++ ']' :: rest)) = some (items, rest)
  | [], _, _, _, hne, _, _, _ => absurd rfl hne
  | j :: js, 0, _, _, _, _, hf, _ => by rw [stepsAll] at hf; omega
  | j :: js, fuel + 1, ws, rest, _, hj, hf, hw => by
    rw [numberlessAll, Bool.and_eq_true] at hj
    rw [stepsAll] at hf
    have hv := fun after => readValue_prettyAt level j fuel after hj.1 (by omega)
    by_cases hjs : js = []
    · subst hjs
      rw [itemsText, prettyItems, List.append_nil]
      exact readItems_close hw (hv _)
    · rw [itemsText, prettyItems_eq level hjs, List.append_assoc, List.cons_append]
      rw [readItems_comma (hv _), List.append_assoc, readItems_append_blanks (allBlank_newline _),
        readItems_itemsText level js fuel ws rest hjs hj.2 (by omega) hw]
      rfl

theorem readMembers_membersText (level : Nat) : ∀ (members : List (Option String × Json)) (fuel : Nat)
    (ws rest : List Char), members ≠ [] → numberlessMembers members = true → stepsMembers members ≤ fuel →
    AllBlank ws →
    readMembers fuel (membersText level members ++ (ws ++ '\x7d' :: rest)) = some (members, rest)
  | [], _, _, _, hne, _, _, _ => absurd rfl hne
  | (_, _) :: _, 0, _, _, _, _, hf, _ => by rw [stepsMembers] at hf; omega
  | (key, j) :: ms, fuel + 1, ws, rest, _, hj, hf, hw => by
    rw [numberlessMembers, Bool.and_eq_true] at hj
    rw [stepsMembers] at hf
    have hv : ∀ after, readValue fuel (' ' :: (j.prettyAt level ++ after)) = some (j, after) := by
      intro after
      rw [← List.singleton_append, readValue_append_blanks allBlank_space]
      exact readValue_prettyAt level j fuel after hj.1 (by omega)
    by_cases hms : ms = []
    · subst hms
      rw [membersText, prettyMembers, List.append_nil, List.append_assoc]
      exact readMembers_close key hw (hv _)
    · rw [membersText, prettyMembers_eq level hms]
      simp only [List.append_assoc, List.cons_append]
      rw [readMembers_comma key (hv _), readMembers_append_blanks (allBlank_newline _),
        readMembers_membersText level ms fuel ws rest hms hj.2 (by omega) hw]
      rfl

end

mutual

/-- The text of a value has a character for each step of reading it. -/
theorem steps_le_length (level : Nat) : ∀ (j : Json), j.numberless = true → j.steps ≤ (j.prettyAt level).length
  | .null, hj => one_le_length level _ hj
  | .bool b, hj => one_le_length level _ hj
  | .number _, hj => by cases hj
  | .string s, hj => one_le_length level _ hj
  | .array [], hj => one_le_length level _ hj
  | .array (j :: js), hj => by
    rw [numberless, numberlessAll, Bool.and_eq_true] at hj
    have h1 := steps_le_length (level + 1) j hj.1
    have h2 := stepsAll_le_length (level + 1) js hj.2
    simp only [steps, stepsAll, prettyAt, List.length_append, List.length_cons]
    omega
  | .object [], hj => one_le_length level _ hj
  | .object ((key, j) :: ms), hj => by
    rw [numberless, numberlessMembers, Bool.and_eq_true] at hj
    have h1 := steps_le_length (level + 1) j hj.1
    have h2 := stepsMembers_le_length (level + 1) ms hj.2
    simp only [steps, stepsMembers, prettyAt, List.length_append, List.length_cons]
    omega

theorem stepsAll_le_length (level : Nat) : ∀ (js : List Json), numberlessAll js = true →
    stepsAll js ≤ (prettyItems level js).length
  | [], _ => Nat.le_refl _
  | j :: js, hj => by
    rw [numberlessAll, Bool.and_eq_true] at hj
    have h1 := steps_le_length level j hj.1
    have h2 := stepsAll_le_length level js hj.2
    simp only [stepsAll, prettyItems, List.length_append, List.length_cons]
    omega

theorem stepsMembers_le_length (level : Nat) : ∀ (ms : List (Option String × Json)),
    numberlessMembers ms = true → stepsMembers ms ≤ (prettyMembers level ms).length
  | [], _ => Nat.le_refl _
  | (key, j) :: ms, hj => by
    rw [numberlessMembers, Bool.and_eq_true] at hj
    have h1 := steps_le_length level j hj.1
    have h2 := stepsMembers_le_length level ms hj.2
    simp only [stepsMembers, prettyMembers, List.length_append, List.length_cons]
    omega

end

/-- What was printed is read back. -/
theorem parse?_pretty {j : Json} (h : j.numberless = true) : parse? j.pretty = some j := by
  have hsteps := steps_le_length 0 j h
  have hread := readValue_prettyAt 0 j (2 * (j.prettyAt 0).length + 2) [] h (by omega)
  rw [List.append_nil] at hread
  unfold parse? pretty
  simp only [String.toList_ofList, hread]
  rfl

end ClassDiagram.Json
