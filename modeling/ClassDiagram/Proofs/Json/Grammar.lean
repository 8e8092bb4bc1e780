/-
The grammar of JSON texts, and that every one of them is read. A text is derived together with the
value that it denotes: numbers and strings first, then values with blanks wherever the format allows
them. What may follow a value cannot be taken for a part of it, so the reader stops where the
derivation does.
-/
import ClassDiagram.Proofs.Json.RoundTrip

namespace ClassDiagram.Json

/-! ## Numbers -/

def Digits (ds : List Char) : Prop := ds ≠ [] ∧ ∀ c ∈ ds, c.isDigit = true

/-- Zero, or digits that do not begin with zero. -/
def Whole (ds : List Char) : Prop := ds = ['0'] ∨ Digits ds ∧ ds.head? ≠ some '0'

def Fraction (cs : List Char) : Prop := cs = [] ∨ ∃ ds, Digits ds ∧ cs = '.' :: ds

def Exponent (cs : List Char) : Prop :=
  cs = [] ∨ ∃ mark sign ds, mark ∈ ['e', 'E'] ∧ sign ∈ [[], ['+'], ['-']] ∧ Digits ds ∧ cs = mark :: (sign ++ ds)

inductive Numeral : List Char → Prop
  | intro {sign whole fraction exponent : List Char} : sign ∈ [[], ['-']] → Whole whole → Fraction fraction →
      Exponent exponent → Numeral (sign ++ whole ++ fraction ++ exponent)

/-- The text is empty or begins with a character that passes the test. -/
def Begins (p : Char → Prop) (text : List Char) : Prop := ∀ c ∈ text.head?, p c

/-- What follows a value: nothing, a blank, a comma or what closes the value around it. -/
def Follows (rest : List Char) : Prop := Begins (fun c => isBlank c = true ∨ c ∈ [',', ']', '\x7d']) rest

theorem begins_append {p : Char → Prop} {cs rest : List Char} (hcs : Begins p cs) (hrest : Begins p rest) :
    Begins p (cs ++ rest) := by
  cases cs with
  | nil => exact hrest
  | cons c cs => exact hcs

theorem Begins.imp {p q : Char → Prop} {cs : List Char} (h : Begins p cs) (hpq : ∀ c, p c → q c) : Begins q cs :=
  fun c hc => hpq c (h c hc)

theorem follows_append {ws rest : List Char} (hw : AllBlank ws) (h : Follows rest) : Follows (ws ++ rest) :=
  begins_append (fun c hc => .inl (hw c (List.mem_of_head? hc))) h

theorem digits_append {ds rest : List Char} (h : Digits ds) (hrest : Begins (fun c => c.isDigit = false) rest) :
    digits (ds ++ rest) = some (ds, rest) := by
  obtain ⟨hne, hds⟩ := h
  have hrest : rest.takeWhile Char.isDigit = [] ∧ rest.dropWhile Char.isDigit = rest := by
    cases rest with
    | nil => simp
    | cons c rest => simp [hrest c rfl]
  unfold digits
  rw [List.takeWhile_append_of_pos hds, List.dropWhile_append_of_pos hds, hrest.1, hrest.2, List.append_nil]
  cases ds with
  | nil => exact absurd rfl hne
  | cons d ds => rfl

theorem wholePart_append {ds rest : List Char} (h : Whole ds) (hrest : Begins (fun c => c.isDigit = false) rest) :
    wholePart (ds ++ rest) = some (ds, rest) := by
  rcases h with rfl | ⟨hds, hzero⟩
  · rfl
  · unfold wholePart
    split
    · next after heq =>
      cases ds with
      | nil => exact absurd rfl hds.1
      | cons d ds => simp at heq hzero; exact absurd heq.1 hzero
    · exact digits_append hds hrest

theorem fractionPart_append {cs rest : List Char} (h : Fraction cs)
    (hrest : Begins (fun c => c.isDigit = false ∧ c ≠ '.') rest) : fractionPart (cs ++ rest) = some (cs, rest) := by
  rcases h with rfl | ⟨ds, hds, rfl⟩
  · unfold fractionPart
    split
    · next after heq =>
      rw [List.nil_append] at heq
      subst heq
      exact absurd rfl (hrest '.' rfl).2
    · rfl
  · simp [fractionPart, digits_append hds (hrest.imp fun _ h => h.1)]

/-- What stands after a number: no digit, no point and no exponent. -/
def EndsNumber (c : Char) : Prop := c.isDigit = false ∧ c ≠ '.' ∧ c ≠ 'e' ∧ c ≠ 'E'

theorem exponentPart_append {cs rest : List Char} (h : Exponent cs) (hrest : Begins EndsNumber rest) :
    exponentPart (cs ++ rest) = some (cs, rest) := by
  rcases h with rfl | ⟨mark, sign, ds, hmark, hsign, hds, rfl⟩
  · cases rest with
    | nil => rfl
    | cons c rest =>
      obtain ⟨-, -, he, hE⟩ := hrest c rfl
      simp [exponentPart, he, hE]
  · have hread := digits_append hds (hrest.imp fun _ h => h.1)
    have hmark : (mark == 'e' || mark == 'E') = true := by simpa using hmark
    simp only [List.mem_cons, List.not_mem_nil, or_false] at hsign
    rcases hsign with rfl | rfl | rfl
    · obtain ⟨d, ds, rfl⟩ := List.exists_cons_of_ne_nil hds.1
      have hd : d.isDigit = true := hds.2 d (List.mem_cons_self ..)
      have hsign : (d == '+' || d == '-') = false := by
        rw [Bool.or_eq_false_iff, beq_eq_false_iff_ne, beq_eq_false_iff_ne]
        constructor <;> rintro rfl <;> cases hd
      simp only [List.nil_append, List.cons_append] at hread ⊢
      simp [exponentPart, hmark, hsign, hread]
    · simp [exponentPart, hmark, hread]
    · simp [exponentPart, hmark, hread]

theorem endsNumber_of_follows {c : Char} (h : isBlank c = true ∨ c ∈ [',', ']', '\x7d']) : EndsNumber c := by
  simp only [isBlank, Bool.or_eq_true, beq_iff_eq, List.mem_cons, List.not_mem_nil, or_false] at h
  unfold EndsNumber
  rcases h with (((rfl | rfl) | rfl) | rfl) | rfl | rfl | rfl <;> decide

theorem begins_exponent {cs : List Char} (h : Exponent cs) : Begins (fun c => c.isDigit = false ∧ c ≠ '.') cs := by
  rcases h with rfl | ⟨mark, sign, ds, hmark, -, -, rfl⟩
  · exact nofun
  · rintro c ⟨⟩
    simp only [List.mem_cons, List.not_mem_nil, or_false] at hmark
    rcases hmark with rfl | rfl <;> decide

theorem begins_fraction {cs : List Char} (h : Fraction cs) : Begins (fun c => c.isDigit = false) cs := by
  rcases h with rfl | ⟨ds, -, rfl⟩
  · exact nofun
  · rintro c ⟨⟩
    decide

theorem exists_digit_of_whole {ds : List Char} (h : Whole ds) : ∃ d cs, ds = d :: cs ∧ d.isDigit = true := by
  rcases h with rfl | ⟨⟨hne, hds⟩, -⟩
  · exact ⟨'0', [], rfl, rfl⟩
  · obtain ⟨d, cs, rfl⟩ := List.exists_cons_of_ne_nil hne
    exact ⟨d, cs, rfl, hds d (List.mem_cons_self ..)⟩

/-- The characters that a number does not begin with, since they are blank, begin another value or close one. -/
def reserved : List Char := [' ', '\t', '\n', '\r', 'n', 't', 'f', '"', '[', '\x7b', ']', '\x7d']

theorem Numeral.exists_head {cs : List Char} (h : Numeral cs) : ∃ c ds, cs = c :: ds ∧ c ∉ reserved := by
  have hreserved : ∀ c ∈ reserved, (c != '-' && !c.isDigit) = true := List.all_eq_true.1 rfl
  obtain ⟨hsign, hwhole, -, -⟩ := h
  obtain ⟨d, ds, rfl, hd⟩ := exists_digit_of_whole hwhole
  simp only [List.mem_cons, List.not_mem_nil, or_false] at hsign
  rcases hsign with rfl | rfl
  · refine ⟨d, _, rfl, fun h => ?_⟩
    have hno := (Bool.and_eq_true_iff.1 (hreserved d h)).2
    rw [hd] at hno
    cases hno
  · exact ⟨'-', _, rfl, fun h => nomatch hreserved '-' h⟩

/-- A number is read as it is written. -/
theorem readNumber_append {cs rest : List Char} (h : Numeral cs) (hrest : Follows rest) :
    readNumber (cs ++ rest) = some (.number (String.ofList cs), rest) := by
  obtain ⟨hsign, hwhole, hfraction, hexponent⟩ := h
  rename_i sign whole fraction exponent
  have hend : Begins EndsNumber rest := hrest.imp fun _ => endsNumber_of_follows
  have hafterFraction : Begins (fun c => c.isDigit = false ∧ c ≠ '.') (exponent ++ rest) :=
    begins_append (begins_exponent hexponent) (hend.imp fun _ h => ⟨h.1, h.2.1⟩)
  have hafterWhole : Begins (fun c => c.isDigit = false) (fraction ++ (exponent ++ rest)) :=
    begins_append (begins_fraction hfraction) (hafterFraction.imp fun _ h => h.1)
  have hrun := wholePart_append hwhole hafterWhole
  simp only [List.mem_cons, List.not_mem_nil, or_false] at hsign
  rcases hsign with rfl | rfl
  · obtain ⟨d, ds, rfl, hd⟩ := exists_digit_of_whole hwhole
    have hminus : d ≠ '-' := by rintro rfl; cases hd
    simp only [List.nil_append, List.append_assoc, List.cons_append] at hrun ⊢
    simp [readNumber, hminus, hrun, fractionPart_append hfraction hafterFraction, exponentPart_append hexponent hend,
      String.append_assoc]
  · simp [readNumber, hrun, fractionPart_append hfraction hafterFraction, exponentPart_append hexponent hend]

/-! ## Strings -/

/-- A hexadecimal digit in either case. -/
def HexDigit (c : Char) (n : Nat) : Prop := n < 16 ∧ (c = hexDigit n ∨ c = (hexDigit n).toUpper)

inductive Hex4 : List Char → Nat → Prop
  | intro {a b c d : Char} {w x y z : Nat} : HexDigit a w → HexDigit b x → HexDigit c y → HexDigit d z →
      Hex4 [a, b, c, d] (((w * 16 + x) * 16 + y) * 16 + z)

/-- The escapes of one character, with the characters that they denote. -/
def shortEscapes : List (Char × Char) :=
  [('"', '"'), ('\\', '\\'), ('/', '/'), ('b', '\x08'), ('f', '\x0c'), ('n', '\n'), ('r', '\r'), ('t', '\t')]

/-- The characters between the quotes of a string, and the text that they denote. There is none if an escape for
half of a surrogate pair stands alone among them. -/
inductive Spelled : List Char → Option (List Char) → Prop
  | nil : Spelled [] (some [])
  | plain {c : Char} {cs : List Char} {s : Option (List Char)} : c ≠ '"' → c ≠ '\\' → 0x20 ≤ c.toNat →
      Spelled cs s → Spelled (c :: cs) (s.map (c :: ·))
  | short {e c : Char} {cs : List Char} {s : Option (List Char)} : (e, c) ∈ shortEscapes → Spelled cs s →
      Spelled ('\\' :: e :: cs) (s.map (c :: ·))
  | code {ds cs : List Char} {n : Nat} {s : Option (List Char)} : Hex4 ds n → isHighHalf n = false →
      isLowHalf n = false → Spelled cs s → Spelled ('\\' :: 'u' :: (ds ++ cs)) (s.map (Char.ofNat n :: ·))
  | pair {ds es cs : List Char} {n m : Nat} {s : Option (List Char)} : Hex4 ds n → isHighHalf n = true →
      Hex4 es m → isLowHalf m = true → Spelled cs s →
      Spelled ('\\' :: 'u' :: (ds ++ '\\' :: 'u' :: (es ++ cs))) (s.map (ofHalves n m :: ·))
  | high {ds cs : List Char} {n : Nat} {s : Option (List Char)} : Hex4 ds n → isHighHalf n = true →
      (∀ es m after, Hex4 es m → isLowHalf m = true → cs ≠ '\\' :: 'u' :: (es ++ after)) → Spelled cs s →
      Spelled ('\\' :: 'u' :: (ds ++ cs)) none
  | low {ds cs : List Char} {n : Nat} {s : Option (List Char)} : Hex4 ds n → isLowHalf n = true → Spelled cs s →
      Spelled ('\\' :: 'u' :: (ds ++ cs)) none

theorem hexValue_of_hexDigit {c : Char} {n : Nat} (h : HexDigit c n) : hexValue c = some n := by
  have hvalue : ∀ n < 16, hexValue (hexDigit n) = some n ∧ hexValue (hexDigit n).toUpper = some n := by decide
  obtain ⟨hn, rfl | rfl⟩ := h
  · exact (hvalue n hn).1
  · exact (hvalue n hn).2

theorem hex4_append {ds : List Char} {n : Nat} (h : Hex4 ds n) (rest : List Char) :
    hex4 (ds ++ rest) = some (n, rest) := by
  obtain ⟨ha, hb, hc, hd⟩ := h
  simp [hex4, hexValue_of_hexDigit ha, hexValue_of_hexDigit hb, hexValue_of_hexDigit hc, hexValue_of_hexDigit hd]

theorem isHighHalf_eq_false {n : Nat} (h : isLowHalf n = true) : isHighHalf n = false := by
  simp only [isLowHalf, isHighHalf, Bool.and_eq_true, decide_eq_true_eq, Bool.and_eq_false_iff,
    decide_eq_false_iff_not] at h ⊢
  omega

theorem readEscape_short {e c : Char} (h : (e, c) ∈ shortEscapes) (rest : List Char) :
    readEscape (e :: rest) = some (.char c, rest) := by
  simp only [shortEscapes, List.mem_cons, Prod.mk.injEq, List.not_mem_nil, or_false] at h
  rcases h with ⟨rfl, rfl⟩ | ⟨rfl, rfl⟩ | ⟨rfl, rfl⟩ | ⟨rfl, rfl⟩ | ⟨rfl, rfl⟩ | ⟨rfl, rfl⟩ | ⟨rfl, rfl⟩ |
    ⟨rfl, rfl⟩ <;> rfl

theorem readEscape_code {ds : List Char} {n : Nat} (h : Hex4 ds n) (hhigh : isHighHalf n = false)
    (hlow : isLowHalf n = false) (rest : List Char) :
    readEscape ('u' :: (ds ++ rest)) = some (.char (Char.ofNat n), rest) := by
  simp [readEscape, hex4_append h, hhigh, hlow]

theorem readEscape_pair {ds es : List Char} {n m : Nat} (h : Hex4 ds n) (hhigh : isHighHalf n = true)
    (h' : Hex4 es m) (hlow : isLowHalf m = true) (rest : List Char) :
    readEscape ('u' :: (ds ++ '\\' :: 'u' :: (es ++ rest))) = some (.char (ofHalves n m), rest) := by
  simp [readEscape, hex4_append h, hex4_append h', hhigh, hlow]

theorem readEscape_low {ds : List Char} {n : Nat} (h : Hex4 ds n) (hlow : isLowHalf n = true) (rest : List Char) :
    readEscape ('u' :: (ds ++ rest)) = some (.half, rest) := by
  simp [readEscape, hex4_append h, hlow, isHighHalf_eq_false hlow]

/-- A code is written with four digits. -/
theorem Spelled.exists_hex4 {cs after rest : List Char} {s : Option (List Char)} (h : Spelled cs s)
    (hcs : cs ++ '"' :: rest = '\\' :: 'u' :: after) :
    ∃ ds n es, Hex4 ds n ∧ cs = '\\' :: 'u' :: (ds ++ es) ∧ after = ds ++ (es ++ '"' :: rest) := by
  cases h with
  | nil => cases hcs
  | plain _ hslash => exact absurd (List.cons.inj hcs).1 hslash
  | short he =>
    simp only [List.cons_append, List.cons.injEq, true_and] at hcs
    rw [hcs.1] at he
    simp [shortEscapes] at he
  | code hds | pair hds | high hds | low hds =>
    simp only [List.cons_append, List.append_assoc, List.cons.injEq, true_and] at hcs
    exact ⟨_, _, _, hds, rfl, by simp [← hcs]⟩

theorem readEscape_high {ds cs : List Char} {n : Nat} {s : Option (List Char)} (h : Hex4 ds n)
    (hhigh : isHighHalf n = true)
    (hcs : ∀ es m after, Hex4 es m → isLowHalf m = true → cs ≠ '\\' :: 'u' :: (es ++ after)) (hs : Spelled cs s)
    (rest : List Char) :
    readEscape ('u' :: (ds ++ (cs ++ '"' :: rest))) = some (.half, cs ++ '"' :: rest) := by
  simp only [readEscape, hex4_append h, hhigh, if_true]
  split
  · next after heq =>
    obtain ⟨es, m, after', hes, rfl, rfl⟩ := hs.exists_hex4 heq
    have hm : ¬isLowHalf m = true := fun hm => hcs es m after' hes hm rfl
    rw [hex4_append hes]
    dsimp only
    rw [if_neg hm]
  · rfl

theorem readChars_char {bound : Nat} {text after : List Char} {c : Char}
    (h : readEscape text = some (.char c, after)) :
    readChars (bound + 1) ('\\' :: text) =
      (readChars bound after).map fun (cs, rest) => (cs.map (c :: ·), rest) := by
  rw [readChars, if_neg (by decide), if_pos (by decide), h]

theorem readChars_half {bound : Nat} {text after : List Char} (h : readEscape text = some (.half, after)) :
    readChars (bound + 1) ('\\' :: text) = (readChars bound after).map fun (_, rest) => (none, rest) := by
  rw [readChars, if_neg (by decide), if_pos (by decide), h]

/-- The text of a string is read up to the closing quote. -/
theorem readChars_append : ∀ (bound : Nat) {cs : List Char} {s : Option (List Char)} (rest : List Char),
    Spelled cs s → cs.length < bound → readChars bound (cs ++ '"' :: rest) = some (s, rest)
  | 0, _, _, _, _, hbound => absurd hbound (Nat.not_lt_zero _)
  | bound + 1, _, _, rest, h, hbound => by
    cases h with
    | nil => rfl
    | plain hquote hslash hcontrol hs =>
      rw [List.cons_append, readChars, if_neg (by simpa using hquote), if_neg (by simpa using hslash),
        if_neg (by omega), readChars_append bound rest hs (by simp at hbound; omega)]
      rfl
    | short he hs =>
      simp only [List.cons_append]
      rw [readChars_char (readEscape_short he _), readChars_append bound rest hs (by simp at hbound; omega)]
      rfl
    | code hds hhigh hlow hs =>
      simp only [List.cons_append, List.append_assoc]
      rw [readChars_char (readEscape_code hds hhigh hlow _),
        readChars_append bound rest hs (by simp at hbound; omega)]
      rfl
    | pair hds hhigh hes hlow hs =>
      simp only [List.cons_append, List.append_assoc]
      rw [readChars_char (readEscape_pair hds hhigh hes hlow _),
        readChars_append bound rest hs (by simp at hbound; omega)]
      rfl
    | high hds hhigh halone hs =>
      simp only [List.cons_append, List.append_assoc]
      rw [readChars_half (readEscape_high hds hhigh halone hs rest),
        readChars_append bound rest hs (by simp at hbound; omega)]
      rfl
    | low hds hlow hs =>
      simp only [List.cons_append, List.append_assoc]
      rw [readChars_half (readEscape_low hds hlow _), readChars_append bound rest hs (by simp at hbound; omega)]
      rfl

theorem readString_append {cs : List Char} {s : Option (List Char)} (h : Spelled cs s) (rest : List Char) :
    readString (cs ++ '"' :: rest) = some (s.map String.ofList, rest) := by
  have hlength : cs.length < (cs ++ '"' :: rest).length + 1 := by
    rw [List.length_append]
    omega
  unfold readString
  rw [readChars_append _ rest h hlength]
  rfl

/-! ## Values -/

/-- The parts of a text that hold values. -/
inductive Phrase
  | value (j : Json)
  /-- A value with the blanks around it. -/
  | element (j : Json)
  /-- One or more elements and the commas between them. -/
  | elements (js : List Json)
  | member (m : Option String × Json)
  /-- One or more members of an object and the commas between them. -/
  | members (ms : List (Option String × Json))

inductive Written : Phrase → List Char → Prop
  | null : Written (.value .null) "null".toList
  | bool (b : Bool) : Written (.value (.bool b)) (if b then "true" else "false").toList
  | number {cs : List Char} : Numeral cs → Written (.value (.number (String.ofList cs))) cs
  | string {cs : List Char} {s : Option (List Char)} : Spelled cs s →
      Written (.value (.string (s.map String.ofList))) ('"' :: (cs ++ ['"']))
  | emptyArray {ws : List Char} : AllBlank ws → Written (.value (.array [])) ('[' :: (ws ++ [']']))
  | array {js : List Json} {cs : List Char} : Written (.elements js) cs →
      Written (.value (.array js)) ('[' :: (cs ++ [']']))
  | emptyObject {ws : List Char} : AllBlank ws → Written (.value (.object [])) ('\x7b' :: (ws ++ ['\x7d']))
  | object {ms : List (Option String × Json)} {cs : List Char} : Written (.members ms) cs →
      Written (.value (.object ms)) ('\x7b' :: (cs ++ ['\x7d']))
  | element {j : Json} {ws cs after : List Char} : AllBlank ws → Written (.value j) cs → AllBlank after →
      Written (.element j) (ws ++ (cs ++ after))
  | one {j : Json} {cs : List Char} : Written (.element j) cs → Written (.elements [j]) cs
  | more {j : Json} {js : List Json} {cs ds : List Char} : Written (.element j) cs → Written (.elements js) ds →
      Written (.elements (j :: js)) (cs ++ ',' :: ds)
  | member {key : Option (List Char)} {j : Json} {ws ks after cs : List Char} : AllBlank ws → Spelled ks key →
      AllBlank after → Written (.element j) cs →
      Written (.member (key.map String.ofList, j)) (ws ++ '"' :: (ks ++ '"' :: (after ++ ':' :: cs)))
  | oneMember {m : Option String × Json} {cs : List Char} : Written (.member m) cs → Written (.members [m]) cs
  | moreMembers {m : Option String × Json} {ms : List (Option String × Json)} {cs ds : List Char} :
      Written (.member m) cs → Written (.members ms) ds → Written (.members (m :: ms)) (cs ++ ',' :: ds)

theorem allBlank_append {ws after : List Char} (h : AllBlank ws) (h' : AllBlank after) : AllBlank (ws ++ after) := by
  intro c hc
  rcases List.mem_append.1 hc with hc | hc
  · exact h c hc
  · exact h' c hc

/-- The first character of a phrase that is no blank closes neither an array nor an object. -/
theorem Written.exists_head {p : Phrase} {cs : List Char} (h : Written p cs) :
    ∃ ws c ds, AllBlank ws ∧ cs = ws ++ c :: ds ∧ isBlank c = false ∧ c ≠ ']' ∧ c ≠ '\x7d' := by
  induction h with
  | null => exact ⟨[], 'n', _, nofun, rfl, by decide⟩
  | bool b => cases b <;> exact ⟨[], _, _, nofun, rfl, by decide⟩
  | number h =>
    obtain ⟨c, ds, rfl, hc⟩ := h.exists_head
    exact ⟨[], c, ds, nofun, rfl, by simp_all [reserved, isBlank]⟩
  | string => exact ⟨[], '"', _, nofun, rfl, by decide⟩
  | emptyArray | array => exact ⟨[], '[', _, nofun, rfl, by decide⟩
  | emptyObject | object => exact ⟨[], '\x7b', _, nofun, rfl, by decide⟩
  | @element _ before cs after hw _ _ ih =>
    obtain ⟨ws, c, ds, hw', rfl, hc⟩ := ih
    refine ⟨before ++ ws, c, ds ++ after, allBlank_append hw hw', ?_, hc⟩
    simp only [List.append_assoc, List.cons_append]
  | one _ ih | oneMember _ ih => exact ih
  | member hw => exact ⟨_, '"', _, hw, rfl, by decide⟩
  | more _ _ ih _ | moreMembers _ _ ih _ =>
    obtain ⟨ws, c, ds, hw, rfl, hc⟩ := ih
    exact ⟨ws, c, _, hw, by rw [List.append_assoc, List.cons_append], hc⟩

theorem readValue_numeral {cs rest : List Char} (h : Numeral cs) (fuel : Nat) (hrest : Follows rest) :
    readValue (fuel + 1) (cs ++ rest) = some (.number (String.ofList cs), rest) := by
  obtain ⟨c, ds, rfl, hc⟩ := h.exists_head
  simp only [reserved, List.mem_cons, List.not_mem_nil, or_false, not_or] at hc
  have hblank : isBlank c = false := by simp [isBlank, hc]
  rw [← readNumber_append h hrest, List.cons_append, readValue, skipBlanks_cons hblank]
  simp [hc]

theorem readValue_spelled {cs : List Char} {s : Option (List Char)} (h : Spelled cs s) (fuel : Nat)
    (rest : List Char) :
    readValue (fuel + 1) ('"' :: (cs ++ '"' :: rest)) = some (.string (s.map String.ofList), rest) := by
  rw [readValue, skipBlanks_cons (by decide)]
  simp only [readString_append h]
  rfl

theorem readValue_emptyArray {ws : List Char} (hw : AllBlank ws) (fuel : Nat) (rest : List Char) :
    readValue (fuel + 1) ('[' :: (ws ++ ']' :: rest)) = some (.array [], rest) := by
  rw [readValue, skipBlanks_cons (by decide)]
  simp only [skipBlanks_append hw, skipBlanks_cons (show isBlank ']' = false by decide)]

theorem readValue_emptyObject {ws : List Char} (hw : AllBlank ws) (fuel : Nat) (rest : List Char) :
    readValue (fuel + 1) ('\x7b' :: (ws ++ '\x7d' :: rest)) = some (.object [], rest) := by
  rw [readValue, skipBlanks_cons (by decide)]
  simp only [skipBlanks_append hw, skipBlanks_cons (show isBlank '\x7d' = false by decide)]

/-- The elements go on after a comma, in front of which blanks may stand. -/
theorem readItems_blanks_comma {fuel : Nat} {text ws rest : List Char} {item : Json} (hw : AllBlank ws)
    (h : readValue fuel text = some (item, ws ++ ',' :: rest)) :
    readItems (fuel + 1) text = (readItems fuel rest).map fun (items, rest) => (item :: items, rest) := by
  rw [readItems, h]
  dsimp only
  rw [skipBlanks_append hw]
  rfl

/-- What is read when a member has been read: after a comma other members follow, and a brace ends them. -/
def readFurther (fuel : Nat) (member : Option String × Json) (text : List Char) :
    Option (List (Option String × Json) × List Char) :=
  match skipBlanks text with
  | ',' :: rest => (readMembers fuel rest).map fun (members, rest) => (member :: members, rest)
  | '\x7d' :: rest => some ([member], rest)
  | _ => none

/-- A member is read with its blanks. -/
theorem readMembers_member {fuel : Nat} {ws ks after text rest : List Char} {key : Option (List Char)} {value : Json}
    (hw : AllBlank ws) (hkey : Spelled ks key) (hafter : AllBlank after)
    (h : readValue fuel text = some (value, rest)) :
    readMembers (fuel + 1) (ws ++ '"' :: (ks ++ '"' :: (after ++ ':' :: text))) =
      readFurther fuel (key.map String.ofList, value) rest := by
  rw [readMembers_append_blanks hw, readMembers, skipBlanks_cons (by decide)]
  simp only [readString_append hkey, skipBlanks_append hafter, skipBlanks_cons (show isBlank ':' = false by decide), h]
  rfl

/-- The reader takes a phrase off the front of a text. -/
def Reads : Phrase → List Char → Prop
  | .value j, cs => ∀ fuel rest, cs.length ≤ fuel → Follows rest → readValue fuel (cs ++ rest) = some (j, rest)
  | .element j, cs => ∀ fuel rest, cs.length ≤ fuel → Follows rest →
      ∃ ws, AllBlank ws ∧ readValue fuel (cs ++ rest) = some (j, ws ++ rest)
  | .elements js, cs => ∀ fuel rest, cs.length < fuel → readItems fuel (cs ++ ']' :: rest) = some (js, rest)
  | .member m, cs => ∀ fuel rest, cs.length ≤ fuel →
      readMembers (fuel + 1) (cs ++ '\x7d' :: rest) = some ([m], rest) ∧
        readMembers (fuel + 1) (cs ++ ',' :: rest) =
          (readMembers fuel rest).map fun (members, rest) => (m :: members, rest)
  | .members ms, cs => ∀ fuel rest, cs.length < fuel → readMembers fuel (cs ++ '\x7d' :: rest) = some (ms, rest)

theorem Written.skipBlanks_ne {p : Phrase} {cs : List Char} (h : Written p cs) (rest after : List Char) :
    skipBlanks (cs ++ rest) ≠ ']' :: after ∧ skipBlanks (cs ++ rest) ≠ '\x7d' :: after := by
  obtain ⟨ws, c, ds, hw, rfl, hc, hbracket, hbrace⟩ := h.exists_head
  rw [List.append_assoc, skipBlanks_append hw, List.cons_append, skipBlanks_cons hc]
  exact ⟨fun h => hbracket (List.cons.inj h).1, fun h => hbrace (List.cons.inj h).1⟩

theorem follows_cons {c : Char} (h : c ∈ [',', ']', '\x7d']) (rest : List Char) : Follows (c :: rest) := by
  rintro d ⟨⟩
  exact .inr h

/-- Every phrase of the grammar is read as the value that it denotes, with as many steps as it has characters. -/
theorem Written.reads {p : Phrase} {cs : List Char} (h : Written p cs) : Reads p cs := by
  induction h with
  | null =>
    rintro (- | fuel) rest hf -
    · cases hf
    · rfl
  | bool b =>
    rintro (- | fuel) rest hf -
    · cases b <;> cases hf
    · cases b <;> rfl
  | number h =>
    rintro (- | fuel) rest hf hrest
    · obtain ⟨c, ds, rfl, -⟩ := h.exists_head
      cases hf
    · exact readValue_numeral h fuel hrest
  | string h =>
    rintro (- | fuel) rest hf -
    · cases hf
    · simpa using readValue_spelled h fuel rest
  | emptyArray hw =>
    rintro (- | fuel) rest hf -
    · cases hf
    · simpa using readValue_emptyArray hw fuel rest
  | emptyObject hw =>
    rintro (- | fuel) rest hf -
    · cases hf
    · simpa using readValue_emptyObject hw fuel rest
  | array h ih =>
    rintro (- | fuel) rest hf -
    · cases hf
    · simp only [List.cons_append, List.append_assoc, List.nil_append]
      rw [readValue_array fuel fun after => (h.skipBlanks_ne _ after).1, ih fuel rest (by simp at hf; omega)]
      rfl
  | object h ih =>
    rintro (- | fuel) rest hf -
    · cases hf
    · simp only [List.cons_append, List.append_assoc, List.nil_append]
      rw [readValue_object fuel fun after => (h.skipBlanks_ne _ after).2, ih fuel rest (by simp at hf; omega)]
      rfl
  | @element j ws cs after hw _ hafter ih =>
    intro fuel rest hf hrest
    refine ⟨after, hafter, ?_⟩
    simp only [List.append_assoc]
    rw [readValue_append_blanks hw]
    exact ih fuel (after ++ rest) (by simp at hf; omega) (follows_append hafter hrest)
  | one _ ih =>
    rintro (- | fuel) rest hf
    · cases hf
    · obtain ⟨ws, hw, hread⟩ := ih fuel (']' :: rest) (by omega) (follows_cons (by decide) rest)
      exact readItems_close hw hread
  | more _ _ ih ihs =>
    rintro (- | fuel) rest hf
    · cases hf
    · simp only [List.append_assoc, List.cons_append]
      obtain ⟨ws, hw, hread⟩ := ih fuel (',' :: _) (by simp at hf; omega) (follows_cons (by decide) _)
      rw [readItems_blanks_comma hw hread, ihs fuel rest (by simp at hf; omega)]
      rfl
  | member hw hkey hafter _ ih =>
    intro fuel rest hf
    simp only [List.append_assoc, List.cons_append]
    constructor
    · obtain ⟨before, hb, hread⟩ := ih fuel ('\x7d' :: rest) (by simp at hf; omega) (follows_cons (by decide) rest)
      rw [readMembers_member hw hkey hafter hread, readFurther, skipBlanks_append hb]
      rfl
    · obtain ⟨before, hb, hread⟩ := ih fuel (',' :: rest) (by simp at hf; omega) (follows_cons (by decide) rest)
      rw [readMembers_member hw hkey hafter hread, readFurther, skipBlanks_append hb]
      rfl
  | oneMember _ ih =>
    rintro (- | fuel) rest hf
    · cases hf
    · exact (ih fuel rest (by omega)).1
  | moreMembers _ _ ih ihs =>
    rintro (- | fuel) rest hf
    · cases hf
    · simp only [List.append_assoc, List.cons_append]
      rw [(ih fuel _ (by simp at hf; omega)).2, ihs fuel rest (by simp at hf; omega)]
      rfl

/-- Every JSON text is read as the value that it denotes. -/
theorem parse?_eq_some {s : String} {j : Json} (h : Written (.element j) s.toList) : parse? s = some j := by
  obtain ⟨ws, hw, hread⟩ := h.reads (2 * s.toList.length + 2) [] (by omega) nofun
  rw [List.append_nil, List.append_nil] at hread
  have hblank : skipBlanks ws = [] := by
    rw [← List.append_nil ws, skipBlanks_append hw]
    rfl
  simp [parse?, hread, hblank]

end ClassDiagram.Json
