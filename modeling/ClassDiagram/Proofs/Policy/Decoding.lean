/-
What a policy's text says. The text is a JSON object that may hold a list of levels for fields and one
for methods, in any order, among members of other names. Every such text is decoded; a level passes if
its list has it or if there is no list, and the two lists have no bearing on each other. So the policy
depends on which levels are listed, not on how.
-/
import ClassDiagram.Extraction
import ClassDiagram.Policy.Codec
import ClassDiagram.Proofs.Json.Grammar
import ClassDiagram.Proofs.View.RoundTrip

namespace ClassDiagram

/-! ## Lists of levels -/

/-- The array of the names of the levels. -/
def levelNames (levels : List Visibility) : Json := .array (levels.map fun v => .text v.name)

/-- The level is listed, or there is no list. -/
def Listed (levels : Option (List Visibility)) (v : Visibility) : Prop := ∀ vs ∈ levels, v ∈ vs

/-- Among the members of an object the key stands once, with the list of levels, or not at all. -/
def Lists (members : List (Option String × Json)) (key : String) (levels : Option (List Visibility)) : Prop :=
  (members.filter fun m => m.1 == some key).map (·.2) = levels.toList.map levelNames

/-- The text is an object with these lists of levels. All its keys denote texts. -/
def Describes (s : String) (fields methods : Option (List Visibility)) : Prop :=
  ∃ members, Json.Written (.element (.object members)) s.toList ∧ (∀ m ∈ members, m.1.isSome = true) ∧
    Lists members "field_visibility" fields ∧ Lists members "method_visibility" methods

section
variable {members : List (Option String × Json)} {key s : String} {levels fields methods : Option (List Visibility)}

theorem member?_of_lists (h : Lists members key levels) : Json.member? members key = some (levels.map levelNames) := by
  unfold Lists at h
  unfold Json.member?
  cases levels with
  | none =>
    rw [List.map_eq_nil_iff.1 h]
    rfl
  | some vs =>
    obtain ⟨⟨k, j⟩, hm, hj⟩ := List.map_eq_singleton_iff.1 h
    rw [hm]
    exact congrArg (fun j => some (some j)) hj

theorem LevelSet.exists_ofField? (levels : Option (List Visibility)) :
    ∃ set : LevelSet, LevelSet.ofField? (levels.map levelNames) = some set ∧ ∀ v, set v = true ↔ Listed levels v := by
  cases levels with
  | none => exact ⟨LevelSet.full, rfl, fun v => ⟨fun _ => nofun, fun _ => rfl⟩⟩
  | some vs =>
    have hnames : (levelNames vs).list? (Json.named? Visibility.ofName?) = some vs :=
      Json.list?_array Visibility.ofName?_name vs
    refine ⟨LevelSet.ofList vs, ?_, fun v => ?_⟩
    · rw [Option.map_some, LevelSet.ofField?, LevelSet.ofJson?, hnames]
      rfl
    · simp [LevelSet.ofList, Listed]

theorem exists_parse?_of_describes (h : Describes s fields methods) :
    ∃ p, Policy.parse? s = some p ∧ (∀ v, p.fields v = true ↔ Listed fields v) ∧
      ∀ v, p.methods v = true ↔ Listed methods v := by
  obtain ⟨members, hwritten, hkeys, hfields, hmethods⟩ := h
  obtain ⟨fieldSet, hfieldSet, hf⟩ := LevelSet.exists_ofField? fields
  obtain ⟨methodSet, hmethodSet, hm⟩ := LevelSet.exists_ofField? methods
  refine ⟨⟨fieldSet, methodSet⟩, ?_, hf, hm⟩
  have hobject : (Json.object members).fields? ["field_visibility", "method_visibility"] true =
      some [fields.map levelNames, methods.map levelNames] := by
    rw [Json.fields?, if_pos (List.all_eq_true.2 hkeys), List.mapM_cons, List.mapM_cons,
      member?_of_lists hfields, member?_of_lists hmethods]
    rfl
  rw [Policy.parse?, Json.parse?_eq_some hwritten, Option.bind_some, Policy.ofJson?, hobject]
  simp [hfieldSet, hmethodSet]

/-- A text with lists of levels is decoded. A member passes if its level is listed for members of its sort or
nothing is listed for them; without a keyword it has the level of its package. Another text whose lists let the
same levels pass gives the same policy and so the same diagrams. -/
theorem parse?_of_describes (h : Describes s fields methods) :
    ∃ p, Policy.parse? s = some p ∧
      (∀ v : Option Visibility, p.includesField v = true ↔ Listed fields (v.getD .packageAccess)) ∧
      (∀ v : Option Visibility, p.includesMethod v = true ↔ Listed methods (v.getD .packageAccess)) ∧
      ∀ s' fields' methods', Describes s' fields' methods' → (∀ v, Listed fields' v ↔ Listed fields v) →
        (∀ v, Listed methods' v ↔ Listed methods v) →
        ∃ p', Policy.parse? s' = some p' ∧ p' = p ∧ ∀ (package : String) (unit : CompilationUnit),
          (Extractor.extract ⟨package, p'⟩ unit).view = (Extractor.extract ⟨package, p⟩ unit).view := by
  obtain ⟨p, hp, hfields, hmethods⟩ := exists_parse?_of_describes h
  refine ⟨p, hp, fun v => hfields _, fun v => hmethods _, fun s' fields' methods' h' hsameFields hsameMethods => ?_⟩
  obtain ⟨p', hp', hfields', hmethods'⟩ := exists_parse?_of_describes h'
  have hset : p'.fields = p.fields := by
    funext v
    rw [Bool.eq_iff_iff, hfields', hsameFields, hfields]
  have hset' : p'.methods = p.methods := by
    funext v
    rw [Bool.eq_iff_iff, hmethods', hsameMethods, hmethods]
  have hpolicy : p' = p := by
    cases p
    cases p'
    cases hset
    cases hset'
    rfl
  exact ⟨p', hp', hpolicy, fun package unit => by rw [hpolicy]⟩

end

/-! ### A text -/

namespace Json

theorem spelled_of_all {cs : List Char} (h : cs.all (fun c => c != '"' && c != '\\' && 0x20 ≤ c.toNat) = true) :
    Spelled cs (some cs) := by
  induction cs with
  | nil => exact .nil
  | cons c cs ih =>
    rw [List.all_cons, Bool.and_eq_true] at h
    simp only [Bool.and_eq_true, bne_iff_ne, decide_eq_true_eq] at h
    obtain ⟨⟨⟨hquote, hslash⟩, hcontrol⟩, hcs⟩ := h
    exact .plain hquote hslash hcontrol (ih hcs)

theorem allBlank_nil : AllBlank [] := nofun

theorem written_element {j : Json} {cs : List Char} (h : Written (.value j) cs) : Written (.element j) cs := by
  simpa using Written.element allBlank_nil h allBlank_nil

theorem written_levelName (v : Visibility) : Written (.element (.text v.name)) ('"' :: (v.name.toList ++ ['"'])) := by
  have hplain : v.name.toList.all (fun c => c != '"' && c != '\\' && 0x20 ≤ c.toNat) = true := by cases v <;> decide
  simpa [text] using written_element (.string (spelled_of_all hplain))

theorem written_number : Written (.element (.number "-0.5E+1")) " -0.5E+1".toList := by
  have h : Numeral (['-'] ++ ['0'] ++ ['.', '5'] ++ ['E', '+', '1']) :=
    .intro (by decide) (.inl rfl) (.inr ⟨['5'], ⟨nofun, List.forall_mem_singleton.2 rfl⟩, rfl⟩)
      (.inr ⟨'E', ['+'], ['1'], by decide, by decide, ⟨nofun, List.forall_mem_singleton.2 rfl⟩, rfl⟩)
  exact .element allBlank_space (.number h) allBlank_nil

end Json

/-- No list for fields, a list for methods that repeats a level, and a number that is passed over. -/
def methodsOnly : String := "\x7b\"x\": -0.5E+1, \"method_visibility\" :[\"private\",\"private\",\"default\"]\x7d"

theorem describes_methodsOnly :
    Describes methodsOnly none (some [.privateAccess, .privateAccess, .packageAccess]) := by
  have hlevels : Json.Written (.value (levelNames [.privateAccess, .privateAccess, .packageAccess])) _ :=
    .array (.more (Json.written_levelName .privateAccess) (.more (Json.written_levelName .privateAccess)
      (.one (Json.written_levelName .packageAccess))))
  have hfirst : Json.Written (.member (some "x", .number "-0.5E+1")) "\"x\": -0.5E+1".toList :=
    .member Json.allBlank_nil (@Json.spelled_of_all ['x'] (by decide)) Json.allBlank_nil Json.written_number
  have hsecond : Json.Written (.member (some "method_visibility", levelNames _)) _ :=
    .member Json.allBlank_space (@Json.spelled_of_all "method_visibility".toList (by decide))
      Json.allBlank_space (Json.written_element hlevels)
  exact ⟨_, Json.written_element (.object (.moreMembers hfirst (.oneMember hsecond))), by simp, rfl, rfl⟩

theorem parse?_of_describes_methodsOnly :
    Describes methodsOnly none (some [.privateAccess, .privateAccess, .packageAccess]) ∧
      ∃ p, Policy.parse? methodsOnly = some p ∧ p.includesField (some .publicAccess) = true ∧
        p.includesMethod none = true ∧ p.includesMethod (some .publicAccess) = false := by
  obtain ⟨p, hp, hfields, hmethods, -⟩ := parse?_of_describes describes_methodsOnly
  refine ⟨describes_methodsOnly, p, hp, (hfields _).2 nofun, (hmethods _).2 (by simp [Listed]), ?_⟩
  rw [← Bool.not_eq_true, hmethods]
  simp [Listed]

end ClassDiagram
