/-
The JSON form of a diagram denotes the diagram: a record is read back from the object of its fields,
a list from the array of its items, a name of a closed list from the name. With the round trip of
JSON texts, what is printed for a diagram is read back as that diagram.
-/
import ClassDiagram.Proofs.Json.RoundTrip
import ClassDiagram.View.Codec

namespace ClassDiagram

namespace Json

/-! ## Records and lists -/

theorem mapM_map_eq_some {α β γ : Type} {k : α → β} {f : β → Option γ} {g : α → γ} :
    ∀ (xs : List α), (∀ x ∈ xs, f (k x) = some (g x)) → (xs.map k).mapM f = some (xs.map g)
  | [], _ => rfl
  | x :: xs, h => by
    have ih := mapM_map_eq_some xs fun y hy => h y (List.mem_cons_of_mem _ hy)
    rw [List.map_cons, List.mapM_cons, h x (List.mem_cons_self ..), ih]
    rfl

/-- Where no key is repeated, a key has the value that stands beside it. -/
theorem member?_of_mem : ∀ (members : List (String × Json)), (members.map (·.1)).Nodup →
    ∀ m ∈ members, member? (members.map fun (key, value) => (some key, value)) m.1 = some (some m.2)
  | [], _, _, hm => by cases hm
  | n :: ns, hn, m, hm => by
    rw [List.map_cons, List.nodup_cons] at hn
    unfold member?
    by_cases hk : n.1 = m.1
    · -- the key is not repeated after this place
      have hrest : (ns.map fun (key, value) => (some key, value)).filter
          (fun p : Option String × Json => p.1 == some m.1) = [] := by
        rw [List.filter_eq_nil_iff]
        rintro p hp hpk
        obtain ⟨o, ho, rfl⟩ := List.mem_map.1 hp
        have hok : o.1 = m.1 := by simpa using hpk
        exact hn.1 (List.mem_map.2 ⟨o, ho, hok.trans hk.symm⟩)
      have hnm : n = m := by
        rcases List.mem_cons.1 hm with rfl | hm
        · rfl
        · exact absurd (List.mem_map.2 ⟨m, hm, hk.symm⟩) hn.1
      rw [List.map_cons, List.filter_cons_of_pos (by simp [hk]), hrest, hnm]
    · have hmem : m ∈ ns := by
        rcases List.mem_cons.1 hm with rfl | hm
        · exact absurd rfl hk
        · exact hm
      rw [List.map_cons, List.filter_cons_of_neg (by simpa using hk)]
      exact member?_of_mem ns hn.2 m hmem

/-- The fields of a record are read off the object that holds them. -/
theorem fields?_record {names : List String} (lenient : Bool) {members : List (String × Json)}
    (hn : names.Nodup) (hk : members.map (·.1) = names) :
    (record members).fields? names lenient = some (members.map fun m => some m.2) := by
  subst hk
  have hkeys : (members.map fun (key, value) => (some key, value)).all
      (fun m : Option String × Json => m.1.isSome) = true := by simp
  unfold record fields?
  simp only [hkeys, if_true]
  exact mapM_map_eq_some members (member?_of_mem members hn)

/-- A list is read back from its array if each item is read back. -/
theorem list?_array {α : Type} {toJson : α → Json} {ofJson? : Json → Option α}
    (h : ∀ a, ofJson? (toJson a) = some a) (as : List α) :
    list? ofJson? (.array (as.map toJson)) = some as := by
  show (as.map toJson).mapM ofJson? = some as
  rw [mapM_map_eq_some as fun a _ => h a, List.map_id']

end Json

/-! ## Names of closed lists -/

theorem Visibility.ofName?_name (v : Visibility) : ofName? v.name = some v := by cases v <;> decide

theorem ClassifierKind.ofName?_name (k : ClassifierKind) : ofName? k.name = some k := by cases k <;> decide

theorem RelationKind.ofName?_name (k : RelationKind) : ofName? k.name = some k := by cases k <;> decide

theorem Visibility.optionOfJson?_optionToJson (v : Option Visibility) :
    optionOfJson? (some (optionToJson v)) = some v := by
  cases v with
  | none => rfl
  | some v =>
    show (ofName? v.name).map some = some (some v)
    rw [Visibility.ofName?_name]
    rfl

/-! ## The parts of a diagram -/

theorem Attribute.ofJson?_toJson (a : Attribute) : ofJson? a.toJson = some a := by
  rw [ofJson?, toJson, Json.fields?_record]
  · simp [Visibility.optionOfJson?_optionToJson, Json.bool?, Json.text?, Json.text]
  · decide
  · rfl

theorem Operation.ofJson?_toJson (o : Operation) : ofJson? o.toJson = some o := by
  have hp : Json.list? Json.text? (.texts o.params) = some o.params :=
    Json.list?_array (fun s => show Json.text? (.text s) = some s from rfl) o.params
  rw [ofJson?, toJson, Json.fields?_record]
  · simp [Visibility.optionOfJson?_optionToJson, Json.bool?, Json.text?, Json.text, hp]
  · decide
  · rfl

theorem Classifier.ofJson?_toJson (c : Classifier) : ofJson? c.toJson = some c := by
  have ha := Json.list?_array Attribute.ofJson?_toJson c.attributes
  have ho := Json.list?_array Operation.ofJson?_toJson c.operations
  rw [ofJson?, toJson, Json.fields?_record]
  · simp [Json.text?, Json.text, Json.named?, ClassifierKind.ofName?_name, ha, ho]
  · decide
  · rfl

theorem Relation.ofJson?_toJson (r : Relation) : ofJson? r.toJson = some r := by
  rw [ofJson?, toJson, Json.fields?_record]
  · simp [Json.text?, Json.text, Json.named?, RelationKind.ofName?_name]
  · decide
  · rfl

theorem View.ofJson?_toJson (v : View) : ofJson? v.toJson = some v := by
  have hc := Json.list?_array Classifier.ofJson?_toJson v.classifiers
  have hr := Json.list?_array Relation.ofJson?_toJson v.relations
  rw [ofJson?, toJson, Json.fields?_record]
  · simp [hc, hr]
  · decide
  · rfl

/-! ## No numbers -/

namespace Json

theorem numberlessAll_map {α : Type} {toJson : α → Json} (h : ∀ a, (toJson a).numberless = true) :
    ∀ (as : List α), numberlessAll (as.map toJson) = true
  | [] => rfl
  | a :: as => by rw [List.map_cons, numberlessAll, h a, numberlessAll_map h as]; rfl

theorem numberless_ofOption (s : Option String) : (ofOption s).numberless = true := by cases s <;> rfl

end Json

theorem Attribute.numberless_toJson (a : Attribute) : a.toJson.numberless = true := by
  simp [toJson, Json.record, Json.numberless, Json.numberlessMembers, Json.text,
    Visibility.optionToJson, Json.numberless_ofOption]

theorem Operation.numberless_toJson (o : Operation) : o.toJson.numberless = true := by
  have hp : Json.numberlessAll (o.params.map Json.text) = true := Json.numberlessAll_map (fun _ => rfl) _
  simp [toJson, Json.record, Json.numberless, Json.numberlessMembers, Json.text,
    Visibility.optionToJson, Json.numberless_ofOption, Json.texts, hp]

theorem Classifier.numberless_toJson (c : Classifier) : c.toJson.numberless = true := by
  simp [toJson, Json.record, Json.numberless, Json.numberlessMembers, Json.text,
    Json.numberlessAll_map Attribute.numberless_toJson, Json.numberlessAll_map Operation.numberless_toJson]

theorem Relation.numberless_toJson (r : Relation) : r.toJson.numberless = true := rfl

theorem View.numberless_toJson (v : View) : v.toJson.numberless = true := by
  simp [toJson, Json.record, Json.numberless, Json.numberlessMembers,
    Json.numberlessAll_map Classifier.numberless_toJson, Json.numberlessAll_map Relation.numberless_toJson]

/-! ## The text of a diagram -/

/-- A diagram is read back from its text, whatever characters stand in its names. -/
theorem View.parse?_print (v : View) : View.parse? v.print = some v := by
  unfold View.parse? View.print
  rw [Json.parse?_pretty (View.numberless_toJson v), Option.bind_some]
  exact View.ofJson?_toJson v

end ClassDiagram
