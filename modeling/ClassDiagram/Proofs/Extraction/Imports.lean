/-
Which imports have a bearing on a diagram. The import table keeps, for each simple name, the last import
of that name that is no wildcard, and a diagram sees nothing of the imports but what the table says. So
wildcards may come and go, an import that is overruled by a later one of the same name may be dropped, and
imports may change places as long as those of one name stay in order.
-/
import ClassDiagram.Proofs.Extraction.Footprint
import ClassDiagram.Proofs.Imports.Resolution
import Mathlib.Data.Finset.Card

namespace ClassDiagram

namespace ImportDeclaration

/-- The imports that are no wildcards. -/
def singles (imports : List ImportDeclaration) : List ImportDeclaration := imports.filter fun i => !i.isWildcard

/-- The imports of a simple name, wildcards left aside. -/
def singlesOf (name : String) (imports : List ImportDeclaration) : List ImportDeclaration :=
  (singles imports).filter (·.name == name)

/-- The same imports in another order, in which those of one simple name follow each other as before;
wildcards may stand anywhere. -/
structure Rearranged (is js : List ImportDeclaration) : Prop where
  perm : is.Perm js
  order : ∀ i ∈ is, singlesOf i.name is = singlesOf i.name js

theorem singlesOf_append (name : String) (is js : List ImportDeclaration) :
    singlesOf name (is ++ js) = singlesOf name is ++ singlesOf name js := by
  simp [singlesOf, singles]

theorem mem_singlesOf {name : String} {imports : List ImportDeclaration} {i : ImportDeclaration} :
    i ∈ singlesOf name imports ↔ i ∈ imports ∧ i.isWildcard = false ∧ i.name = name := by
  simp only [singlesOf, singles, List.mem_filter, Bool.not_eq_true', beq_iff_eq, and_assoc]

theorem singlesOf_eq_nil {name : String} {imports : List ImportDeclaration} (h : ∀ i ∈ imports, i.name ≠ name) :
    singlesOf name imports = [] := by
  refine List.eq_nil_iff_forall_not_mem.2 fun i hi => ?_
  obtain ⟨hmem, -, hname⟩ := mem_singlesOf.1 hi
  exact h i hmem hname

theorem singlesOf_cons_of_ne {name : String} {i : ImportDeclaration} (h : i.name ≠ name)
    (imports : List ImportDeclaration) : singlesOf name (i :: imports) = singlesOf name imports := by
  rw [← List.singleton_append, singlesOf_append, singlesOf_eq_nil (List.forall_mem_singleton.2 h), List.nil_append]

theorem Rearranged.singlesOf_eq {is js : List ImportDeclaration} (h : Rearranged is js) (name : String) :
    singlesOf name is = singlesOf name js := by
  by_cases hname : ∃ i ∈ is, i.name = name
  · obtain ⟨i, hi, rfl⟩ := hname
    exact h.order i hi
  · -- a name that is not imported on the one side is not imported on the other
    have his : ∀ i ∈ is, i.name ≠ name := fun i hi heq => hname ⟨i, hi, heq⟩
    have hjs : ∀ j ∈ js, j.name ≠ name := fun j hj => his j (h.perm.mem_iff.2 hj)
    rw [singlesOf_eq_nil his, singlesOf_eq_nil hjs]

/-- An import that is followed by one of the same name is the last one of no name. -/
theorem getLast?_singlesOf_erase (name : String) (before : List ImportDeclaration) {i j : ImportDeclaration}
    {after : List ImportDeclaration} (hj : j ∈ after) (hsingle : j.isWildcard = false) (hname : j.name = i.name) :
    (singlesOf name (before ++ i :: after)).getLast? = (singlesOf name (before ++ after)).getLast? := by
  by_cases hi : i.name = name
  · -- the later import of this name keeps the rest of the list from being empty
    have hne : singlesOf name after ≠ [] :=
      List.ne_nil_of_mem (mem_singlesOf.2 ⟨hj, hsingle, hname.trans hi⟩)
    rw [← List.singleton_append, singlesOf_append, singlesOf_append, singlesOf_append, List.getLast?_append_of_ne_nil,
      List.getLast?_append_of_ne_nil, List.getLast?_append_of_ne_nil]
    · exact hne
    · exact hne
    · exact List.append_ne_nil_of_right_ne_nil _ hne
  · rw [singlesOf_append, singlesOf_append, singlesOf_cons_of_ne hi]

end ImportDeclaration

namespace ImportTable

open ImportDeclaration

/-! ## The table -/

theorem get?_ofImports_eq_getLast? (imports : List ImportDeclaration) (name : String) :
    (ofImports imports).get? name = (singlesOf name imports).getLast?.map (·.qualifiedName) := by
  have hlast : (singlesOf name imports).getLast? = (singles imports).reverse.find? (·.name == name) := by
    rw [singlesOf, List.getLast?_eq_head?_reverse, ← List.filter_reverse, List.head?_filter]
  rw [get?_ofImports, hlast, singles]

theorem mem_keys_setEntry {key value name : String} : ∀ {entries : List (String × String)},
    name ∈ (setEntry key value entries).map (·.1) ↔ name = key ∨ name ∈ entries.map (·.1)
  | [] => by simp [setEntry]
  | (k, v) :: entries => by
    have ih : name ∈ (setEntry key value entries).map (·.1) ↔ _ := mem_keys_setEntry
    rw [setEntry]
    by_cases hk : k = key
    · simp [hk]
    · rw [if_neg (by simpa using hk), List.map_cons, List.mem_cons, ih, List.map_cons, List.mem_cons]
      exact or_left_comm

/-- An entry is set in its place, so no key comes to stand twice. -/
theorem nodup_keys_setEntry (key value : String) : ∀ {entries : List (String × String)},
    (entries.map (·.1)).Nodup → ((setEntry key value entries).map (·.1)).Nodup
  | [], _ => by simp [setEntry]
  | (k, v) :: entries, h => by
    obtain ⟨hk, hrest⟩ := List.nodup_cons.1 h
    rw [setEntry]
    by_cases heq : k = key
    · subst heq
      simpa using ⟨by simpa using hk, hrest⟩
    · rw [if_neg (by simpa using heq)]
      refine List.nodup_cons.2 ⟨?_, nodup_keys_setEntry key value hrest⟩
      rw [mem_keys_setEntry]
      rintro (hkey | hmem)
      · exact heq hkey
      · exact hk hmem

/-- One more import sets one more entry, unless it is a wildcard. -/
theorem entries_ofImports_concat (imports : List ImportDeclaration) (i : ImportDeclaration) :
    (ofImports (imports ++ [i])).entries =
      if i.isWildcard then (ofImports imports).entries
      else setEntry i.name i.qualifiedName (ofImports imports).entries := by
  unfold ofImports
  cases hi : i.isWildcard <;> simp [hi]

theorem nodup_keys_ofImports (imports : List ImportDeclaration) : ((ofImports imports).entries.map (·.1)).Nodup := by
  induction imports using List.reverseRecOn with
  | nil => exact List.nodup_nil
  | append_singleton imports i ih =>
    rw [entries_ofImports_concat]
    split
    · exact ih
    · exact nodup_keys_setEntry i.name i.qualifiedName ih

theorem mem_keys_ofImports {name : String} (imports : List ImportDeclaration) :
    name ∈ (ofImports imports).entries.map (·.1) ↔ name ∈ (singles imports).map (·.name) := by
  induction imports using List.reverseRecOn with
  | nil => rfl
  | append_singleton imports i ih =>
    rw [entries_ofImports_concat, singles, List.filter_append, List.map_append, List.mem_append, ← singles, ← ih]
    cases hi : i.isWildcard with
    | true => simp [hi]
    | false =>
      rw [if_neg Bool.false_ne_true, mem_keys_setEntry, or_comm]
      simp [hi]

/-- The table has one entry for each simple name that is imported. -/
theorem size_ofImports (imports : List ImportDeclaration) :
    (ofImports imports).size = ((singles imports).map (·.name)).toFinset.card := by
  have hkeys : ((singles imports).map (·.name)).toFinset = ((ofImports imports).entries.map (·.1)).toFinset := by
    ext name
    rw [List.mem_toFinset, List.mem_toFinset, mem_keys_ofImports]
  rw [hkeys, List.toFinset_card_of_nodup (nodup_keys_ofImports imports), List.length_map, size]

theorem resolve_congr {t u : ImportTable} (h : ∀ name, t.get? name = u.get? name) (package : String)
    (r : TypeReference) : t.resolve package r = u.resolve package r := by
  unfold resolve
  simp only [h]

end ImportTable

namespace Extractor

open ImportDeclaration

/-! ## The diagram -/

section
variable (x : Extractor)

theorem ancestry_congr_imports {t u : ImportTable} (h : ∀ name, t.get? name = u.get? name) (s : Site) :
    x.ancestry t s = x.ancestry u s := by
  have hresolve := ImportTable.resolve_congr h x.package
  simp only [ancestry, relations, hresolve]

/-- A diagram depends on the imports by the last import of each name. -/
theorem extract_view_congr_imports (unit : CompilationUnit) {is js : List ImportDeclaration}
    (h : ∀ name, (singlesOf name is).getLast? = (singlesOf name js).getLast?) :
    (x.extract { unit with imports := is }).view = (x.extract { unit with imports := js }).view := by
  have hget : ∀ name, (ImportTable.ofImports is).get? name = (ImportTable.ofImports js).get? name := by
    intro name
    rw [ImportTable.get?_ofImports_eq_getLast?, ImportTable.get?_ofImports_eq_getLast?, h]
  rw [extract_view, extract_view]
  simp only [drawing, x.ancestry_congr_imports hget]
  rfl

/-- Of the imports of a name the last one counts, wildcards left aside, and the table has one entry for each
name. Hence a diagram stays the same when wildcards are put in or taken out, when an import is dropped whose
name is imported again later, and when imports change places but those of one name stay in order. -/
theorem extract_view_last_imports (unit : CompilationUnit) (imports : List ImportDeclaration) :
    (∀ name, (ImportTable.ofImports imports).get? name = (singlesOf name imports).getLast?.map (·.qualifiedName)) ∧
    (ImportTable.ofImports imports).size = ((singles imports).map (·.name)).toFinset.card ∧
    (∀ others, singles others = singles imports →
      (x.extract { unit with imports := others }).view = (x.extract { unit with imports }).view) ∧
    (∀ before i after, imports = before ++ i :: after → (∃ j ∈ after, j.isWildcard = false ∧ j.name = i.name) →
      (x.extract { unit with imports := before ++ after }).view = (x.extract { unit with imports }).view) ∧
    (∀ others, Rearranged others imports →
      (x.extract { unit with imports := others }).view = (x.extract { unit with imports }).view) := by
  refine ⟨ImportTable.get?_ofImports_eq_getLast? imports, ImportTable.size_ofImports imports, ?_, ?_, ?_⟩
  · intro others h
    refine x.extract_view_congr_imports unit fun name => ?_
    rw [singlesOf, h, singlesOf]
  · rintro before i after rfl ⟨j, hj, hsingle, hname⟩
    exact x.extract_view_congr_imports unit fun name =>
      (getLast?_singlesOf_erase name before hj hsingle hname).symm
  · intro others h
    exact x.extract_view_congr_imports unit fun name => by rw [h.singlesOf_eq name]

end

end Extractor

/-! ### Two lists of imports -/

/-- Two imports of one name, of which the first is overruled, with a wildcard of that name behind them. -/
def CompilationUnit.listImports : List ImportDeclaration :=
  [.single "a.List", .single "a.Map", .single "b.List", .wildcard "c.List"]

/-- The same imports in another order. -/
def CompilationUnit.shuffledImports : List ImportDeclaration :=
  [.single "a.List", .wildcard "c.List", .single "b.List", .single "a.Map"]

/-- A class that extends what is imported twice. -/
def CompilationUnit.listUser : CompilationUnit where
  types := [.node { name := "Outer", kind := .enumType } [
    .node { name := "Inner", extended := [{ name := "List" }], implemented := [{ name := "Map" }] } []]]

section
open CompilationUnit

theorem Extractor.extract_view_last_imports_listUser :
    ImportDeclaration.Rearranged shuffledImports listImports ∧
    ImportDeclaration.singles (listImports.take 3) = ImportDeclaration.singles listImports ∧
    listImports = [] ++ .single "a.List" :: listImports.tail ∧
    (ImportTable.ofImports listImports).get? "List" = some "b.List" ∧
    (ImportTable.ofImports listImports).size = 2 ∧
    (∀ others ∈ [shuffledImports, listImports.take 3, listImports.tail],
      (extract ⟨"p", {}⟩ { listUser with imports := others }).view =
        (extract ⟨"p", {}⟩ { listUser with imports := listImports }).view) := by
  have hrearranged : ImportDeclaration.Rearranged shuffledImports listImports := ⟨by decide, by decide⟩
  have hsingles : ImportDeclaration.singles (listImports.take 3) = ImportDeclaration.singles listImports := by decide
  obtain ⟨hget, hsize, hwildcards, hdrop, hrearrange⟩ := extract_view_last_imports ⟨"p", {}⟩ listUser listImports
  refine ⟨hrearranged, hsingles, rfl, (hget "List").trans (by decide), hsize.trans (by decide), ?_⟩
  intro others hothers
  simp only [List.mem_cons, List.not_mem_nil, or_false] at hothers
  rcases hothers with rfl | rfl | rfl
  · exact hrearrange _ hrearranged
  · exact hwildcards _ hsingles
  · exact hdrop [] _ _ rfl ⟨.single "b.List", by decide, rfl, by decide⟩

end

end ClassDiagram
