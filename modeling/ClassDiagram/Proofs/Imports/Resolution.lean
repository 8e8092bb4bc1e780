/-
What a written name resolves to. A simple name is looked up among the imports, of which the last one
counts. Of a dotted name only the first segment is looked at: what was imported under it, or the
package at hand, comes in front, and everything behind the first segment stays as it was written.
-/
import ClassDiagram.Imports
import ClassDiagram.Proofs.Text.Dotted

namespace ClassDiagram

open ClassDiagram.Text

namespace ImportTable

/-! ## Looking a name up -/

theorem find?_setEntry (key value name : String) : ∀ entries : List (String × String),
    (setEntry key value entries).find? (·.1 == name) =
      if key == name then some (key, value) else entries.find? (·.1 == name)
  | [] => by
    rw [setEntry, List.find?_cons]
    cases key == name <;> rfl
  | (k, v) :: entries => by
    rw [setEntry]
    by_cases hk : k = key
    · subst hk
      simp only [beq_self_eq_true, if_true, List.find?_cons]
      cases k == name <;> rfl
    · rw [if_neg (by simpa using hk), List.find?_cons, List.find?_cons, find?_setEntry key value name entries]
      by_cases hn : k = name
      · have hkey : (key == name) = false := by simpa using fun h : key = name => hk (hn.trans h.symm)
        simp [hn, hkey]
      · have hname : (k == name) = false := by simpa using hn
        simp [hname]

/-- A name stands for what the last import of that name brings in, wildcards left aside. -/
theorem get?_ofImports (imports : List ImportDeclaration) (name : String) :
    (ofImports imports).get? name =
      ((imports.filter fun i => !i.isWildcard).reverse.find? (·.name == name)).map (·.qualifiedName) := by
  have hentries : ∀ is : List ImportDeclaration,
      (is.foldr (fun i entries => setEntry i.name i.qualifiedName entries) []).find? (·.1 == name) =
        (is.find? (·.name == name)).map fun i => (i.name, i.qualifiedName) := by
    intro is
    induction is with
    | nil => rfl
    | cons i is ih =>
      rw [List.foldr_cons, find?_setEntry, ih, List.find?_cons]
      cases i.name == name <;> rfl
  unfold get? ofImports
  rw [List.foldl_eq_foldr_reverse, hentries, Option.map_map]
  rfl

/-- A name that is not imported stands for nothing. -/
theorem get?_ofImports_eq_none {imports : List ImportDeclaration} {name : String}
    (h : ∀ i ∈ imports, i.isWildcard = false → i.name ≠ name) : (ofImports imports).get? name = none := by
  rw [get?_ofImports, Option.map_eq_none_iff, List.find?_eq_none]
  intro i hi
  obtain ⟨hmem, hsingle⟩ := List.mem_filter.1 (List.mem_reverse.1 hi)
  simpa using h i hmem (by simpa using hsingle)

theorem exists_of_get?_ofImports {imports : List ImportDeclaration} {name imported : String}
    (h : (ofImports imports).get? name = some imported) :
    ∃ i ∈ imports, i.isWildcard = false ∧ i.name = name ∧ i.qualifiedName = imported := by
  rw [get?_ofImports] at h
  obtain ⟨i, hi, himported⟩ := Option.map_eq_some_iff.1 h
  obtain ⟨hmem, hsingle⟩ := List.mem_filter.1 (List.mem_reverse.1 (List.mem_of_find?_eq_some hi))
  exact ⟨i, hmem, by simpa using hsingle, by simpa using List.find?_some hi, himported⟩

/-! ## What a reference resolves to -/

/-- The name begins with one of the letters from `A` to `Z`. -/
def OpensUpper (name : String) : Prop := ∃ c ∈ name.toList.head?, 'A' ≤ c ∧ c ≤ 'Z'

theorem isCapitalized_iff {name : String} : isCapitalized name = true ↔ OpensUpper name := by
  unfold isCapitalized OpensUpper
  cases name.toList with
  | nil => simp
  | cons c cs =>
    have hupper : c.isUpper = true ↔ 'A' ≤ c ∧ c ≤ 'Z' := decide_eq_true_iff
    simp [hupper]

instance (name : String) : Decidable (OpensUpper name) := decidable_of_iff _ isCapitalized_iff

section
variable (t : ImportTable) (package : String)

theorem resolve_simple (name : String) :
    t.resolve package { name } = (t.get? name).getD (qualify package name) := by
  unfold resolve
  cases t.get? name <;> rfl

/-- Of a qualifier only the first segment is replaced. -/
theorem resolve_qualified (name qualifier : String) :
    t.resolve package { name, qualifier := some qualifier } =
      match t.get? (firstSegment qualifier) with
      | some imported => imported ++ afterFirst qualifier ++ "." ++ name
      | none =>
        if OpensUpper (firstSegment qualifier) then qualify package (qualifier ++ "." ++ name)
        else qualifier ++ "." ++ name := by
  unfold resolve
  cases hsplit : splitFirst? qualifier with
  | none =>
    have hfree := dotFree_of_splitFirst?_eq_none hsplit
    simp only [hsplit, firstSegment_of_dotFree hfree, afterFirst_of_dotFree hfree, String.append_empty,
      isCapitalized_iff]
    cases t.get? qualifier <;> rfl
  | some parts =>
    obtain ⟨first, rest⟩ := parts
    obtain ⟨rfl, hfree⟩ := of_splitFirst?_eq_some hsplit
    simp only [hsplit, firstSegment_append, firstSegment_of_dotFree hfree, afterFirst_append,
      afterFirst_of_dotFree hfree, String.empty_append, isCapitalized_iff]
    cases t.get? first with
    | none => rfl
    | some imported => simp only [String.append_assoc]

/-- What is resolved is the name with another first segment, or inside the package, or as written. -/
theorem resolve_ofDotted (name : String) :
    t.resolve package (.ofDotted name) =
      match t.get? (firstSegment name) with
      | some imported => imported ++ afterFirst name
      | none => if DotFree name ∨ OpensUpper (firstSegment name) then qualify package name else name := by
  unfold TypeReference.ofDotted
  cases hsplit : splitLast? name with
  | none =>
    have hfree := dotFree_of_splitLast?_eq_none hsplit
    simp only [resolve_simple, firstSegment_of_dotFree hfree, afterFirst_of_dotFree hfree, hfree, true_or, if_true]
    cases t.get? name <;> simp
  | some parts =>
    obtain ⟨qualifier, last⟩ := parts
    obtain ⟨rfl, hlast⟩ := splitLast?_eq_some_iff.1 hsplit
    rw [resolve_qualified, firstSegment_append, afterFirst_append]
    cases t.get? (firstSegment qualifier) with
    | none => simp only [not_dotFree_append, false_or]
    | some imported => simp only [String.append_assoc]

/-- Resolution rewrites only the first segment. A name is its first segment and what follows from the
first dot on; if the segment is imported, what was imported takes its place, and otherwise the whole
name comes behind the package, or stays as it is if its first segment names a package itself. -/
theorem resolve_rewrites_firstSegment (name : String) :
    DotFree (firstSegment name) ∧ firstSegment name ++ afterFirst name = name ∧
    t.resolve package (.ofDotted name) =
      match t.get? (firstSegment name) with
      | some imported => imported ++ afterFirst name
      | none => if DotFree name ∨ OpensUpper (firstSegment name) then qualify package name else name :=
  ⟨dotFree_firstSegment name, firstSegment_append_afterFirst name, t.resolve_ofDotted package name⟩

example : (ofImports [.single "java.util.Map"]).resolve "p" (.ofDotted "Map..Entry.") = "java.util.Map..Entry." := by
  decide

end

end ImportTable

end ClassDiagram
