/-
The ways to a diagram agree with each other. The name of a file decides first: without the right
extension every way is closed, with the same complaint, whatever the text or the file system. With it no
way complains about the language, and each one does what the one before it does: a file is treated as its
text, and a text as its declarations.
-/
import ClassDiagram.Proofs.Text.Dotted
import ClassDiagram.Proofs.Unit.Faults
import ClassDiagram.Service

namespace ClassDiagram

open ClassDiagram.Text

/-! ## The language of a file -/

/-- The extension is the last segment of a file name that has more than one, the first not being empty. -/
theorem Path.extension?_eq_some_iff {path extension : String} :
    extension? path = some extension ↔
      ∃ stem, stem ≠ "" ∧ fileName? path = some (stem ++ "." ++ extension) ∧ DotFree extension := by
  unfold extension?
  rw [Option.bind_eq_some_iff]
  constructor
  · rintro ⟨name, hname, h⟩
    split at h
    · cases h
    · rename_i stem _ hstem hcut
      cases h
      obtain ⟨rfl, hfree⟩ := splitLast?_eq_some_iff.1 hcut
      exact ⟨stem, hstem, hname, hfree⟩
    · cases h
  · rintro ⟨stem, hstem, hname, hfree⟩
    refine ⟨_, hname, ?_⟩
    rw [splitLast?_append stem hfree]
    split
    · rename_i h
      cases h
      exact absurd rfl hstem
    · rename_i h
      cases h
      rfl
    · rename_i h
      cases h

namespace Language

/-- What is said of a path without a language: its extension, or nothing if there is none, is not one that
can be read. -/
def complaint (path : String) : Fault := .unsupportedLanguage ((Path.extension? path).getD "")

theorem supports_eq_isSome (path : String) : supports path = (ofPath? path).isSome := by
  unfold supports ofPath?
  cases Path.extension? path with
  | none => rfl
  | some extension => rfl

theorem supports_iff {path : String} :
    supports path = true ↔ ∃ stem, stem ≠ "" ∧ Path.fileName? path = some (stem ++ ".java") := by
  have hextension : supports path = true ↔ Path.extension? path = some "java" := by
    unfold supports ofExtension?
    cases Path.extension? path with
    | none => simp
    | some extension => simp
  have hfree : DotFree "java" := by decide
  rw [hextension, Path.extension?_eq_some_iff]
  constructor
  · rintro ⟨stem, hstem, hname, -⟩
    exact ⟨stem, hstem, by rw [hname, String.append_assoc]; rfl⟩
  · rintro ⟨stem, hstem, hname⟩
    exact ⟨stem, hstem, by rw [hname, String.append_assoc]; rfl, hfree⟩

theorem ofPath_of_supports {path : String} (h : supports path = true) : ofPath path = .ok .java := by
  rw [supports_eq_isSome] at h
  obtain ⟨language, hlanguage⟩ := Option.isSome_iff_exists.1 h
  cases language
  simp only [ofPath, hlanguage]

theorem ofPath_of_not_supports {path : String} (h : supports path = false) :
    ofPath path = .error (complaint path) := by
  rw [supports_eq_isSome, Option.isSome_eq_false_iff, Option.isNone_iff_eq_none] at h
  simp only [ofPath, h, complaint]

end Language

/-! ## From a text -/

section
variable {file text : String}

theorem parseUnit_of_not_supports (h : Language.supports file = false) (text : String) :
    parseUnit file text = { result := .error (Language.complaint file) } := by
  simp only [parseUnit, Language.ofPath_of_not_supports h]

/-- What can come of a text: the file is refused, or the tree is not read, or there are declarations. Only
the last leaves an event. -/
theorem parseUnit_cases (file text : String) :
    (Language.supports file = false ∧ parseUnit file text = { result := .error (Language.complaint file) }) ∨
    (Language.supports file = true ∧ ∃ fault,
      CompilationUnit.ofTree file text.toList (Grammar.java.parse text.toList) = .error fault ∧
      parseUnit file text = { result := .error fault }) ∨
    (Language.supports file = true ∧ ∃ unit,
      CompilationUnit.ofTree file text.toList (Grammar.java.parse text.toList) = .ok unit ∧
      parseUnit file text =
        { result := .ok unit, log := [.unitRead unit.imports.length unit.types.length file] }) := by
  cases hs : Language.supports file with
  | false => exact .inl ⟨rfl, parseUnit_of_not_supports hs text⟩
  | true =>
    right
    cases hu : CompilationUnit.ofTree file text.toList (Grammar.java.parse text.toList) with
    | error fault =>
      left
      exact ⟨rfl, fault, rfl, by simp only [parseUnit, Language.ofPath_of_supports hs, hu]⟩
    | ok unit =>
      right
      exact ⟨rfl, unit, rfl, by simp only [parseUnit, Language.ofPath_of_supports hs, hu]⟩

/-- A text without declarations leaves no event. -/
theorem parseUnit_log_of_error {fault : Fault} (h : (parseUnit file text).result = .error fault) :
    (parseUnit file text).log = [] := by
  rcases parseUnit_cases file text with ⟨-, hu⟩ | ⟨-, fault', -, hu⟩ | ⟨-, unit, -, hu⟩
  · rw [hu]
  · rw [hu]
  · rw [hu] at h
    cases h

/-- A text with declarations has a tree that is read, and leaves one event. -/
theorem of_parseUnit_eq_ok {unit : CompilationUnit} (h : (parseUnit file text).result = .ok unit) :
    CompilationUnit.ofTree file text.toList (Grammar.java.parse text.toList) = .ok unit ∧
      (parseUnit file text).log = [.unitRead unit.imports.length unit.types.length file] := by
  rcases parseUnit_cases file text with ⟨-, hu⟩ | ⟨-, fault, -, hu⟩ | ⟨-, unit', htree, hu⟩
  · rw [hu] at h
    cases h
  · rw [hu] at h
    cases h
  · rw [hu] at h ⊢
    cases h
    exact ⟨htree, rfl⟩

/-- The extension is no reason to refuse a text of a file that can be read. -/
theorem parseUnit_ne_unsupportedLanguage (h : Language.supports file = true) (language : String) :
    (parseUnit file text).result ≠ .error (.unsupportedLanguage language) := by
  intro heq
  rcases parseUnit_cases file text with ⟨hs, -⟩ | ⟨-, fault, hfault, hu⟩ | ⟨-, unit, -, hu⟩
  · rw [h] at hs
    cases hs
  · rw [hu] at heq
    cases heq
    rcases CompilationUnit.ofTree_eq_error hfault with ⟨line, column, hcase⟩ | ⟨lack, line, hcase⟩
    · cases hcase
    · cases hcase
  · rw [hu] at heq
    cases heq

variable (package : String) (policy : Policy)

theorem extractView_of_error {fault : Fault} (h : (parseUnit file text).result = .error fault) :
    extractView file text package policy = { result := .error (.unreadable file fault) } := by
  unfold extractView
  simp only [h, parseUnit_log_of_error h]

/-- The diagram of a text is that of its declarations, and the events are those of the way there. -/
theorem extractView_of_ok {unit : CompilationUnit} (h : (parseUnit file text).result = .ok unit) :
    extractView file text package policy =
      let sketch := Extractor.extract ⟨package, policy⟩ unit
      { result := .ok sketch.view
        log := .unitRead unit.imports.length unit.types.length file :: sketch.log ++
          [.viewed sketch.view.classifiers.length sketch.view.relations.length file] } := by
  unfold extractView
  simp only [h, (of_parseUnit_eq_ok h).2, List.nil_append, List.cons_append]

theorem extractView_eq_ok_iff {view : View} :
    (extractView file text package policy).result = .ok view ↔
      ∃ unit, (parseUnit file text).result = .ok unit ∧
        view = (Extractor.extract ⟨package, policy⟩ unit).view := by
  constructor
  · intro h
    cases hu : (parseUnit file text).result with
    | error fault =>
      rw [extractView_of_error package policy hu] at h
      cases h
    | ok unit =>
      rw [extractView_of_ok package policy hu] at h
      exact ⟨unit, rfl, (Except.ok.inj h).symm⟩
  · rintro ⟨unit, hu, rfl⟩
    rw [extractView_of_ok package policy hu]

theorem extractView_eq_error_iff {failure : Failure} :
    (extractView file text package policy).result = .error failure ↔
      ∃ fault, (parseUnit file text).result = .error fault ∧ failure = .unreadable file fault := by
  constructor
  · intro h
    cases hu : (parseUnit file text).result with
    | error fault =>
      rw [extractView_of_error package policy hu] at h
      exact ⟨fault, rfl, (Except.error.inj h).symm⟩
    | ok unit =>
      rw [extractView_of_ok package policy hu] at h
      cases h
  · rintro ⟨fault, hu, rfl⟩
    rw [extractView_of_error package policy hu]

end

/-! ## From a file -/

namespace FileSystem

variable {files : FileSystem} {path : String}

theorem readText_of_error {error : ReadError} (h : files.read path = .error error) :
    files.readText path = .error error := by
  simp only [readText, h]

/-- The UTF-8 form of a text is read as that text. -/
theorem readText_of_toUTF8 {text : String} (h : files.read path = .ok text.toUTF8) :
    files.readText path = .ok text := by
  have hdecode : String.fromUTF8? text.toUTF8 = some text := by
    unfold String.fromUTF8?
    rw [String.toUTF8_eq_toByteArray, dif_pos text.isValidUTF8]
    rfl
  simp only [readText, h, hdecode]

/-- Bytes that are the UTF-8 form of no text are not read. -/
theorem readText_of_forall_ne {content : ByteArray} (h : files.read path = .ok content)
    (hcontent : ∀ text : String, content ≠ text.toUTF8) : files.readText path = .error .invalidData := by
  have hdecode : String.fromUTF8? content = none := by
    unfold String.fromUTF8?
    split
    · rename_i hvalid
      exact absurd rfl (hcontent (String.fromUTF8 content hvalid))
    · rfl
  simp only [readText, h, hdecode]

end FileSystem

section
variable {path : String} (files : FileSystem) (package : String) (policy : Policy)

theorem extractFile_of_not_supports (h : Language.supports path = false) :
    extractFile files path package policy = { result := .error (.refused (Language.complaint path)) } := by
  unfold extractFile
  simp only [h, Bool.false_eq_true, if_false, Language.complaint]

theorem extractFile_of_read {text : String} (h : Language.supports path = true)
    (hread : files.readText path = .ok text) :
    extractFile files path package policy = extractView path text package policy := by
  unfold extractFile fileText
  simp only [h, if_true, hread]

theorem extractFile_of_not_read {error : ReadError} (h : Language.supports path = true)
    (hread : files.readText path = .error error) :
    extractFile files path package policy = { result := .error (.disk path error) } := by
  unfold extractFile fileText
  simp only [h, if_true, hread]

end

/-! ## Agreement -/

/-- The fault behind a failure, if it is not the disk's. -/
def Failure.fault? : Failure → Option Fault
  | refused fault => some fault
  | unreadable _ fault => some fault
  | disk .. => none

/-- No way leads from the path to a diagram: each one ends with the same complaint, which is about the
extension, whatever the text and whatever the file system answers. -/
structure Refused (path : String) : Prop where
  unit : ∀ text, (parseUnit path text).result = .error (Language.complaint path)
  view : ∀ text package policy,
    (extractView path text package policy).result = .error (.unreadable path (Language.complaint path))
  file : ∀ files package policy,
    (extractFile files path package policy).result = .error (.refused (Language.complaint path))

/-- All ways from the path are open, and each one follows the one before it. -/
structure Served (path : String) : Prop where
  unit_language : ∀ text language, (parseUnit path text).result ≠ .error (.unsupportedLanguage language)
  view_language : ∀ text package policy failure language,
    (extractView path text package policy).result = .error failure →
      failure.fault? ≠ some (.unsupportedLanguage language)
  file_language : ∀ files package policy failure language,
    (extractFile files path package policy).result = .error failure →
      failure.fault? ≠ some (.unsupportedLanguage language)
  /-- A text has a diagram if and only if it has declarations, and it is the diagram of these. -/
  view_ok : ∀ text package policy view, (extractView path text package policy).result = .ok view ↔
    ∃ unit, (parseUnit path text).result = .ok unit ∧ view = (Extractor.extract ⟨package, policy⟩ unit).view
  /-- If there are none the words are those for the fault, behind the name of the file. -/
  view_error : ∀ text package policy fault, (parseUnit path text).result = .error fault →
    ∃ failure, (extractView path text package policy).result = .error failure ∧
      failure.fault? = some fault ∧
      failure.message = "Failed to read Java source: " ++ path ++ ": " ++ fault.message
  /-- What the file system complains of is passed on. -/
  file_unread : ∀ files package policy error, files.read path = .error error →
    extractFile files path package policy = { result := .error (.disk path error) }
  /-- A file whose content is a text is that text, also in the events on the way. -/
  file_read : ∀ files package policy text, files.read path = .ok text.toUTF8 →
    extractFile files path package policy = extractView path text package policy
  /-- A file whose content is no text is not read. -/
  file_garbled : ∀ files package policy content, files.read path = .ok content →
    (∀ text : String, content ≠ text.toUTF8) →
      extractFile files path package policy = { result := .error (.disk path .invalidData) }

theorem Refused.of_not_supports {path : String} (h : Language.supports path = false) : Refused path where
  unit text := by rw [parseUnit_of_not_supports h]
  view text package policy := by
    have hu : (parseUnit path text).result = .error (Language.complaint path) := by
      rw [parseUnit_of_not_supports h]
    rw [extractView_of_error package policy hu]
  file files package policy := by rw [extractFile_of_not_supports files package policy h]

theorem extractView_fault?_ne {file text package : String} {policy : Policy} {failure : Failure}
    (h : Language.supports file = true) (hv : (extractView file text package policy).result = .error failure)
    (language : String) : failure.fault? ≠ some (.unsupportedLanguage language) := by
  obtain ⟨fault, hu, rfl⟩ := (extractView_eq_error_iff package policy).1 hv
  intro heq
  cases heq
  exact parseUnit_ne_unsupportedLanguage h language hu

theorem Served.of_supports {path : String} (h : Language.supports path = true) : Served path where
  unit_language text language := parseUnit_ne_unsupportedLanguage h language
  view_language text package policy failure language hv := extractView_fault?_ne h hv language
  file_language files package policy failure language hf := by
    cases hread : files.readText path with
    | ok text =>
      rw [extractFile_of_read files package policy h hread] at hf
      exact extractView_fault?_ne h hf language
    | error error =>
      rw [extractFile_of_not_read files package policy h hread] at hf
      cases hf
      exact nofun
  view_ok text package policy view := extractView_eq_ok_iff package policy
  view_error text package policy fault hu := by
    refine ⟨.unreadable path fault, ?_, rfl, rfl⟩
    rw [extractView_of_error package policy hu]
  file_unread files package policy error hread :=
    extractFile_of_not_read files package policy h (FileSystem.readText_of_error hread)
  file_read files package policy text hread :=
    extractFile_of_read files package policy h (FileSystem.readText_of_toUTF8 hread)
  file_garbled files package policy content hread hcontent :=
    extractFile_of_not_read files package policy h (FileSystem.readText_of_forall_ne hread hcontent)

/-- The ways to a diagram agree on every path. A file can be read if a language is found for it, which is
if its name ends in `.java` after something else; all ways are open then, and closed otherwise. -/
theorem entries_agree (path : String) :
    (Language.supports path = true ↔ (Language.ofPath? path).isSome = true) ∧
    (Language.supports path = true ↔ ∃ stem, stem ≠ "" ∧ Path.fileName? path = some (stem ++ ".java")) ∧
    (Language.supports path = true → Served path) ∧
    (Language.supports path = false → Refused path) := by
  refine ⟨?_, Language.supports_iff, Served.of_supports, Refused.of_not_supports⟩
  rw [Language.supports_eq_isSome]

/-- A disk with a file that can be read and one that cannot, seen from a directory beside them. -/
def shapes : Disk :=
  (({ workingDirectory := ["home", "view"] } : Disk).add "/home/src/Shape.java"
    (.file "class Shape {}".toUTF8)).add "Guarded.java" .guarded

/-- The same file by a path from the root and by one that leads upwards first, a file that may not be read,
one that is not there, and two paths without the extension. -/
theorem entries_agree_shapes :
    extractFile shapes.fileSystem "/home/src/Shape.java" "p" {} =
      extractView "/home/src/Shape.java" "class Shape {}" "p" {} ∧
    extractFile shapes.fileSystem "../src/./Shape.java" "p" {} =
      extractView "../src/./Shape.java" "class Shape {}" "p" {} ∧
    (extractFile shapes.fileSystem "Guarded.java" "p" {}).result =
      .error (.disk "Guarded.java" .permissionDenied) ∧
    (extractFile shapes.fileSystem "src/a.b/Shape.java" "p" {}).result =
      .error (.disk "src/a.b/Shape.java" .notFound) ∧
    Refused "src/.java" ∧ Refused "Shape.java/.." := by
  refine ⟨?_, ?_, ?_, ?_, ?_, ?_⟩
  · exact ((entries_agree _).2.2.1 (by decide)).file_read _ _ _ _ (by rfl)
  · exact ((entries_agree _).2.2.1 (by decide)).file_read _ _ _ _ (by rfl)
  · rw [((entries_agree _).2.2.1 (by decide)).file_unread _ _ _ .permissionDenied (by rfl)]
  · rw [((entries_agree _).2.2.1 (by decide)).file_unread _ _ _ .notFound (by rfl)]
  · exact (entries_agree _).2.2.2 (by decide)
  · exact (entries_agree _).2.2.2 (by decide)

end ClassDiagram
