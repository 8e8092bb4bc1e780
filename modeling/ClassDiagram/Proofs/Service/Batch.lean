/-
Batches. Each source of a batch comes out as if it were the only one, whatever stands beside it: its slot
holds its own diagram or failure, and the events are those of the sources by themselves, with one warning
for each that has no diagram. This does not rest on the order of the work: sources may be worked on at the
same time, with their events mixed in any way, and the outcome is the same up to the order of the events.
-/
import ClassDiagram.Proofs.Extraction.Footprint
import ClassDiagram.Proofs.Service.Entries
import Mathlib.Data.List.Perm.Basic
import Mathlib.Logic.Relation

namespace ClassDiagram

/-! ## The events of one text -/

namespace Extractor

theorem severity_of_mem_footprint (x : Extractor) (imports : ImportTable) {s : Site} {e : Event}
    (h : e ∈ (x.footprint imports s).log) : e.severity = .trace := by
  unfold footprint at h
  split at h
  · rcases List.mem_cons.1 h with rfl | h
    · rfl
    · obtain ⟨r, -, rfl⟩ := List.mem_map.1 h
      rfl
  · rw [List.mem_singleton] at h
    rw [h]
    rfl

theorem severity_of_mem_footprints (x : Extractor) (imports : ImportTable) {e : Event} :
    ∀ {ss : List Site}, e ∈ (x.footprints imports ss).log → e.severity = .trace
  | s :: ss, h => by
    rcases List.mem_append.1 h with h | h
    · exact severity_of_mem_footprint x imports h
    · exact severity_of_mem_footprints x imports h

theorem severity_ne_of_mem_extract (x : Extractor) (unit : CompilationUnit) {e : Event}
    (h : e ∈ (x.extract unit).log) : e.severity ≠ .warn := by
  rw [extract_eq_note] at h
  rcases List.mem_append.1 h with h | h
  · rw [severity_of_mem_footprints x _ h]
    decide
  · rw [List.mem_singleton] at h
    simp [h, Event.severity]

end Extractor

section
variable {file text package : String} {policy : Policy}

/-- A text that has no diagram leaves no event. -/
theorem extractView_log_of_error {failure : Failure}
    (h : (extractView file text package policy).result = .error failure) :
    (extractView file text package policy).log = [] := by
  obtain ⟨fault, hu, -⟩ := (extractView_eq_error_iff package policy).1 h
  rw [extractView_of_error package policy hu]

/-- Nothing on the way from a text to its diagram is a warning. -/
theorem severity_ne_of_mem_extractView {e : Event} (h : e ∈ (extractView file text package policy).log) :
    e.severity ≠ .warn := by
  cases hu : (parseUnit file text).result with
  | error fault =>
    rw [extractView_of_error package policy hu] at h
    cases h
  | ok unit =>
    rw [extractView_of_ok package policy hu] at h
    simp only [List.cons_append, List.mem_cons, List.mem_append, List.not_mem_nil, or_false] at h
    rcases h with rfl | h | rfl
    · simp [Event.severity]
    · exact Extractor.severity_ne_of_mem_extract _ unit h
    · simp [Event.severity]

end

/-! ## One source of a batch -/

namespace SourceFile

/-- What comes of a source by itself. -/
def alone (policy : Policy) (source : SourceFile) : Logged (Except Failure View) :=
  extractView source.path source.text source.package policy

/-- The warning that follows the result of a source, if that is a failure. -/
def warning? (source : SourceFile) : Except Failure View → Option Event
  | .ok _ => none
  | .error failure => some (.skipped source.path failure.message)

/-- The warning about a source in a batch. -/
def ownWarning? (policy : Policy) (source : SourceFile) : Option Event :=
  source.warning? (source.alone policy).result

theorem severity_of_warning? {source : SourceFile} {result : Except Failure View} {e : Event}
    (h : source.warning? result = some e) : e.severity = .warn := by
  cases result with
  | ok view => cases h
  | error failure =>
    cases h
    rfl

/-- The words of the warning are those for the failure, behind the name of the file. -/
theorem ownWarning?_of_error {policy : Policy} {source : SourceFile} {failure : Failure}
    (h : (source.alone policy).result = .error failure) :
    ∃ e, source.ownWarning? policy = some e ∧ e.severity = .warn ∧
      e.message = "Skipping " ++ source.path ++ ": " ++ failure.message := by
  unfold ownWarning?
  rw [h]
  exact ⟨_, rfl, rfl, rfl⟩

theorem ownWarning?_of_ok {policy : Policy} {source : SourceFile} {view : View}
    (h : (source.alone policy).result = .ok view) : source.ownWarning? policy = none := by
  unfold ownWarning?
  rw [h]
  rfl

end SourceFile

theorem extractSource_eq (policy : Policy) (source : SourceFile) : extractSource policy source =
    { result := (source.alone policy).result
      log := (source.alone policy).log ++ (source.ownWarning? policy).toList } := by
  unfold extractSource SourceFile.ownWarning? SourceFile.alone
  obtain ⟨result, log⟩ := extractView source.path source.text source.package policy
  cases result with
  | ok view => simp [SourceFile.warning?]
  | error failure => rfl

/-! ## The outcome of a batch -/

/-- The sources of a batch have come out as if each were the only one. -/
structure Separate (policy : Policy) (sources : List SourceFile)
    (batch : Logged (List (Except Failure View))) : Prop where
  length : batch.result.length = sources.length
  slot : ∀ i : Nat, batch.result[i]? = sources[i]?.map fun source => (source.alone policy).result
  /-- The events are those of the sources by themselves and the warnings. -/
  log : batch.log.Perm (sources.flatMap (fun source => (source.alone policy).log) ++
    sources.filterMap (·.ownWarning? policy))
  /-- There is one warning for each source without a diagram and no other. -/
  warnings : (batch.log.filter (·.severity == .warn)).Perm (sources.filterMap (·.ownWarning? policy))

/-- The warnings can be told from the events of the sources by themselves. -/
theorem filter_warn_log (policy : Policy) (sources : List SourceFile) :
    (sources.flatMap (fun source => (source.alone policy).log) ++
      sources.filterMap (·.ownWarning? policy)).filter (·.severity == .warn) =
    sources.filterMap (·.ownWarning? policy) := by
  have hquiet : (sources.flatMap fun source => (source.alone policy).log).filter (·.severity == .warn) = [] := by
    rw [List.filter_eq_nil_iff]
    intro e he
    obtain ⟨source, -, he⟩ := List.mem_flatMap.1 he
    simpa using severity_ne_of_mem_extractView he
  have hloud : (sources.filterMap (·.ownWarning? policy)).filter (·.severity == .warn) =
      sources.filterMap (·.ownWarning? policy) := by
    rw [List.filter_eq_self]
    intro e he
    obtain ⟨source, -, he⟩ := List.mem_filterMap.1 he
    simpa using SourceFile.severity_of_warning? he
  rw [List.filter_append, hquiet, hloud, List.nil_append]

/-- The sources are separate if the results are their own, in order, and the events their own, in any. -/
theorem Separate.of_perm {policy : Policy} {sources : List SourceFile}
    {batch : Logged (List (Except Failure View))}
    (hresult : batch.result = sources.map fun source => (source.alone policy).result)
    (hlog : batch.log.Perm (sources.flatMap fun source =>
      (source.alone policy).log ++ (source.ownWarning? policy).toList)) :
    Separate policy sources batch := by
  have hsorted : batch.log.Perm (sources.flatMap (fun source => (source.alone policy).log) ++
      sources.filterMap (·.ownWarning? policy)) := by
    rw [List.filterMap_eq_flatMap_toList]
    exact hlog.trans (List.flatMap_append_perm ..).symm
  refine ⟨by rw [hresult, List.length_map], ?_, hsorted, ?_⟩
  · intro i
    rw [hresult, List.getElem?_map]
  · have hfilter := hsorted.filter (·.severity == .warn)
    rwa [filter_warn_log] at hfilter

theorem extractBatch_result (policy : Policy) (sources : List SourceFile) :
    (extractBatch policy sources).result = sources.map fun source => (source.alone policy).result := by
  simp [extractBatch, extractSource_eq]

theorem extractBatch_log (policy : Policy) (sources : List SourceFile) :
    (extractBatch policy sources).log =
      sources.flatMap fun source => (source.alone policy).log ++ (source.ownWarning? policy).toList := by
  simp [extractBatch, extractSource_eq, List.flatMap_map]

/-! ## Work at the same time -/

/-- How far the work on a source is. -/
inductive Task
  | waiting (source : SourceFile)
  /-- The result is there, but these events are still to be noted. -/
  | noting (source : SourceFile) (left : List Event) (result : Except Failure View)
  | finished (result : Except Failure View)

/-- Work on many sources, with one log for all. -/
structure Pool where
  tasks : List Task
  log : List Event := []

section
variable (policy : Policy)

namespace Task

/-- One step of the work on a source, with the events that it notes. -/
inductive Step : Task → List Event → Task → Prop
  | start (source : SourceFile) :
    Step (waiting source) [] (noting source (source.alone policy).log (source.alone policy).result)
  | note (source : SourceFile) (e : Event) (left : List Event) (result : Except Failure View) :
    Step (noting source (e :: left) result) [e] (noting source left result)
  | finish (source : SourceFile) (view : View) : Step (noting source [] (.ok view)) [] (finished (.ok view))
  | skip (source : SourceFile) (failure : Failure) :
    Step (noting source [] (.error failure)) [.skipped source.path failure.message] (finished (.error failure))

/-- What the work on a source comes to. -/
def result : Task → Except Failure View
  | waiting source => (source.alone policy).result
  | noting _ _ result => result
  | finished result => result

/-- The events that are still to come. -/
def pending : Task → List Event
  | waiting source => (source.alone policy).log ++ (source.ownWarning? policy).toList
  | noting source left result => left ++ (source.warning? result).toList
  | finished _ => []

/-- The number of steps that are still to come. -/
def work : Task → Nat
  | waiting source => (source.alone policy).log.length + 2
  | noting _ left _ => left.length + 1
  | finished _ => 0

variable {policy} {t t' : Task} {events : List Event}

theorem Step.result_eq (h : Step policy t events t') : t'.result policy = t.result policy := by
  cases h <;> rfl

theorem Step.pending_eq (h : Step policy t events t') : t.pending policy = events ++ t'.pending policy := by
  cases h <;> rfl

theorem Step.work_eq (h : Step policy t events t') : t.work policy = t'.work policy + 1 := by
  cases h <;> rfl

/-- Work stops only when it is finished. -/
theorem exists_step (policy : Policy) (t : Task) :
    (∃ result, t = finished result) ∨ ∃ events t', Step policy t events t' := by
  cases t with
  | waiting source => exact .inr ⟨_, _, .start source⟩
  | finished result => exact .inl ⟨result, rfl⟩
  | noting source left result =>
    right
    cases left with
    | cons e left => exact ⟨_, _, .note source e left result⟩
    | nil =>
      cases result with
      | ok view => exact ⟨_, _, .finish source view⟩
      | error failure => exact ⟨_, _, .skip source failure⟩

end Task

namespace Pool

/-- No source has been looked at yet. -/
def start (sources : List SourceFile) : Pool := { tasks := sources.map .waiting }

/-- One step of the work on any one of the sources. -/
inductive Step : Pool → Pool → Prop
  | move {t t' : Task} {events : List Event} (before after : List Task) (log : List Event)
    (h : t.Step policy events t') : Step ⟨before ++ t :: after, log⟩ ⟨before ++ t' :: after, log ++ events⟩

/-- Any number of steps, of the sources in any order. -/
def Reaches : Pool → Pool → Prop := Relation.ReflTransGen (Step policy)

/-- All work is finished, with these results. -/
def Delivers (p : Pool) (results : List (Except Failure View)) : Prop := p.tasks = results.map .finished

def results (p : Pool) : List (Except Failure View) := p.tasks.map (·.result policy)

def pending (p : Pool) : List Event := p.tasks.flatMap (·.pending policy)

def work (p : Pool) : Nat := p.tasks.foldr (fun t rest => t.work policy + rest) 0

variable {policy} {p q : Pool}

theorem Step.results_eq (h : Step policy p q) : q.results policy = p.results policy := by
  obtain ⟨before, after, log, h⟩ := h
  simp [results, h.result_eq]

/-- A step moves events from those to come into the log. -/
theorem Step.log_perm (h : Step policy p q) :
    (q.log ++ q.pending policy).Perm (p.log ++ p.pending policy) := by
  obtain ⟨before, after, log, h⟩ := h
  simp only [pending, List.flatMap_append, List.flatMap_cons, h.pending_eq, List.append_assoc]
  exact (List.perm_append_comm_assoc ..).append_left log

theorem Step.work_lt (h : Step policy p q) : q.work policy < p.work policy := by
  obtain ⟨before, after, log, h⟩ := h
  induction before with
  | nil =>
    simp only [work, List.nil_append, List.foldr_cons, h.work_eq]
    omega
  | cons b before ih =>
    simp only [work, List.cons_append, List.foldr_cons] at ih ⊢
    omega

theorem Reaches.results_eq (h : Reaches policy p q) : q.results policy = p.results policy := by
  induction h with
  | refl => rfl
  | tail _ hstep ih => rw [hstep.results_eq, ih]

theorem Reaches.log_perm (h : Reaches policy p q) :
    (q.log ++ q.pending policy).Perm (p.log ++ p.pending policy) := by
  induction h with
  | refl => exact .refl _
  | tail _ hstep ih => exact hstep.log_perm.trans ih

theorem delivers_or_step (policy : Policy) (p : Pool) :
    (∃ results, p.Delivers results) ∨ ∃ q, Step policy p q := by
  by_cases h : ∀ t ∈ p.tasks, ∃ result, t = Task.finished result
  · left
    refine ⟨p.results policy, ?_⟩
    have hid : ∀ t ∈ p.tasks, Task.finished (t.result policy) = t := by
      intro t ht
      obtain ⟨result, rfl⟩ := h t ht
      rfl
    unfold Delivers results
    rw [List.map_map, Function.comp_def, List.map_congr_left hid, List.map_id']
  · right
    simp only [not_forall] at h
    obtain ⟨t, ht, hunfinished⟩ := h
    obtain ⟨before, after, htasks⟩ := List.append_of_mem ht
    obtain hfinished | ⟨events, t', hstep⟩ := t.exists_step policy
    · exact absurd hfinished hunfinished
    · obtain ⟨tasks, log⟩ := p
      cases htasks
      exact ⟨_, .move before after log hstep⟩

/-- Work can always be brought to its end. -/
theorem exists_delivers (policy : Policy) (p : Pool) :
    ∃ q results, Reaches policy p q ∧ q.Delivers results := by
  -- any step will do, since each one leaves less work
  obtain ⟨results, h⟩ | ⟨q, hstep⟩ := delivers_or_step policy p
  · exact ⟨p, results, .refl, h⟩
  · obtain ⟨last, results, hreach, hlast⟩ := exists_delivers policy q
    exact ⟨last, results, hreach.head hstep, hlast⟩
termination_by p.work policy
decreasing_by exact hstep.work_lt

/-- Whatever the order of the work, the sources of a batch have come out separate at its end. -/
theorem Reaches.separate {sources : List SourceFile} {results : List (Except Failure View)}
    (h : Reaches policy (start sources) p) (hp : p.Delivers results) :
    Separate policy sources ⟨results, p.log⟩ := by
  have hresults : results = sources.map fun source => (source.alone policy).result := by
    have heq := h.results_eq
    unfold Pool.results start at heq
    rw [hp] at heq
    simpa [Function.comp_def, Task.result] using heq
  have hdone : p.pending policy = [] := by
    unfold pending
    rw [hp]
    simp [List.flatMap_map, Task.pending]
  -- nothing is pending any more, and at the start everything was
  have hlog := h.log_perm
  rw [hdone, List.append_nil] at hlog
  refine .of_perm hresults (hlog.trans ?_)
  simp [start, pending, List.flatMap_map, Task.pending]

end Pool

end

/-! ## Isolation -/

/-- The sources of a batch come out separate, also if they are worked on at the same time. A slot is the
same in every batch with the same source in it, whatever else is there and wherever it stands. A source
that has no diagram notes nothing by itself, and the batch notes its failure. -/
theorem extractBatch_separate (policy : Policy) (sources : List SourceFile) :
    Separate policy sources (extractBatch policy sources) ∧
    (∀ (others : List SourceFile) (i j : Nat), sources[i]? = others[j]? →
      (extractBatch policy sources).result[i]? = (extractBatch policy others).result[j]?) ∧
    (∀ pool, Pool.Reaches policy (.start sources) pool →
      (∃ last results, Pool.Reaches policy pool last ∧ last.Delivers results) ∧
      ∀ results, pool.Delivers results → results = (extractBatch policy sources).result ∧
        Separate policy sources ⟨results, pool.log⟩) ∧
    (∀ (source : SourceFile) (view : View), (source.alone policy).result = .ok view →
      source.ownWarning? policy = none) ∧
    ∀ (source : SourceFile) (failure : Failure), (source.alone policy).result = .error failure →
      (source.alone policy).log = [] ∧ ∃ e, source.ownWarning? policy = some e ∧ e.severity = .warn ∧
        e.message = "Skipping " ++ source.path ++ ": " ++ failure.message := by
  refine ⟨?_, ?_, ?_, fun source view => SourceFile.ownWarning?_of_ok, ?_⟩
  · exact .of_perm (extractBatch_result policy sources) (.of_eq (extractBatch_log policy sources))
  · intro others i j h
    simp only [extractBatch_result, List.getElem?_map, h]
  · intro pool hpool
    refine ⟨pool.exists_delivers policy, ?_⟩
    intro results hresults
    have hseparate := hpool.separate hresults
    refine ⟨List.ext_getElem? fun i => ?_, hseparate⟩
    rw [hseparate.slot i, extractBatch_result, List.getElem?_map]
  · intro source failure h
    exact ⟨extractView_log_of_error h, SourceFile.ownWarning?_of_error h⟩

end ClassDiagram
