import Hallmark.Host.Memory
import Hallmark.Host.Session
import Hallmark.Module.FileType
import Hallmark.Proofs.Pipeline.Run

/-!
# `Hallmark/Proofs/Pipeline/Report.lean` — the summaries of a report agree

Each summary of a report scans the entries by itself. Whether some module failed, they all tell alike. Of
one module, the status looks at its first entry only, while the list of those that failed has every
entry: so they may differ where modules have the same name, and only there. Main statement:
`summaries_agree`.
-/

set_option autoImplicit false

namespace Hallmark.Pipeline

namespace Report

variable {report : Report} {name : String} {status : Status}

/-! ## One summary at a time -/

theorem isOk_eq_false_iff : report.isOk = false ↔ ∃ entry ∈ report.entries, entry.status = .fail := by
  simp [isOk, RunEntry.hasFailed]

theorem mem_failedModules_iff :
    name ∈ report.failedModules ↔
      ∃ entry ∈ report.entries, entry.source = name ∧ entry.status = .fail := by
  simp only [failedModules, RunEntry.hasFailed, List.mem_map, List.mem_filter, decide_eq_true_eq]
  constructor
  · rintro ⟨entry, ⟨hmem, hfail⟩, hname⟩
    exact ⟨entry, hmem, hname, hfail⟩
  · rintro ⟨entry, hmem, hname, hfail⟩
    exact ⟨entry, ⟨hmem, hfail⟩, hname⟩

theorem failedModules_ne_nil_iff :
    report.failedModules ≠ [] ↔ ∃ entry ∈ report.entries, entry.status = .fail := by
  simp [failedModules, RunEntry.hasFailed]

theorem statusOf?_eq_none_iff :
    report.statusOf? name = none ↔ ∀ entry ∈ report.entries, entry.source ≠ name := by
  simp [statusOf?]

/-- The status of a module is that of its first entry. -/
theorem statusOf?_eq_some_iff :
    report.statusOf? name = some status ↔
      ∃ before entry later, report.entries = before ++ entry :: later ∧ entry.source = name ∧
        entry.status = status ∧ ∀ other ∈ before, other.source ≠ name := by
  rw [statusOf?, Option.map_eq_some_iff]
  constructor
  · rintro ⟨entry, hfind, hstatus⟩
    obtain ⟨hname, before, later, hsplit, hbefore⟩ := List.find?_eq_some_iff_append.1 hfind
    exact ⟨before, entry, later, hsplit, of_decide_eq_true hname, hstatus, by simpa using hbefore⟩
  · rintro ⟨before, entry, later, hsplit, hname, hstatus, hbefore⟩
    refine ⟨entry, List.find?_eq_some_iff_append.2 ?_, hstatus⟩
    exact ⟨decide_eq_true hname, before, later, hsplit, by simpa using hbefore⟩

/-! ## Several modules of one name -/

/-- The first entry of a name tells of no failure, but a later one does. -/
def HidesFailure (report : Report) (name : String) : Prop :=
  ∃ before entry later, report.entries = before ++ entry :: later ∧ entry.source = name ∧
    entry.status ≠ .fail ∧ (∀ other ∈ before, other.source ≠ name) ∧
    ∃ other ∈ later, other.source = name ∧ other.status = .fail

theorem mem_failedModules_of_statusOf? (h : report.statusOf? name = some .fail) :
    name ∈ report.failedModules := by
  obtain ⟨before, entry, later, hsplit, hname, hfail, -⟩ := statusOf?_eq_some_iff.1 h
  refine mem_failedModules_iff.2 ⟨entry, ?_, hname, hfail⟩
  rw [hsplit]
  exact List.mem_append_right before List.mem_cons_self

/-- The status of a module that failed is a failure unless its first entry hides that. -/
theorem hidesFailure_iff :
    report.HidesFailure name ↔ name ∈ report.failedModules ∧ report.statusOf? name ≠ some .fail := by
  constructor
  · rintro ⟨before, entry, later, hsplit, hname, hstatus, hbefore, other, hmem, hother, hfail⟩
    have hfirst : report.statusOf? name = some entry.status :=
      statusOf?_eq_some_iff.2 ⟨before, entry, later, hsplit, hname, rfl, hbefore⟩
    refine ⟨mem_failedModules_iff.2 ⟨other, ?_, hother, hfail⟩, ?_⟩
    · rw [hsplit]
      exact List.mem_append_right before (List.mem_cons_of_mem entry hmem)
    · rw [hfirst]
      exact fun h => hstatus (Option.some.inj h)
  · rintro ⟨hmem, hne⟩
    obtain ⟨other, hother, hname, hfail⟩ := mem_failedModules_iff.1 hmem
    cases hstatus : report.statusOf? name with
    | none => exact absurd hname (statusOf?_eq_none_iff.1 hstatus other hother)
    | some status =>
      obtain ⟨before, entry, later, hsplit, hentry, rfl, hbefore⟩ := statusOf?_eq_some_iff.1 hstatus
      have hnot : entry.status ≠ .fail := fun h => hne (by rw [hstatus, h])
      refine ⟨before, entry, later, hsplit, hentry, hnot, hbefore, other, ?_, hname, hfail⟩
      rw [hsplit, List.mem_append, List.mem_cons] at hother
      rcases hother with hin | rfl | hin
      · exact absurd hname (hbefore other hin)
      · exact absurd hfail hnot
      · exact hin

/-- A failure is hidden only by another module of the same name. -/
theorem HidesFailure.one_lt_count (h : report.HidesFailure name) :
    1 < (report.entries.map RunEntry.source).count name := by
  obtain ⟨before, entry, later, hsplit, hname, -, -, other, hmem, hother, -⟩ := h
  have hlater : 0 < (later.map RunEntry.source).count name :=
    List.count_pos_iff.2 (List.mem_map.2 ⟨other, hmem, hother⟩)
  rw [hsplit, List.map_append, List.count_append, List.map_cons, hname, List.count_cons_self]
  omega

end Report

/-! ## Reports of runs -/

open Host (MemoryFile Session Surroundings)

variable {μ σ : Type} [PipelineModule μ σ] [Surroundings σ]

/-- The entries of a report are those of the first modules. -/
theorem sources_run_isPrefix (pipeline : Pipeline μ) (file : HostFile σ) (world : σ) :
    (pipeline.run file world).value.entries.map RunEntry.source <+:
      pipeline.modules.map PipelineModule.name := by
  obtain ⟨ran, rest, after, hmodules, hexecutes, hcomplete⟩ :=
    exists_executes pipeline.stopsOnFailure file pipeline.modules world
  rw [run_eq hexecutes hcomplete hmodules, hmodules, reportOf, List.map_append, List.map_map,
    List.map_map]
  exact List.prefix_append _ _

/-- **All summaries of a run tell alike whether a module failed,** unless a module that did not fail hides
another of the same name that did. -/
theorem summaries_agree (pipeline : Pipeline μ) (file : HostFile σ) (world : σ) :
    let report := (pipeline.run file world).value
    (report.status = .fail ↔ report.isOk = false) ∧
    (report.isOk = false ↔ report.failedModules ≠ []) ∧
    ∀ name : String,
      (report.statusOf? name = none ↔ ∀ entry ∈ report.entries, entry.source ≠ name) ∧
      (name ∈ report.failedModules ↔ report.statusOf? name = some .fail ∨ report.HidesFailure name) ∧
      (report.HidesFailure name → report.statusOf? name ≠ some .fail) ∧
      -- Nothing is hidden where a name is used once.
      ((pipeline.modules.map PipelineModule.name).count name ≤ 1 →
        (name ∈ report.failedModules ↔ report.statusOf? name = some .fail)) := by
  intro report
  have hsources : report.entries.map RunEntry.source <+: pipeline.modules.map PipelineModule.name :=
    pipeline.sources_run_isPrefix file world
  have hfailed (name : String) : name ∈ report.failedModules ↔
      report.statusOf? name = some .fail ∨ report.HidesFailure name := by
    constructor
    · intro hmem
      by_cases hstatus : report.statusOf? name = some .fail
      · exact .inl hstatus
      · exact .inr (Report.hidesFailure_iff.2 ⟨hmem, hstatus⟩)
    · rintro (hstatus | hhides)
      · exact Report.mem_failedModules_of_statusOf? hstatus
      · exact (Report.hidesFailure_iff.1 hhides).1
  refine ⟨?_, ?_, ?_⟩
  · rw [Report.status_eq_fail_iff, Report.isOk_eq_false_iff]
  · rw [Report.isOk_eq_false_iff, Report.failedModules_ne_nil_iff]
  · intro name
    refine ⟨Report.statusOf?_eq_none_iff, hfailed name, ?_, ?_⟩
    · intro hhides
      exact (Report.hidesFailure_iff.1 hhides).2
    · intro hcount
      have hnone : ¬ report.HidesFailure name := by
        intro hhides
        have hlt := hhides.one_lt_count
        have hle := hsources.sublist.count_le name
        omega
      rw [hfailed name, or_iff_left hnone]

/-- Two modules have the same name, as all file type modules do. The first has a matcher, and passes over
an empty file; the second was not prepared, and fails. -/
theorem summaries_disagree_same_name :
    ∃ (preset : Matcher Session) (pipeline : Pipeline (FittingModule Session))
      (empty : HostFile Session),
      (({} : Builder (FittingModule Session)).add { preset := preset, matcher := preset } |>.add {}).build =
        .ok pipeline ∧
      "FileTypeSigModule" ∈ (pipeline.run empty {}).value.failedModules ∧
      (pipeline.run empty {}).value.statusOf? "FileTypeSigModule" = some .ok := by
  let session : Session := {}
  let preset := session.scripted 0
  let pipeline : Pipeline (FittingModule Session) :=
    { modules := [{ preset := preset, matcher := preset }, {}], arguments := ["", ""], nonempty := by simp }
  exact ⟨preset, pipeline, MemoryFile.toHostFile { id := ⟨7⟩, content := [] }, rfl, by decide, by decide⟩

end Hallmark.Pipeline
