import Mathlib.Data.List.Basic
import Hallmark.Pipeline.Basic

/-!
# `Hallmark/Proofs/Pipeline/Run.lean` — which modules run on a file

The modules of a pipeline that run on a file are the first ones, up to and with the first that asks to
stop or, where failures stop the pipeline, that fails; if there is none, all of them. The report, the
world afterwards and the log tell of these modules and of no other. Main statement: `run_executes`.
-/

set_option autoImplicit false

namespace Hallmark

/-! ## The worst status -/

namespace Status

theorem le_max_left (a b : Status) : a ≤ max a b := by
  cases a <;> cases b <;> decide

theorem max_mem (a b : Status) : max a b = a ∨ max a b = b := by
  cases a <;> cases b <;> decide

theorem le_trans {a b c : Status} (hab : a ≤ b) (hbc : b ≤ c) : a ≤ c := Nat.le_trans hab hbc

theorem le_max_right (a b : Status) : b ≤ max a b := by
  cases a <;> cases b <;> decide

theorem ok_max (a : Status) : max .ok a = a := by
  cases a <;> decide

theorem le_foldl_max {start s : Status} {statuses : List Status} (h : s ≤ start ∨ s ∈ statuses) :
    s ≤ statuses.foldl max start := by
  induction statuses generalizing start with
  | nil =>
    rcases h with h | h
    · exact h
    · cases h
  | cons t rest ih =>
    refine ih ?_
    rcases h with h | h
    · exact .inl (le_trans h (le_max_left start t))
    · rcases List.mem_cons.1 h with rfl | h
      · exact .inl (le_max_right start s)
      · exact .inr h

theorem foldl_max_mem (start : Status) (statuses : List Status) :
    statuses.foldl max start ∈ start :: statuses := by
  induction statuses generalizing start with
  | nil => exact List.mem_singleton.2 rfl
  | cons t rest ih =>
    rcases List.mem_cons.1 (ih (max start t)) with h | h
    · rw [List.foldl_cons, h]
      rcases max_mem start t with hmax | hmax <;> simp [hmax]
    · exact List.mem_cons_of_mem start (List.mem_cons_of_mem t h)

/-- The worst of some statuses is one of them. -/
theorem worst_mem {statuses : List Status} (h : statuses ≠ []) : worst statuses ∈ statuses := by
  cases statuses with
  | nil => exact absurd rfl h
  | cons s rest =>
    rw [worst, List.foldl_cons, ok_max]
    exact foldl_max_mem s rest

end Status

namespace Pipeline

open Audit (Event)
open Host (Surroundings)

variable {μ σ : Type} [PipelineModule μ σ]

/-! ## Executions -/

/-- The run of one module on a file. -/
structure Execution (μ : Type) where
  module : μ
  status : Status
  elapsed : Nat
  /-- What the module itself logged. -/
  events : List Event

namespace Execution

/-- No module runs after this one. -/
def Ends (stopsOnFailure : Bool) (e : Execution μ) : Prop :=
  e.status = .stop ∨ stopsOnFailure = true ∧ e.status = .fail

def name (e : Execution μ) : String := PipelineModule.name e.module

def entry (e : Execution μ) : RunEntry where
  source := e.name
  status := e.status
  elapsed := e.elapsed

/-- What is logged of an execution: what the module logged and, if it failed, a warning. -/
def logged (stopsOnFailure : Bool) (file : FileId) (e : Execution μ) : List Event :=
  e.events ++ if e.status = .fail then [.moduleFailed file e.name stopsOnFailure] else []

end Execution

theorem endsRun_iff {stopsOnFailure : Bool} {e : Execution μ} :
    endsRun stopsOnFailure e.status = true ↔ e.Ends stopsOnFailure := by
  rw [Execution.Ends]
  cases e.status <;> simp [endsRun]

/-! ## Where executions end -/

/-- The executions end at the first that ends the run; if none does, no module is left. -/
def Complete (stopsOnFailure : Bool) (rest : List μ) : List (Execution μ) → Prop
  | [] => rest = []
  | e :: later =>
    if endsRun stopsOnFailure e.status then later = [] else Complete stopsOnFailure rest later

/-- The executions end at the first that ends the run, or with the last module. -/
structure EndsRight (stopsOnFailure : Bool) (rest : List μ) (ran : List (Execution μ)) :
    Prop where
  isLast : ∀ (before : List (Execution μ)) (e : Execution μ) (later : List (Execution μ)),
    ran = before ++ e :: later → e.Ends stopsOnFailure → later = []
  ends : rest = [] ∨ ∃ e, ran.getLast? = some e ∧ e.Ends stopsOnFailure

variable {stopsOnFailure : Bool} {ran : List (Execution μ)} {rest : List μ}

/-- Executions of which the last ends the run leave it open which modules come after them. -/
theorem Complete.of_ends {e : Execution μ} (h : Complete stopsOnFailure rest ran)
    (hlast : ran.getLast? = some e) (he : e.Ends stopsOnFailure) (other : List μ) :
    Complete stopsOnFailure other ran := by
  induction ran with
  | nil => cases hlast
  | cons first later ih =>
    rw [Complete] at h ⊢
    split
    · rename_i hends
      rwa [if_pos hends] at h
    · rename_i hends
      rw [if_neg hends] at h
      cases later with
      | nil =>
        obtain rfl : first = e := Option.some.inj hlast
        exact absurd (endsRun_iff.2 he) hends
      | cons second later => exact ih h hlast

theorem Complete.endsRight (h : Complete stopsOnFailure rest ran) :
    EndsRight stopsOnFailure rest ran := by
  induction ran with
  | nil =>
    refine ⟨?_, .inl h⟩
    intro before e later hran
    simp at hran
  | cons first later ih =>
    rw [Complete] at h
    split at h
    · rename_i hends
      subst h
      refine ⟨?_, .inr ⟨first, rfl, endsRun_iff.1 hends⟩⟩
      intro before e later hran he
      cases before with
      | nil => exact (List.cons.inj hran).2.symm
      | cons => simp at hran
    · rename_i hends
      have hlater := ih h
      refine ⟨?_, ?_⟩
      · intro before e rest' hran he
        cases before with
        | nil =>
          obtain ⟨rfl, -⟩ := List.cons.inj hran
          exact absurd (endsRun_iff.2 he) hends
        | cons _ before => exact hlater.isLast before e rest' (List.cons.inj hran).2 he
      · rcases hlater.ends with hrest | ⟨e, hlast, he⟩
        · exact .inl hrest
        · exact .inr ⟨e, by rw [List.getLast?_cons, hlast, Option.getD_some], he⟩

/-! ## Reports -/

/-- A report tells of some executions, and of nothing else. -/
structure Report.TellsOf (report : Report) (stopsOnFailure : Bool) (ran : List (Execution μ)) : Prop where
  entries : report.entries.map (fun entry => (entry.source, entry.status)) =
    ran.map fun e => (e.name, e.status)
  stopIsLast : ∀ (before : List RunEntry) (entry : RunEntry) (later : List RunEntry),
    report.entries = before ++ entry :: later → entry.status = .stop → later = []
  failIsLast : stopsOnFailure = true →
    ∀ (before : List RunEntry) (entry : RunEntry) (later : List RunEntry),
      report.entries = before ++ entry :: later → entry.status = .fail → later = []
  isStopped_iff : report.isStopped = true ↔
    ∃ entry, report.entries.getLast? = some entry ∧ entry.status = .stop
  isOk_iff : report.isOk = false ↔ ∃ e ∈ ran, e.status = .fail
  le_status : ∀ e ∈ ran, e.status ≤ report.status
  status_mem : ∃ e ∈ ran, e.status = report.status

theorem EndsRight.tellsOf {report : Report} (h : EndsRight stopsOnFailure rest ran)
    (hran : ran ≠ []) (hentries : report.entries = ran.map Execution.entry) :
    report.TellsOf stopsOnFailure ran := by
  have hlast : ∀ (before : List RunEntry) (entry : RunEntry) (later : List RunEntry),
      report.entries = before ++ entry :: later →
      entry.status = .stop ∨ stopsOnFailure = true ∧ entry.status = .fail → later = [] := by
    intro before entry later hsplit hends
    rw [hentries] at hsplit
    obtain ⟨front, back, rfl, -, hback⟩ := List.map_eq_append_iff.1 hsplit
    obtain ⟨e, tail, rfl, rfl, rfl⟩ := List.map_eq_cons_iff.1 hback
    rw [h.isLast front e tail rfl hends, List.map_nil]
  have hstatuses : report.entries.map RunEntry.status = ran.map Execution.status := by
    rw [hentries, List.map_map]
    rfl
  constructor
  · rw [hentries, List.map_map]
    rfl
  · intro before entry later hsplit hstop
    exact hlast before entry later hsplit (.inl hstop)
  · intro hstops before entry later hsplit hfail
    exact hlast before entry later hsplit (.inr ⟨hstops, hfail⟩)
  · rw [Report.isStopped, List.any_eq_true]
    constructor
    · rintro ⟨entry, hmem, hstop⟩
      obtain ⟨before, later, hsplit⟩ := List.append_of_mem hmem
      obtain rfl := hlast before entry later hsplit (.inl (of_decide_eq_true hstop))
      exact ⟨entry, by rw [hsplit, List.getLast?_concat], of_decide_eq_true hstop⟩
    · rintro ⟨entry, hget, hstop⟩
      exact ⟨entry, List.mem_of_getLast? hget, decide_eq_true hstop⟩
  · have hfailed : report.isOk = false ↔ .fail ∈ report.entries.map RunEntry.status := by
      simp [Report.isOk, RunEntry.hasFailed]
    rw [hfailed, hstatuses, List.mem_map]
  · intro e he
    rw [Report.status, hstatuses]
    exact Status.le_foldl_max (.inr (List.mem_map_of_mem he))
  · rw [Report.status, hstatuses, ← List.mem_map]
    exact Status.worst_mem (by simpa using hran)

/-! ## Warnings -/

/-- A warning that a module failed on a file. -/
def isFailureWarning : Event → Bool
  | .moduleFailed .. => true
  | _ => false

/-- There is one warning for each module that failed, apart from what modules log themselves. -/
theorem countP_logged (stopsOnFailure : Bool) (file : FileId) (ran : List (Execution μ)) :
    (ran.flatMap (Execution.logged stopsOnFailure file)).countP isFailureWarning =
      (ran.filter fun e => e.status = .fail).length +
        (ran.flatMap Execution.events).countP isFailureWarning := by
  induction ran with
  | nil => rfl
  | cons e later ih =>
    rw [List.flatMap_cons, List.countP_append, ih, Execution.logged, List.countP_append,
      List.flatMap_cons, List.countP_append, List.filter_cons]
    by_cases h : e.status = .fail
    · simp [h, isFailureWarning]
      omega
    · simp [h]
      omega

/-! ## Runs -/

variable [Surroundings σ] {file : HostFile σ} {world after : σ}

/-- A module runs on a file. -/
def execute (file : HostFile σ) (module : μ) (world : σ) : Execution μ :=
  let outcome := PipelineModule.run module file world
  { module := module
    status := outcome.value
    elapsed := Surroundings.ticks outcome.world - Surroundings.ticks world
    events := outcome.events }

/-- Modules run on a file one after the other, each once and in the world that the one before it left. -/
inductive Executes (file : HostFile σ) : σ → List (Execution μ) → σ → Prop
  | done (world : σ) : Executes file world [] world
  | next {world after : σ} {module : μ} {later : List (Execution μ)}
      (h : Executes file (PipelineModule.run module file world).world later after) :
      Executes file world (execute file module world :: later) after

theorem runOne_apply (stopsOnFailure : Bool) (file : HostFile σ) (module : μ) (world : σ) :
    runOne stopsOnFailure file module world =
      ⟨(execute file module world).entry, (PipelineModule.run module file world).world,
        (execute file module world).logged stopsOnFailure file.id⟩ := by
  by_cases h : (PipelineModule.run module file world).value = .fail <;>
    simp [runOne, execute, Execution.entry, Execution.name, Execution.logged, h]

/-- Whatever the modules answer, a first part of them is executed. -/
theorem exists_executes (stopsOnFailure : Bool) (file : HostFile σ) (modules : List μ)
    (world : σ) :
    ∃ (ran : List (Execution μ)) (rest : List μ) (after : σ),
      modules = ran.map Execution.module ++ rest ∧ Executes file world ran after ∧
        Complete stopsOnFailure rest ran := by
  induction modules generalizing world with
  | nil => exact ⟨[], [], world, rfl, .done world, rfl⟩
  | cons module modules ih =>
    by_cases hends : endsRun stopsOnFailure (execute file module world).status = true
    · exact ⟨[execute file module world], modules, _, rfl, .next (.done _), by rw [Complete, if_pos hends]⟩
    · obtain ⟨ran, rest, after, hmodules, hexecutes, hcomplete⟩ :=
        ih (PipelineModule.run module file world).world
      refine ⟨execute file module world :: ran, rest, after, ?_, .next hexecutes, ?_⟩
      · rw [hmodules]
        rfl
      · rw [Complete, if_neg hends]
        exact hcomplete

/-- The run does what the executions do, whatever modules come after them. -/
theorem runAll_eq (h : Executes file world ran after) (hc : Complete stopsOnFailure rest ran) :
    runAll stopsOnFailure file (ran.map Execution.module ++ rest) world =
      ⟨ran.map Execution.entry, after, ran.flatMap (Execution.logged stopsOnFailure file.id)⟩ := by
  induction h with
  | done world =>
    obtain rfl : rest = [] := hc
    rfl
  | @next world after module later h ih =>
    rw [Complete] at hc
    have hentry : (execute file module world).entry.status = (execute file module world).status := rfl
    change runAll stopsOnFailure file (module :: (later.map Execution.module ++ rest)) world = _
    rw [runAll, Action.bind_apply, runOne_apply, hentry]
    split at hc
    · rename_i hends
      subst hc
      cases h
      simp [hends]
    · rename_i hends
      simp [hends, ih hc]

/-- The report of executions that led from one world to another. -/
def reportOf (file : HostFile σ) (world after : σ) (ran : List (Execution μ)) : Report where
  id := (Surroundings.freshId after).1
  file := file.id
  entries := ran.map Execution.entry
  startedAt := Surroundings.now world
  completedAt := Surroundings.now (Surroundings.freshId after).2

theorem run_eq {pipeline : Pipeline μ} (h : Executes file world ran after)
    (hc : Complete pipeline.stopsOnFailure rest ran)
    (hm : pipeline.modules = ran.map Execution.module ++ rest) :
    pipeline.run file world = ⟨reportOf file world after ran, (Surroundings.freshId after).2,
      ran.flatMap (Execution.logged pipeline.stopsOnFailure file.id) ++
        [.reported (reportOf file world after ran)]⟩ := by
  simp [run, reportOf, hm, runAll_eq h hc]

/-- **A pipeline runs its first modules on a file,** up to and with the first that ends the run, and its
report, the world and the log are those of these modules. -/
theorem run_executes (pipeline : Pipeline μ) (file : HostFile σ) (world : σ) :
    ∃ (ran : List (Execution μ)) (rest : List μ) (after : σ),
      pipeline.modules = ran.map Execution.module ++ rest ∧ Executes file world ran after ∧
      EndsRight pipeline.stopsOnFailure rest ran ∧
      (pipeline.run file world).world = (Surroundings.freshId after).2 ∧
      (pipeline.run file world).value.TellsOf pipeline.stopsOnFailure ran ∧
      (pipeline.run file world).events =
        ran.flatMap (Execution.logged pipeline.stopsOnFailure file.id) ++
          [.reported (pipeline.run file world).value] ∧
      -- One warning for each failed module, apart from what modules log themselves.
      (pipeline.run file world).events.countP isFailureWarning =
        (pipeline.run file world).value.failedModules.length +
          (ran.flatMap Execution.events).countP isFailureWarning ∧
      -- Modules after one that ended the run do nothing: there may as well be others.
      (∀ (e : Execution μ) (other : Pipeline μ), ran.getLast? = some e →
        e.Ends pipeline.stopsOnFailure → other.stopsOnFailure = pipeline.stopsOnFailure →
        ran.map Execution.module <+: other.modules →
        other.run file world = pipeline.run file world) := by
  obtain ⟨ran, rest, after, hmodules, hexecutes, hcomplete⟩ :=
    exists_executes pipeline.stopsOnFailure file pipeline.modules world
  have hrun := run_eq hexecutes hcomplete hmodules
  have hends := hcomplete.endsRight
  have hran : ran ≠ [] := by
    rintro rfl
    have hrest : rest = [] := hcomplete
    exact pipeline.nonempty (by rw [hmodules, hrest]; rfl)
  refine ⟨ran, rest, after, hmodules, hexecutes, hends, ?_, ?_, ?_, ?_, ?_⟩
  · rw [hrun]
  · rw [hrun]
    exact hends.tellsOf hran rfl
  · rw [hrun]
  · have hfailed : (reportOf file world after ran).failedModules.length =
        (ran.filter fun e => e.status = .fail).length := by
      rw [Report.failedModules, List.length_map, reportOf, List.filter_map, List.length_map]
      rfl
    rw [hrun, List.countP_append, countP_logged, hfailed]
    rfl
  · intro e other hlast he hstops hprefix
    obtain ⟨rest', hrest'⟩ := hprefix
    have hcomplete' := hcomplete.of_ends hlast he rest'
    rw [← hstops] at hcomplete'
    rw [hrun, run_eq hexecutes hcomplete' hrest'.symm, hstops]

end Pipeline

end Hallmark
