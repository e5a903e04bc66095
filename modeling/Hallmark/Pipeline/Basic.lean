import Hallmark.Host.Surroundings
import Hallmark.Pipeline.Module

/-!
# `Hallmark/Pipeline/Basic.lean` — running modules over files

A pipeline has one or more modules, and a second list with the arguments that each was registered with.
It prepares them in order up to the first failure; it runs them on a file in order until one asks to
stop, or fails where that stops the pipeline; it finalizes all of them. Main statements:
`length_prepareAll` and `length_finalizeAll`, no module is lost or added.
-/

set_option autoImplicit false

namespace Hallmark

open Hallmark.Action (emit emitIf liftHost observe)
open Host (Surroundings)

/-- Modules in the order in which they run. -/
structure Pipeline (μ : Type) where
  modules : List μ
  /-- What each module is prepared with, in the order of the modules. -/
  arguments : List String
  /-- Whether a failing module is the last to run on a file. -/
  stopsOnFailure : Bool := false
  nonempty : modules ≠ []

namespace Pipeline

/-! ## Building -/

/-- A pipeline that is not finished. -/
structure Builder (μ : Type) where
  modules : List μ := []
  arguments : List String := []
  stopsOnFailure : Bool := false

namespace Builder

variable {μ : Type}

def add (builder : Builder μ) (module : μ) (arguments : String := "") : Builder μ :=
  { builder with
    modules := builder.modules ++ [module]
    arguments := builder.arguments ++ [arguments] }

def configure (builder : Builder μ) (stopsOnFailure : Bool) : Builder μ :=
  { builder with stopsOnFailure := stopsOnFailure }

/-- The pipeline, if it has a module. -/
def build (builder : Builder μ) : Except ModuleError (Pipeline μ) :=
  if h : builder.modules = [] then .error (.configuration "At least one module is required")
  else .ok { builder with nonempty := h }

end Builder

variable {μ σ : Type} [PipelineModule μ σ]

/-! ## Preparing -/

/-- Prepares modules, each with its arguments, in order up to the first that fails; those after it stay
as they are. -/
def prepareAll : List (μ × String) → Action σ (Except ModuleError Unit × List μ)
  | [] => return (.ok (), [])
  | (module, arguments) :: rest => do
    let (status, prepared) ← PipelineModule.prepare module arguments
    let name := PipelineModule.name prepared
    emit (.moduleStarted name (PipelineModule.info prepared).version status)
    -- The modules after one that fails are not asked.
    if status = .fail then
      let reason := "module " ++ name ++ " failed to initialize"
      return (.error (.configuration reason), prepared :: rest.map Prod.fst)
    else
      let (result, others) ← prepareAll rest
      return (result, prepared :: others)

theorem length_prepareAll (pairs : List (μ × String)) (world : σ) :
    (prepareAll pairs world).value.2.length = pairs.length := by
  induction pairs generalizing world with
  | nil => rfl
  | cons pair rest ih =>
    simp only [prepareAll, Action.bind_apply, Action.emit_apply]
    split
    · simp
    · simp [ih]

/-- Prepares the modules; fails with the name of the first that fails. The two lists are gone through side
by side, so a module that had no arguments would not be asked. -/
def prepare (pipeline : Pipeline μ) : Action σ (Except ModuleError Unit × Pipeline μ) := fun world =>
  let pairs := pipeline.modules.zip pipeline.arguments
  let outcome := prepareAll pairs world
  { outcome with
    value := (outcome.value.1,
      { pipeline with
        modules := outcome.value.2 ++ pipeline.modules.drop pairs.length
        nonempty := by
          have h := pipeline.nonempty
          rw [← List.length_pos_iff] at h ⊢
          rw [List.length_append, length_prepareAll, List.length_drop]
          omega }) }

/-! ## Running -/

/-- Whether no module runs after one that reported a status. -/
def endsRun (stopsOnFailure : Bool) : Status → Bool
  | .ok => false
  | .stop => true
  | .fail => stopsOnFailure

/-- Runs a module on a file and notes a failure. -/
def runOne [Surroundings σ] (stopsOnFailure : Bool) (file : HostFile σ) (module : μ) :
    Action σ RunEntry := do
  let start ← observe Surroundings.ticks
  let status ← PipelineModule.run module file
  let stop ← observe Surroundings.ticks
  emitIf (status = .fail) (.moduleFailed file.id (PipelineModule.name module) stopsOnFailure)
  return { source := PipelineModule.name module, status := status, elapsed := stop - start }

/-- Runs modules on a file in order until one ends the run. -/
def runAll [Surroundings σ] (stopsOnFailure : Bool) (file : HostFile σ) :
    List μ → Action σ (List RunEntry)
  | [] => return []
  | module :: rest => do
    let entry ← runOne stopsOnFailure file module
    if endsRun stopsOnFailure entry.status then return [entry]
    else
      let entries ← runAll stopsOnFailure file rest
      return entry :: entries

/-- Runs the modules on a file and reports what they reported. -/
def run [Surroundings σ] (pipeline : Pipeline μ) (file : HostFile σ) : Action σ Report := do
  let startedAt ← observe Surroundings.now
  let entries ← runAll pipeline.stopsOnFailure file pipeline.modules
  let id ← liftHost Surroundings.freshId
  let completedAt ← observe Surroundings.now
  let report : Report :=
    { id := id, file := file.id, entries := entries, startedAt := startedAt,
      completedAt := completedAt }
  emit (.reported report)
  return report

/-! ## Finalizing -/

def finalizeAll : List μ → Action σ (List Status × List μ)
  | [] => return ([], [])
  | module :: rest => do
    let (status, finalized) ← PipelineModule.finalize module
    emitIf (status = .fail) (.finalizeFailed (PipelineModule.name finalized))
    let (statuses, others) ← finalizeAll rest
    return (status :: statuses, finalized :: others)

theorem length_finalizeAll (modules : List μ) (world : σ) :
    (finalizeAll modules world).value.2.length = modules.length := by
  induction modules generalizing world with
  | nil => rfl
  | cons module rest ih =>
    simp [finalizeAll, ih]

/-- Finalizes the modules and answers the worst status. -/
def finalize (pipeline : Pipeline μ) : Action σ (Status × Pipeline μ) := fun world =>
  let outcome := finalizeAll pipeline.modules world
  { outcome with
    value := (Status.worst outcome.value.1,
      { pipeline with
        modules := outcome.value.2
        nonempty := by
          have h := pipeline.nonempty
          rw [← List.length_pos_iff] at h ⊢
          rwa [length_finalizeAll] }) }

/-! ## Summary -/

def size {μ : Type} (pipeline : Pipeline μ) : Nat := pipeline.modules.length

def summary {μ : Type} (pipeline : Pipeline μ) : String :=
  "FilePipeline \x7b module_count: " ++ Number.decimalText pipeline.size ++
    ", config: PipelineConfig \x7b stop_on_failure: " ++
    (if pipeline.stopsOnFailure then "true" else "false") ++ " \x7d \x7d"

end Pipeline

end Hallmark
