import Hallmark.Action
import Hallmark.Content.Label
import Hallmark.Host.Surroundings
import Hallmark.Module.Argument
import Hallmark.Module.Config
import Hallmark.Pipeline.Module
import Hallmark.Text.Utf8

/-!
# `Hallmark/Module/FileType.lean` — the file type module

The module identifies each file by the bytes at its start and posts the label. Preparing it chooses a
matcher: the one over the database that the argument names, else the one it was made with, else the
one over the database of its settings. Without a matcher every file fails; an empty file is passed
over. For any other file a buffer is allocated, which panics where the settings ask for more bytes than
an allocation can have. Main statements: `run_ne_panicked`, `isInitialized_finalize`.
-/

set_option autoImplicit false

namespace Hallmark

open Hallmark.Action (emit emitIf liftHost observe)
open Blackboard (Attribute)
open Host (Buffer DatabaseLoader Surroundings)

structure FileTypeModule (σ : Type) where
  config : ModuleConfig := {}
  /-- The matcher that the module was made with, if any. -/
  preset : Option (Matcher σ) := none
  /-- The matcher in use, while the module is prepared. -/
  matcher : Option (Matcher σ) := none

namespace FileTypeModule

variable {σ : Type}

/-- What the module says about itself. -/
def info : ModuleInfo where
  name := "FileTypeSigModule"
  description := "Determines file type based on signature"
  version := "1.0.0"

/-- A module that is prepared with a matcher from the start. -/
def ofMatcher (matcher : Matcher σ) : FileTypeModule σ :=
  { preset := some matcher, matcher := some matcher }

def isInitialized (m : FileTypeModule σ) : Bool := m.matcher.isSome

/-! ## Preparing -/

def loadDatabase [DatabaseLoader σ] (path : String) : Action σ (Except ModuleError (Matcher σ)) := do
  match ← observe (DatabaseLoader.load path) with
  | .error e => return .error (.signature e)
  | .ok matcher =>
    emit (.databaseLoaded path)
    return .ok matcher

/-- The matcher that the module shall use. -/
def chooseMatcher [DatabaseLoader σ] (m : FileTypeModule σ) (arguments : String) :
    Action σ (Except ModuleError (Matcher σ)) :=
  match m.config.validate with
  | .error e => return .error e
  | .ok () =>
    match Module.databaseArgument? arguments, m.preset, m.config.databasePath? with
    -- A path in the argument comes first, even for a module that was made with a matcher.
    | some path, _, _ => loadDatabase path
    | none, some matcher, _ => return .ok matcher
    | none, none, some path => loadDatabase path
    | none, none, none => return .error (.configuration "module directory is not set")

def prepare [DatabaseLoader σ] (m : FileTypeModule σ) (arguments : String) :
    Action σ (Status × FileTypeModule σ) := do
  emitIf (Module.isUnrecognized arguments) (.argumentsIgnored info.name arguments)
  match ← m.chooseMatcher arguments with
  | .ok matcher =>
    emit (.prepared info.name info.version matcher.databaseVersion)
    return (.ok, { m with matcher := some matcher })
  | .error e =>
    emit (.prepareFailed info.name e)
    return (.fail, { m with matcher := none })

theorem config_prepare [DatabaseLoader σ] (m : FileTypeModule σ) (arguments : String) (world : σ) :
    (m.prepare arguments world).value.2.config = m.config := by
  simp only [prepare, Action.bind_apply, Action.emitIf_apply]
  cases (m.chooseMatcher arguments world).value <;> rfl

/-! ## Running -/

/-- How many bytes were read at the start of a file, and what a matcher identifies them as. -/
def examine (matcher : Matcher σ) {room : Nat} (buffer : Buffer room) (file : HostFile σ) :
    Action σ (Except ModuleError (Nat × Identification)) := do
  match ← liftHost (file.read 0 buffer) with
  | .error e => return .error (.file e)
  | .ok (count, filled) =>
    if count = 0 then return .error (.emptyRead file.id)
    else
      match ← liftHost (matcher.identify (filled.front count)) with
      | .error e => return .error (.noLabel e)
      | .ok identification => return .ok (count, identification)

def labelOf (config : ModuleConfig) (identification : Identification) : String :=
  Content.cleanLabel (Text.Utf8.bytes (config.labelFormat.select identification))
    config.maxLabelLength

/-- Posts the label of an identification and notes it in the audit trail. -/
def publish [Surroundings σ] (config : ModuleConfig) (file : HostFile σ) (count : Nat)
    (identification : Identification) : Action σ (Except ModuleError Unit) := do
  let label := labelOf config identification
  let time ← observe Surroundings.now
  let fact : Attribute :=
    { type := .fileTypeSig, source := info.name, value := .text label, createdAt := time }
  match ← liftHost (file.post fact) with
  | .error e => return .error (.blackboard e)
  | .ok () =>
    emit (.identified {
      timestamp := ← observe Surroundings.now
      source := info.name
      file := file.id
      label := label
      mime := identification.mime
      bytesExamined := count })
    return .ok ()

/-- Identifies a file by what a buffer takes of it, and posts its label. -/
def identifyInto [Surroundings σ] (config : ModuleConfig) (matcher : Matcher σ) {room : Nat}
    (buffer : Buffer room) (file : HostFile σ) : Action σ (Except ModuleError Unit) := do
  match ← examine matcher buffer file with
  | .error e => return .error e
  | .ok (count, identification) => publish config file count identification

/-- Identifies a file and posts its label; an empty file is passed over. Panics if there can be no buffer
of the size that the settings ask for. -/
def identifyFile [Surroundings σ] (m : FileTypeModule σ) (file : HostFile σ) :
    Action σ (Ending (Except ModuleError Unit)) :=
  match m.matcher with
  | none => return .returned (.error .notInitialized)
  | some matcher =>
    if file.size = 0 then return .returned (.ok ())
    else
      match Buffer.allocate? m.config.bufferSize with
      | none => return .panicked
      | some buffer => do return .returned (← identifyInto m.config matcher buffer file)

def run [Surroundings σ] (m : FileTypeModule σ) (file : HostFile σ) : Action σ (Ending Status) := do
  match ← m.identifyFile file with
  | .panicked => return .panicked
  | .returned (.ok ()) => return .returned .ok
  | .returned (.error e) =>
    -- Once for those who watch the log, once for the audit trail.
    emit (.runFailed info.name file.id e)
    emit (.runFailure info.name file.id e)
    return .returned .fail

/-- With a buffer size that can be allocated a run returns. -/
theorem run_ne_panicked [Surroundings σ] {m : FileTypeModule σ} (h : m.config.bufferSize ≤ Buffer.limit)
    (file : HostFile σ) (world : σ) : (m.run file world).value ≠ .panicked := by
  have hallocate : Buffer.allocate? m.config.bufferSize = some (.zeros _) := if_pos h
  have hreturns : ∃ result, (m.identifyFile file world).value = .returned result := by
    cases hm : m.matcher with
    | none => exact ⟨_, by rw [identifyFile, hm]; rfl⟩
    | some matcher =>
      by_cases hs : file.size = 0
      · exact ⟨.ok (), by simp [identifyFile, hm, hs]⟩
      · exact ⟨_, by simp only [identifyFile, hm, if_neg hs, hallocate]; rfl⟩
  obtain ⟨result, hresult⟩ := hreturns
  cases result <;> simp [run, hresult]

/-! ## Finalizing -/

def finalize (m : FileTypeModule σ) : Action σ (Status × FileTypeModule σ) := do
  emitIf m.isInitialized (.finalized info.name)
  return (.ok, { m with matcher := none })

theorem isInitialized_finalize (m : FileTypeModule σ) (world : σ) :
    ((m.finalize world).value.2).isInitialized = false := rfl

end FileTypeModule

/-! ## In a pipeline -/

/-- A module with a buffer size that can be allocated. -/
structure FittingModule (σ : Type) extends FileTypeModule σ where
  fits : config.bufferSize ≤ Buffer.limit := by decide

instance {σ : Type} [DatabaseLoader σ] [Surroundings σ] :
    Pipeline.PipelineModule (FittingModule σ) σ where
  info := fun _ => FileTypeModule.info
  prepare m arguments := fun world =>
    let outcome := m.toFileTypeModule.prepare arguments world
    { outcome with
      value := (outcome.value.1, { outcome.value.2 with
        fits := by
          rw [FileTypeModule.config_prepare]
          exact m.fits }) }
  run m file := fun world =>
    let outcome := m.toFileTypeModule.run file world
    { outcome with value := outcome.value.get (FileTypeModule.run_ne_panicked m.fits file world) }
  finalize m := fun world =>
    let outcome := m.toFileTypeModule.finalize world
    { outcome with value := (outcome.value.1, { outcome.value.2 with fits := m.fits }) }

end Hallmark
