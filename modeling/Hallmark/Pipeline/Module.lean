import Hallmark.Action
import Hallmark.Module.Info

/-!
# `Hallmark/Pipeline/Module.lean` — what a pipeline asks of its modules
-/

set_option autoImplicit false

namespace Hallmark.Pipeline

/-- Modules of type `μ` in a world `σ`. Running does not change a module, only the world. -/
class PipelineModule (μ : Type) (σ : outParam Type) where
  info : μ → ModuleInfo
  prepare : μ → (arguments : String) → Action σ (Status × μ)
  run : μ → HostFile σ → Action σ Status
  finalize : μ → Action σ (Status × μ)

def PipelineModule.name {μ σ : Type} [PipelineModule μ σ] (module : μ) : String :=
  (PipelineModule.info module).name

end Hallmark.Pipeline
