import Hallmark.Host.File
import Hallmark.Matcher.Basic
import Hallmark.Signature.Error

/-!
# `Hallmark/Module/Error.lean` — why a module fails

A module is not set up, is set up wrongly, or fails on one file. Only the first two kinds are permanent:
no later file can succeed until the module is prepared anew (`isPermanent_iff`).
-/

set_option autoImplicit false

namespace Hallmark

open Blackboard (BlackboardError)
open Host (FileError)
open Matcher (MatchError)
open Signature (DatabaseError)

/-- Why a module fails. -/
inductive ModuleError where
  /-- A file came before the module was prepared. -/
  | notInitialized
  /-- A file that is not empty brought no bytes. -/
  | emptyRead (file : FileId)
  | configuration (reason : String)
  | signature (error : DatabaseError)
  | noLabel (error : MatchError)
  | file (error : FileError)
  | blackboard (error : BlackboardError)
deriving DecidableEq, Repr

namespace ModuleError

def message : ModuleError → String
  | .notInitialized => "module is not initialized"
  | .emptyRead id => "error reading file contents: no bytes read from file " ++ id.toText
  | .configuration reason => s!"configuration error: {reason}"
  | .signature error => "signature database error: " ++ error.message
  | .noLabel error => "error getting file type: " ++ error.message
  | .file error => error.message
  | .blackboard error => "blackboard error: " ++ error.message

/-- No file can succeed until the module is prepared anew. -/
def isPermanent : ModuleError → Bool
  | .notInitialized | .configuration _ | .signature _ => true
  | _ => false

theorem isPermanent_iff (e : ModuleError) :
    e.isPermanent = true ↔
      e = .notInitialized ∨ (∃ reason, e = .configuration reason) ∨ ∃ error, e = .signature error := by
  cases e <;> simp [isPermanent]

end ModuleError

end Hallmark
