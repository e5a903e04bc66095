import Hallmark.Identification

/-!
# `Hallmark/Matcher/Basic.lean` — engines that identify content

A matcher identifies a file by the bytes at its start. It may keep a state of its own, for instance to
count its calls; `σ` is the world that this state is part of.
-/

set_option autoImplicit false

namespace Hallmark.Matcher

/-- Why a matcher gives no answer. -/
inductive MatchError where
  /-- It has no database. -/
  | notLoaded
  | failed (engine reason : String)
deriving DecidableEq, Repr

def MatchError.message : MatchError → String
  | .notLoaded => "no signature database loaded"
  | .failed engine reason => s!"matcher '{engine}' failed: {reason}"

end Hallmark.Matcher

namespace Hallmark

open Matcher in
/-- An engine that identifies content. -/
structure Matcher (σ : Type) where
  name : String
  /-- Which signatures are loaded, if the engine can tell. -/
  databaseVersion : Option String := none
  identify : List UInt8 → StateM σ (Except MatchError Identification)

end Hallmark
