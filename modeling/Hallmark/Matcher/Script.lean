import Hallmark.Matcher.Basic

/-!
# `Hallmark/Matcher/Script.lean` — an engine that answers by a script

For trying out a module without a database: an engine that gives the answer written down for the start
of a buffer, or its usual answer, or fails whenever it is called. It remembers every buffer it was
given, also those on which it failed. Main statement: `identify_seen`.
-/

set_option autoImplicit false

namespace Hallmark.Matcher

/-- The script of an engine, and the buffers it was given. -/
structure Script where
  name : String := "mock"
  /-- The answers for buffers that start with given bytes; the first that fits is given. -/
  responses : List (List UInt8 × Identification) := []
  /-- The answer to all other buffers. -/
  usual : Identification := ⟨"data", none⟩
  /-- Why every call fails, if it shall. -/
  failure : Option String := none
  /-- The buffers given so far, in order. -/
  seen : List (List UInt8) := []
deriving DecidableEq, Repr, Inhabited

namespace Script

def calls (script : Script) : Nat := script.seen.length

def latest? (script : Script) : Option (List UInt8) := script.seen.getLast?

def respond (script : Script) (start : List UInt8) (answer : Identification) : Script :=
  { script with responses := script.responses ++ [(start, answer)] }

def answer (script : Script) (buffer : List UInt8) : Except MatchError Identification :=
  match script.failure with
  | some reason => .error (.failed script.name reason)
  | none =>
    .ok (((script.responses.find? fun r => r.1.isPrefixOf buffer).map Prod.snd).getD script.usual)

def identify (buffer : List UInt8) : StateM Script (Except MatchError Identification) := fun script =>
  (script.answer buffer, { script with seen := script.seen ++ [buffer] })

/-- Every call is remembered, whatever its answer. -/
theorem identify_seen (script : Script) (buffer : List UInt8) :
    (identify buffer script).2.seen = script.seen ++ [buffer] := rfl

/-- The engine of a script that is part of a world. -/
def toMatcher {σ : Type} (script : Script) (get : σ → Script) (put : Script → σ → σ) :
    Matcher σ where
  name := script.name
  databaseVersion := some "mock"
  identify buffer := fun world =>
    let (result, after) := identify buffer (get world)
    (result, put after world)

end Script

end Hallmark.Matcher
