import Hallmark.Matcher.Basic
import Hallmark.Signature.Database

/-!
# `Hallmark/Matcher/Signature.lean` — the engine over a signature database

An engine without signatures identifies nothing; otherwise its database always has an answer.
-/

set_option autoImplicit false

namespace Hallmark.Matcher

open Signature (Database)

/-- A named engine over a database. -/
structure SignatureMatcher where
  database : Database
  name : String := "magic"
deriving Repr

namespace SignatureMatcher

def identify (matcher : SignatureMatcher) (buffer : List UInt8) : Except MatchError Identification :=
  if matcher.database.signatures.isEmpty then .error .notLoaded
  else .ok (matcher.database.identify buffer)

/-- Where the signatures come from, and how many there are. -/
def databaseVersion (matcher : SignatureMatcher) : String :=
  let source := matcher.database.source.getD "builtin"
  let count := Number.decimalText matcher.database.size
  s!"{source} ({count} signatures)"

def toMatcher {σ : Type} (matcher : SignatureMatcher) : Matcher σ where
  name := matcher.name
  databaseVersion := some matcher.databaseVersion
  identify buffer := pure (matcher.identify buffer)

end SignatureMatcher

end Hallmark.Matcher
