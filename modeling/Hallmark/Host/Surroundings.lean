import Hallmark.Matcher.Basic
import Hallmark.Signature.Error
import Hallmark.Time.Timestamp

/-!
# `Hallmark/Host/Surroundings.lean` — what else a run needs of the host

The time, identifiers, and matchers over database files all come from the host's world.
-/

set_option autoImplicit false

namespace Hallmark.Host

/-- Clocks and fresh identifiers. -/
class Surroundings (σ : Type) where
  /-- The time of day. -/
  now : σ → Time.Timestamp
  /-- A number of nanoseconds that only grows. -/
  ticks : σ → Nat
  /-- An identifier that was not used before. -/
  freshId : StateM σ String

/-- Matchers over database files. -/
class DatabaseLoader (σ : Type) where
  /-- The matcher over the database at a path. -/
  load : String → σ → Except Signature.DatabaseError (Matcher σ)

end Hallmark.Host
