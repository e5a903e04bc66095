import Hallmark.Record.Field

/-!
# `Hallmark/Status.lean` — what a module reports

A module answers each call with a status. Statuses are ordered by severity, and a report or a
finalization answers with the worst. Main statement: `max_eq_fail_iff`, one failure among two makes
their maximum a failure.
-/

set_option autoImplicit false

namespace Hallmark

/-- What a module reports to the pipeline. -/
inductive Status where
  | ok
  /-- No further module shall run on this file. -/
  | stop
  | fail
deriving DecidableEq, Repr, Inhabited

namespace Status

def severity : Status → Nat
  | .ok => 0
  | .stop => 1
  | .fail => 2

instance : LE Status := ⟨fun a b => a.severity ≤ b.severity⟩
instance : LT Status := ⟨fun a b => a.severity < b.severity⟩
instance (a b : Status) : Decidable (a ≤ b) := Nat.decLe _ _
instance (a b : Status) : Decidable (a < b) := Nat.decLt _ _
instance : Max Status := ⟨fun a b => if a ≤ b then b else a⟩

theorem max_eq_fail_iff {a b : Status} : max a b = .fail ↔ a = .fail ∨ b = .fail := by
  cases a <;> cases b <;> decide

/-- The worst of some statuses; `ok` if there is none. -/
def worst (statuses : List Status) : Status := statuses.foldl max .ok

def name : Status → String
  | .ok => "ok"
  | .stop => "stop"
  | .fail => "fail"

def toJson (status : Status) : Json := .text status.name

def ofJson? : Json → Option Status :=
  Record.choice? [("ok", .ok), ("stop", .stop), ("fail", .fail)]

end Status

end Hallmark
