import Hallmark.Number.Digits
import Hallmark.Signature.Reason
import Hallmark.SystemError

/-!
# `Hallmark/Signature/Error.lean` — why there is no database

Reading a database fails because its file is missing or unreadable, because an engine refuses it, or
at a line that is refused.
-/

set_option autoImplicit false

namespace Hallmark.Signature

/-- Why a signature database cannot be used. -/
inductive DatabaseError where
  | notFound (path : String)
  /-- A line, counted from 1, and what is wrong with it. -/
  | line (number : Nat) (reason : Reason)
  | refused (path reason : String)
  | system (error : SystemError)
deriving DecidableEq, Repr

def DatabaseError.message : DatabaseError → String
  | .notFound path => s!"signature database not found: {path}"
  | .line number reason => "line " ++ Number.decimalText number ++ ": " ++ reason.message
  | .refused path reason => s!"error loading signature database {path}: {reason}"
  | .system error => "I/O error: " ++ error.message

end Hallmark.Signature
