import Hallmark.Number.Word
import Hallmark.Signature.Entry

/-!
# `Hallmark/Signature/Comparison.lean` — comparing numbers

A numeric test compares two words of the entry's width. Equality and the bit tests look at the words
themselves; the two orders compare either the words or, for a signed type, their two's complements.
-/

set_option autoImplicit false

namespace Hallmark.Signature

/-- The integer that the orders compare. -/
def ordered (word : UInt64) (width : Nat) (isSigned : Bool) : Int :=
  if isSigned then Number.signed word width else word.toNat

def NumberOp.holds (op : NumberOp) (actual expected : UInt64) (width : Nat) (isSigned : Bool) : Bool :=
  match op with
  | .equal => actual == expected
  | .notEqual => actual != expected
  | .less => ordered actual width isSigned < ordered expected width isSigned
  | .greater => ordered expected width isSigned < ordered actual width isSigned
  | .allSet => (actual &&& expected) == expected
  | .notAllSet => (actual &&& expected) != expected
  | .any => true

@[simp] theorem NumberOp.holds_any (actual expected : UInt64) (width : Nat) (isSigned : Bool) :
    NumberOp.any.holds actual expected width isSigned = true := rfl

/-- A test for difference is the negation of the test for equality. -/
theorem NumberOp.holds_notEqual (actual expected : UInt64) (width : Nat) (isSigned : Bool) :
    NumberOp.notEqual.holds actual expected width isSigned =
      !NumberOp.equal.holds actual expected width isSigned := rfl

/-- Some bit is clear exactly when not all are set. -/
theorem NumberOp.holds_notAllSet (actual expected : UInt64) (width : Nat) (isSigned : Bool) :
    NumberOp.notAllSet.holds actual expected width isSigned =
      !NumberOp.allSet.holds actual expected width isSigned := rfl

end Hallmark.Signature
