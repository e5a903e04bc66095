import Hallmark.Number.Word
import Hallmark.Signature.Entry

/-!
# `Hallmark/Signature/Strength.lean` — how specific an entry is

Top-level entries are tried in descending strength. An entry gains strength from the bytes that its
type and pattern fix (`extent`), and gains or loses some by its comparison (`compared`): a comparison
that nearly everything passes leaves nothing. Up to here strengths are counted in signed words of 64
bits, which wrap around; no entry line has a type so wide. A declared adjustment comes last and
saturates at the ends of that range. The least strength is 1.
-/

set_option autoImplicit false

namespace Hallmark.Signature

/-- What one fixed byte is worth. -/
def byteWorth : Nat := 10

/-- The strength that comes from the bytes an entry fixes. A pattern looked for at many positions
counts for less the longer it is, but each byte for at least one. -/
def extent (type : ValueType) (test : Test) : Nat :=
  match type, test with
  | .number format, _ => format.width * byteWorth
  | .text _, .text _ pattern => pattern.length * byteWorth
  | .search _ _, .text _ pattern => pattern.length * max (byteWorth / pattern.length) 1
  | _, .number _ _ => 0

/-- The strength after the comparison is counted. -/
def Test.compared (test : Test) (base : Int) : Int :=
  match test with
  | .number .equal _ | .text .equal _ => base + byteWorth
  | .number .less _ | .number .greater _ | .text .less _ | .text .greater _ => base - 2 * byteWorth
  | .number .allSet _ | .number .notAllSet _ => base - byteWorth
  | .number .notEqual _ | .number .any _ | .text .notEqual _ | .text .any _ => 0

/-- A strength after a declared adjustment. A division that has no result, or none that fits a signed
word, changes nothing. -/
def Adjustment.apply (adjustment : Adjustment) (strength : Int) : Int :=
  match adjustment with
  | .add n => Number.saturate (strength + n.toInt)
  | .sub n => Number.saturate (strength - n.toInt)
  | .mul n => Number.saturate (strength * n.toInt)
  | .div n =>
    let quotient := strength.tdiv n.toInt
    if n = 0 ∨ Number.signedLimit ≤ quotient then strength else quotient

/-- The strength of a type and test without any adjustment. -/
def plainStrength (type : ValueType) (test : Test) : Int :=
  Number.wrap (test.compared (2 * byteWorth + extent type test))

/-- The rank of an entry among top-level entries. -/
def Entry.strength (entry : Entry) : Int :=
  let plain := plainStrength entry.type entry.test
  max 1 (match entry.adjustment with
    | none => plain
    | some adjustment => adjustment.apply plain)

theorem Entry.one_le_strength (entry : Entry) : 1 ≤ entry.strength := Int.le_max_left _ _

end Hallmark.Signature
