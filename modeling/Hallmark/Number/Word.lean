/-!
# `Hallmark/Number/Word.lean` — the integers that words stand for

A value read from a buffer is a word of some bytes. Its bytes give a natural number in either byte
order; the same word stands for a second integer, its two's complement (`signed`). An integer that does
not fit a signed word of 64 bits either wraps around (`wrap`) or stops at the nearest end (`saturate`).
Main statements: either leaves an integer that fits as it is (`wrap_eq_self`, `saturate_eq_self`).
-/

set_option autoImplicit false

namespace Hallmark.Number

/-- Words of 64 bits hold the numbers below this one, the 64th power of two. -/
def wordLimit : Nat := 18446744073709551616

/-- Signed words of 64 bits hold the integers below this one, the 63rd power of two, and not below its
negation. -/
def signedLimit : Int := 9223372036854775808

/-- The number that bytes stand for, most significant byte first. -/
def ofBigEndian (bytes : List UInt8) : Nat :=
  bytes.foldl (fun acc b => acc * 256 + b.toNat) 0

/-- The number that bytes stand for, least significant byte first. -/
def ofLittleEndian (bytes : List UInt8) : Nat := ofBigEndian bytes.reverse

/-- The low `width` bytes of a word, read as two's complement. A width of zero or of eight bytes and
more takes the whole word. -/
def signed (word : UInt64) (width : Nat) : Int :=
  if width = 0 ∨ 8 ≤ width then word.toInt64.toInt
  else (word.toNat : Int).bmod (Nat.pow 256 width)

/-- The low `width` bytes of a word. -/
def truncate (word : UInt64) (width : Nat) : UInt64 :=
  if 8 ≤ width then word else UInt64.ofNat (word.toNat % Nat.pow 256 width)

/-- The integer that fits a signed 64-bit word and differs by a multiple of the word limit. -/
def wrap (n : Int) : Int := n.bmod wordLimit

theorem wrap_eq_self {n : Int} (hl : -signedLimit ≤ n) (hu : n < signedLimit) : wrap n = n := by
  unfold signedLimit at hl hu
  apply Int.bmod_eq_of_le_mul_two <;> simp only [wordLimit] <;> omega

/-- The nearest integer that fits a signed 64-bit word. -/
def saturate (n : Int) : Int := max (-signedLimit) (min (signedLimit - 1) n)

theorem saturate_eq_self {n : Int} (hl : -signedLimit ≤ n) (hu : n < signedLimit) :
    saturate n = n := by
  unfold saturate
  omega

end Hallmark.Number
