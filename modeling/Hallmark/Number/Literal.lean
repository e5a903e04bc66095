import Hallmark.Number.Word

/-!
# `Hallmark/Number/Literal.lean` — number literals of a signature database

A literal is one optional sign and a body: `0x` or `0X` before hexadecimal digits, `0` before octal
digits, or decimal digits. The digits themselves may start with one more plus sign, also after the
base. The magnitude must be below 2^64; after a minus sign the value is its two's complement in 64
bits, so every literal denotes a 64-bit word.
-/

set_option autoImplicit false

namespace Hallmark.Number

/-- The value of a digit: `0` to `9`, then letters of either case, below `base`. -/
def digit? (base : Nat) (c : Char) : Option Nat :=
  let n := c.toNat
  let v :=
    if 0x30 ≤ n ∧ n ≤ 0x39 then n - 0x30
    else if 0x61 ≤ n ∧ n ≤ 0x7A then n - 0x61 + 10
    else if 0x41 ≤ n ∧ n ≤ 0x5A then n - 0x41 + 10
    else base
  if v < base then some v else none

/-- The value of a run of digits after a value `acc`; `none` if one of them is no digit. -/
def digits? (base : Nat) (acc : Nat) : List Char → Option Nat
  | [] => some acc
  | c :: cs =>
    match digit? base c with
    | some d => digits? base (acc * base + d) cs
    | none => none

/-- One or more digits, the value of which fits a 64-bit word. -/
def natural? (base : Nat) : List Char → Option UInt64
  | [] => none
  | c :: cs =>
    match digits? base 0 (c :: cs) with
    | some n => if n < wordLimit then some (UInt64.ofNat n) else none
    | none => none

/-- Digits that may start with a plus sign. -/
def magnitude? (base : Nat) : List Char → Option UInt64
  | '+' :: cs => natural? base cs
  | cs => natural? base cs

/-- A literal without its sign: the first characters choose the base. -/
def unsigned? : List Char → Option UInt64
  | '0' :: 'x' :: cs => magnitude? 16 cs
  | '0' :: 'X' :: cs => magnitude? 16 cs
  | '0' :: c :: cs => magnitude? 8 (c :: cs)
  | cs => magnitude? 10 cs

/-- The word that a literal denotes; `none` if the text is no literal. -/
def literal? : List Char → Option UInt64
  | '-' :: cs => (unsigned? cs).map fun n => 0 - n
  | '+' :: cs => unsigned? cs
  | cs => unsigned? cs

end Hallmark.Number
