/-!
# `Hallmark/Number/Digits.lean` — numbers written in a base

The digits of a number, most significant first and without leading zeros, in lower or upper case.
-/

set_option autoImplicit false

namespace Hallmark.Number

/-- The digits of a natural number, letters in lower case. -/
def digits (base n : Nat) : List Char := Nat.toDigits base n

/-- The digits of a natural number, letters in upper case. -/
def upperDigits (base n : Nat) : List Char := (digits base n).map Char.toUpper

/-- An integer in decimal, with a minus sign if it is negative. -/
def decimal : Int → List Char
  | .ofNat n => digits 10 n
  | .negSucc n => '-' :: digits 10 (n + 1)

def decimalText (n : Nat) : String := String.ofList (digits 10 n)

end Hallmark.Number
