import Hallmark.Number.Digits
import Hallmark.Time.Date

/-!
# `Hallmark/Time/Timestamp.lean` — points in time and how they are written

A point in time is a number of seconds since the start of 1970 and the nanoseconds after them. A leap
second is the second before it with a billion nanoseconds more. Times are written as RFC 3339 has it,
in UTC, with as few of 0, 3, 6 or 9 digits of the fraction as are exact.
-/

set_option autoImplicit false

namespace Hallmark.Time

def nanosPerSecond : Nat := 1000000000

def secondsPerDay : Int := 86400

structure Timestamp where
  /-- Whole seconds since the start of 1970. -/
  seconds : Int
  /-- Nanoseconds after them; a billion and more in a leap second. -/
  nanos : Nat := 0
deriving DecidableEq, Repr, Inhabited

/-- A number with leading zeros up to a width. -/
def padded (width n : Nat) : List Char :=
  let ds := Number.digits 10 n
  List.replicate (width - ds.length) '0' ++ ds

namespace Timestamp

/-- The years of four digits stand alone; all others have a sign and at least four digits. -/
def yearChars (year : Int) : List Char :=
  if 0 ≤ year ∧ year ≤ 9999 then padded 4 year.toNat
  else (if year < 0 then '-' else '+') :: padded 4 year.natAbs

/-- The fraction of a second, in thousandths, millionths or billionths. -/
def fractionChars (nanos : Nat) : List Char :=
  if nanos = 0 then []
  else if nanos % 1000000 = 0 then '.' :: padded 3 (nanos / 1000000)
  else if nanos % 1000 = 0 then '.' :: padded 6 (nanos / 1000)
  else '.' :: padded 9 nanos

def toChars (time : Timestamp) : List Char :=
  let date := Date.ofDayNumber (time.seconds / secondsPerDay)
  let second := (time.seconds % secondsPerDay).toNat
  let leap := time.nanos / nanosPerSecond
  yearChars date.year ++ '-' :: padded 2 date.month ++ '-' :: padded 2 date.day ++
    'T' :: padded 2 (second / 3600) ++ ':' :: padded 2 (second / 60 % 60) ++
    ':' :: padded 2 (second % 60 + leap) ++ fractionChars (time.nanos % nanosPerSecond) ++ ['Z']

def toText (time : Timestamp) : String := String.ofList time.toChars

end Timestamp

end Hallmark.Time
