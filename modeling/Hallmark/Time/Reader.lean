import Hallmark.Number.Literal
import Hallmark.Text.Blank
import Hallmark.Time.Timestamp

/-!
# `Hallmark/Time/Reader.lean` — reading times

A relaxed form of RFC 3339 is read: blanks may stand between the parts, a number may have fewer digits
than its place, and the offset from UTC is required but may be `Z`, `UTC`, or hours and minutes with or
without a colon. A signed year may have any number of digits. Fractions are read to nine digits; more
digits are skipped. Each step returns what is left of the text.
-/

set_option autoImplicit false

namespace Hallmark.Time.Reader

/-- The years that a day can have. -/
def minYear : Int := -262143
def maxYear : Int := 262142

/-- Drops one expected character. -/
def expect? (c : Char) : List Char → Option (List Char)
  | [] => none
  | d :: rest => if c = d then some rest else none

/-- Reads one to `width` digits: how many there were, their number, and the rest. -/
def digits? (width : Nat) (cs : List Char) : Option (Nat × Nat × List Char) :=
  let ds := (cs.take width).takeWhile Char.isDigit
  if ds.isEmpty then none
  else (Number.digits? 10 0 ds).map fun n => (ds.length, n, cs.drop ds.length)

/-- Reads a number of one to `width` digits that stands after blanks. -/
def number? (width : Nat) (cs : List Char) : Option (Nat × List Char) :=
  (digits? width (Text.trimStart cs)).map fun p => p.2

/-- Reads a number of one or two digits within bounds. -/
def bounded? (low high : Nat) (cs : List Char) : Option (Nat × List Char) :=
  match number? 2 cs with
  | some (n, rest) => if low ≤ n ∧ n ≤ high then some (n, rest) else none
  | none => none

/-- Reads a year: four digits at most, or a sign and any number of digits. -/
def year? (cs : List Char) : Option (Int × List Char) :=
  match Text.trimStart cs with
  | '-' :: rest => (digits? rest.length rest).map fun p => (-(Int.ofNat p.2.1), p.2.2)
  | '+' :: rest => (digits? rest.length rest).map fun p => (Int.ofNat p.2.1, p.2.2)
  | rest => (digits? 4 rest).map fun p => (Int.ofNat p.2.1, p.2.2)

/-- Reads a mark between two parts, with blanks around it. -/
def mark? (c : Char) (cs : List Char) : Option (List Char) :=
  (expect? c (Text.trimStart cs)).map Text.trimStart

/-- Reads a day that exists. -/
def date? (cs : List Char) : Option (Date × List Char) := do
  let (year, cs) ← year? cs
  let cs ← mark? '-' cs
  let (month, cs) ← bounded? 1 12 cs
  let cs ← mark? '-' cs
  let (day, cs) ← bounded? 1 31 cs
  let date : Date := ⟨year, month, day⟩
  if date.isValid ∧ minYear ≤ year ∧ year ≤ maxYear then some (date, cs) else none

/-- Reads the fraction of a second, as nanoseconds; there need not be one. -/
def fraction? : List Char → Option (Nat × List Char)
  | '.' :: rest =>
    (digits? 9 rest).map fun p => (p.2.1 * Nat.pow 10 (9 - p.1), p.2.2.dropWhile Char.isDigit)
  | cs => some (0, cs)

/-- Reads a time of day: its second and the nanoseconds after it. The second 60 is the second before
it with a billion nanoseconds more. -/
def timeOfDay? (cs : List Char) : Option (Int × Nat × List Char) := do
  let (hour, cs) ← bounded? 0 23 cs
  let cs ← mark? ':' cs
  let (minute, cs) ← bounded? 0 59 cs
  let cs ← mark? ':' cs
  let (second, cs) ← bounded? 0 60 cs
  let (nanos, cs) ← fraction? cs
  let start : Int := Int.ofNat (hour * 3600 + minute * 60)
  if second = 60 then some (start + 59, nanos + nanosPerSecond, cs)
  else some (start + Int.ofNat second, nanos, cs)

/-- The number of two characters that are digits. -/
def pair? (a b : Char) : Option Nat :=
  if a.isDigit && b.isDigit then Number.digits? 10 0 [a, b] else none

/-- Reads hours and minutes of an offset, as seconds. -/
def hoursMinutes? : List Char → Option (Int × List Char)
  | a :: b :: rest => do
    let hours ← pair? a b
    match rest.dropWhile fun c => c == ':' || Text.isBlank c with
    | c :: d :: rest =>
      let minutes ← pair? c d
      if minutes < 60 then some (Int.ofNat (hours * 3600 + minutes * 60), rest) else none
    | _ => none
  | _ => none

/-- Reads an offset from UTC, in seconds. -/
def offset? (cs : List Char) : Option (Int × List Char) :=
  match cs with
  | 'Z' :: rest | 'z' :: rest => some (0, rest)
  | '+' :: rest => hoursMinutes? rest
  | '-' :: rest | '\u2212' :: rest => (hoursMinutes? rest).map fun p => (-p.1, p.2)
  | u :: t :: c :: rest =>
    if [u, t, c].map Char.toUpper = ['U', 'T', 'C'] then some (0, rest) else none
  | _ => none

/-- The mark between day and time of day. -/
def separator? : List Char → Option (List Char)
  | 'T' :: rest | 't' :: rest | ' ' :: rest => some rest
  | _ => none

/-- The years that a day of a time in UTC can have. -/
def isInRange (time : Timestamp) : Bool :=
  let year := (Date.ofDayNumber (time.seconds / secondsPerDay)).year
  decide (minYear ≤ year ∧ year ≤ maxYear)

end Reader

/-- The time that a text is; `none` if it is none. -/
def Timestamp.ofChars? (cs : List Char) : Option Timestamp := do
  let (date, cs) ← Reader.date? cs
  let cs ← Reader.separator? cs
  let (second, nanos, cs) ← Reader.timeOfDay? cs
  let (offset, cs) ← Reader.offset? (Text.trimStart cs)
  -- The offset can carry a day past the last year, so the year is looked at once more.
  let time : Timestamp := ⟨date.toDayNumber * secondsPerDay + second - offset, nanos⟩
  if (Text.trimStart cs).isEmpty ∧ offset.natAbs < 86400 ∧ Reader.isInRange time then some time
  else none

/-- The time that a string is; `none` if it is none. -/
def Timestamp.ofText? (s : String) : Option Timestamp := Timestamp.ofChars? s.toList

end Hallmark.Time
