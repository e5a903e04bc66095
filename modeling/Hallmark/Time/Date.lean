/-!
# `Hallmark/Time/Date.lean` — days of the calendar

The Gregorian calendar, extended to all years. A day has a number, counted from the first day of 1970.
Days are numbered within years that begin in March: the day that a leap year adds is then the last of
its year, and every month but the last has a length that does not depend on the year.
-/

set_option autoImplicit false

namespace Hallmark.Time

/-- A day: year, month from 1, day of the month from 1. -/
structure Date where
  year : Int
  month : Nat
  day : Nat
deriving DecidableEq, Repr

/-- Every fourth year is a leap year, except the hundredth, but not the four hundredth. -/
def isLeapYear (year : Int) : Bool :=
  year % 4 == 0 && (year % 100 != 0 || year % 400 == 0)

def daysInMonth (year : Int) (month : Nat) : Nat :=
  if month = 2 then (if isLeapYear year then 29 else 28)
  else if month = 4 ∨ month = 6 ∨ month = 9 ∨ month = 11 then 30
  else 31

namespace Date

def isValid (date : Date) : Bool :=
  decide (1 ≤ date.month ∧ date.month ≤ 12 ∧ 1 ≤ date.day ∧ date.day ≤ daysInMonth date.year date.month)

/-- The number of days from the first of March to the first of a month, given as a number of months
after March: the lengths 31, 30, 31, 30, 31 repeat every five months. -/
def daysBeforeMonth (monthsAfterMarch : Nat) : Nat := (153 * monthsAfterMarch + 2) / 5

/-- The number of a day, counted from 1970-01-01. The number 719468 is that of the first of March of
the year 0, counted back from there. -/
def toDayNumber (date : Date) : Int :=
  let year := if date.month ≤ 2 then date.year - 1 else date.year
  let monthsAfterMarch := (date.month + 9) % 12
  let dayOfYear := daysBeforeMonth monthsAfterMarch + date.day - 1
  365 * year + year / 4 - year / 100 + year / 400 + dayOfYear - 719468

/-- The day of a number. A cycle of 400 years has 146097 days; within it the days that leap years add
are taken out before dividing by 365. -/
def ofDayNumber (number : Int) : Date :=
  let fromMarch := number + 719468
  let cycle := fromMarch / 146097
  let dayOfCycle := (fromMarch % 146097).toNat
  let yearOfCycle :=
    (dayOfCycle - dayOfCycle / 1460 + dayOfCycle / 36524 - dayOfCycle / 146096) / 365
  let dayOfYear := dayOfCycle - (365 * yearOfCycle + yearOfCycle / 4 - yearOfCycle / 100)
  let monthsAfterMarch := (5 * dayOfYear + 2) / 153
  let month := if monthsAfterMarch < 10 then monthsAfterMarch + 3 else monthsAfterMarch - 9
  let year := cycle * 400 + yearOfCycle
  { year := if month ≤ 2 then year + 1 else year
    month := month
    day := dayOfYear - daysBeforeMonth monthsAfterMarch + 1 }

end Date

end Hallmark.Time
