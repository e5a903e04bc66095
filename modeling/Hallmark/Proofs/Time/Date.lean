import Hallmark.Time.Date

/-!
# `Hallmark/Proofs/Time/Date.lean` — a day and its number

Years are counted from March here, in cycles of four hundred. Within a cycle the year of a day is found
by division once the leap days before it are taken out (`year_of_daysBeforeYear`), and within a year its
month, because no month is longer than the distance to the next one (`daysBeforeMonth_add_le`). So a
valid day is got back from its number: `ofDayNumber_toDayNumber`.
-/

set_option autoImplicit false

namespace Hallmark.Time.Date

variable {date : Date}

/-! ## Years that begin in March -/

/-- The year of a day, if years begin in March. -/
def marchYear (date : Date) : Int := if date.month ≤ 2 then date.year - 1 else date.year

/-- How many days after the first of March a day comes. -/
def daysAfterMarch (date : Date) : Nat := daysBeforeMonth ((date.month + 9) % 12) + date.day - 1

/-- The day that comes some days after the first of March. -/
def ofMarch (year : Int) (days : Nat) : Date :=
  let months := (5 * days + 2) / 153
  let month := if months < 10 then months + 3 else months - 9
  { year := if month ≤ 2 then year + 1 else year
    month := month
    day := days - daysBeforeMonth months + 1 }

theorem isValid_iff : date.isValid ↔ (1 ≤ date.month ∧ date.month ≤ 12) ∧ 1 ≤ date.day ∧
    date.day ≤ daysInMonth date.year date.month := by
  rw [isValid, decide_eq_true_iff, and_assoc]

/-- No month is longer than in a leap year, such as the year 0. -/
theorem daysInMonth_le (year : Int) (month : Nat) : daysInMonth year month ≤ daysInMonth 0 month := by
  unfold daysInMonth
  by_cases hfebruary : month = 2
  · rw [if_pos hfebruary, if_pos hfebruary]
    cases isLeapYear year <;> decide
  · exact Nat.le_of_eq (by rw [if_neg hfebruary, if_neg hfebruary])

/-- No month is longer than the distance to the next one. -/
theorem daysBeforeMonth_add_le (h : date.isValid) :
    daysBeforeMonth ((date.month + 9) % 12) + date.day ≤
      daysBeforeMonth ((date.month + 9) % 12 + 1) := by
  obtain ⟨hmonth, -, hday⟩ := isValid_iff.1 h
  have hlengths : ∀ month < 13, 1 ≤ month → daysBeforeMonth ((month + 9) % 12) + daysInMonth 0 month ≤
      daysBeforeMonth ((month + 9) % 12 + 1) := by decide
  have hnext := hlengths date.month (Nat.lt_succ_of_le hmonth.2) hmonth.1
  have hleap := daysInMonth_le date.year date.month
  omega

theorem ofMarch_daysAfterMarch (h : date.isValid) : ofMarch date.marchYear date.daysAfterMarch = date := by
  obtain ⟨hmonth, hday, -⟩ := isValid_iff.1 h
  have hnext := daysBeforeMonth_add_le h
  obtain ⟨year, month, day⟩ := date
  simp only at hmonth hday hnext
  have hmonths : (5 * (daysBeforeMonth ((month + 9) % 12) + day - 1) + 2) / 153 = (month + 9) % 12 := by
    unfold daysBeforeMonth at *
    omega
  have hmonthBack :
      (if (month + 9) % 12 < 10 then (month + 9) % 12 + 3 else (month + 9) % 12 - 9) = month := by
    split <;> omega
  simp only [ofMarch, daysAfterMarch, marchYear, hmonths, hmonthBack, mk.injEq, true_and]
  constructor
  · split <;> omega
  · omega

/-- Nothing but the leap day comes after the 365th day of a year. -/
theorem daysAfterMarch_lt_or (h : date.isValid) :
    date.daysAfterMarch < 365 ∨ date.daysAfterMarch = 365 ∧ isLeapYear (date.marchYear + 1) := by
  obtain ⟨hmonth, hpositive, hday⟩ := isValid_iff.1 h
  have hnext := daysBeforeMonth_add_le h
  obtain ⟨year, month, day⟩ := date
  simp only at hmonth hpositive hday hnext
  simp only [daysAfterMarch, marchYear]
  by_cases hfebruary : month = 2
  · subst hfebruary
    have hbefore : daysBeforeMonth ((2 + 9) % 12) = 337 := rfl
    rw [if_pos (Nat.le_refl 2), Int.sub_add_cancel]
    cases hleap : isLeapYear year with
    | true =>
      rw [daysInMonth, if_pos rfl, if_pos hleap] at hday
      simp only [and_true]
      omega
    | false =>
      rw [daysInMonth, if_pos rfl, if_neg (by simp [hleap])] at hday
      omega
  · unfold daysBeforeMonth at *
    omega

/-! ## Years of a cycle -/

/-- The days of a cycle before one of its years. -/
def daysBeforeYear (year : Nat) : Nat := 365 * year + year / 4 - year / 100

/-- The year that a day of a cycle lies in. Only a year that ends in a leap day has one more than 365. -/
theorem year_of_daysBeforeYear {cycle : Int} {year day n : Nat} (hyear : year < 400)
    (hday : day < 365 ∨ day = 365 ∧ isLeapYear (400 * cycle + year + 1))
    (hn : daysBeforeYear year + day = n) :
    (n - n / 1460 + n / 36524 - n / 146096) / 365 = year := by
  simp only [isLeapYear, Bool.and_eq_true, Bool.or_eq_true, beq_iff_eq, bne_iff_ne] at hday
  obtain ⟨century, four, rest, rfl, hcentury, hfour, hrest⟩ :
      ∃ century four rest, year = 100 * century + 4 * four + rest ∧ century < 4 ∧ four < 25 ∧ rest < 4 :=
    ⟨year / 100, year % 100 / 4, year % 4, by omega, by omega, by omega, by omega⟩
  have hsum : 36524 * century + 1461 * four + 365 * rest + day = n := by
    unfold daysBeforeYear at hn
    omega
  -- Only the last day of the cycle comes after four whole centuries.
  have hwithin : n < 36524 * (century + 1) ∨ n = 146096 ∧ century = 3 := by
    rcases hday with hday | ⟨rfl, hleap, hhundred⟩
    · omega
    · obtain rfl : rest = 3 := by omega
      omega
  have hcenturies : n / 36524 = century + n / 146096 := by
    rcases hwithin with h | ⟨rfl, rfl⟩
    · have hquotient : n / 36524 = century := Nat.div_eq_of_lt_le (by omega) (by omega)
      rw [hquotient, Nat.div_eq_of_lt (by omega), Nat.add_zero]
    · rfl
  -- A leap day is taken out one day before the four years that it ends are over.
  have hleaps : n / 1460 = 25 * century + four ∧ day < 365 ∨
      n / 1460 = 25 * century + four + 1 ∧ 0 < day := by
    omega
  omega

/-! ## Days -/

variable {cycle number : Int} {year days : Nat}

/-- A number counts the days of the cycles, years and months before a day. -/
theorem toDayNumber_eq (hmarch : date.marchYear = 400 * cycle + year) (hyear : year < 400) :
    date.toDayNumber = 146097 * cycle + (daysBeforeYear year + date.daysAfterMarch : Nat) - 719468 := by
  have hfour : date.marchYear / 4 = 100 * cycle + (year / 4 : Nat) := by omega
  have hhundred : date.marchYear / 100 = 4 * cycle + (year / 100 : Nat) := by omega
  have hwhole : date.marchYear / 400 = cycle := by omega
  have hnumber : date.toDayNumber = 365 * date.marchYear + date.marchYear / 4 - date.marchYear / 100 +
      date.marchYear / 400 + date.daysAfterMarch - 719468 := rfl
  rw [hnumber, hfour, hhundred, hwhole, hmarch, daysBeforeYear]
  omega

theorem ofDayNumber_eq (hyear : year < 400)
    (hdays : days < 365 ∨ days = 365 ∧ isLeapYear (400 * cycle + year + 1))
    (hnumber : number = 146097 * cycle + (daysBeforeYear year + days : Nat) - 719468) :
    ofDayNumber number = ofMarch (cycle * 400 + year) days := by
  obtain ⟨n, hn⟩ : ∃ n, daysBeforeYear year + days = n := ⟨_, rfl⟩
  rw [hn] at hnumber
  have hcycle : n < 146097 := by
    unfold daysBeforeYear at hn
    omega
  have hquotient : (number + 719468) / 146097 = cycle := by omega
  have hremainder : ((number + 719468) % 146097).toNat = n := by omega
  have hrest : n - (365 * year + year / 4 - year / 100) = days := by
    rw [← hn, daysBeforeYear, Nat.add_sub_cancel_left]
  simp only [ofDayNumber, hquotient, hremainder, year_of_daysBeforeYear hyear hdays hn, hrest]
  rfl

/-- **A valid day is got back from its number.** -/
theorem ofDayNumber_toDayNumber (h : date.isValid) : ofDayNumber date.toDayNumber = date := by
  obtain ⟨cycle, year, hmarch, hyear⟩ : ∃ (cycle : Int) (year : Nat),
      date.marchYear = 400 * cycle + year ∧ year < 400 :=
    ⟨date.marchYear / 400, (date.marchYear % 400).toNat, by omega, by omega⟩
  have hdays := daysAfterMarch_lt_or h
  rw [hmarch] at hdays
  rw [ofDayNumber_eq hyear hdays (toDayNumber_eq hmarch hyear), Int.mul_comm cycle, ← hmarch]
  exact ofMarch_daysAfterMarch h

/-- Days are counted from the first of January 1970. -/
example : toDayNumber ⟨1970, 1, 1⟩ = 0 := by decide

/-- The last day of February of a leap year, which a shorter count would miss. -/
example : ofDayNumber 11016 = ⟨2000, 2, 29⟩ := by decide

end Hallmark.Time.Date
