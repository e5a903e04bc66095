import Mathlib.Algebra.Group.Nat.Even
import Hallmark.Signature.Strength

/-!
# `Hallmark/Proofs/Signature/Strength.lean` — strengths in unbounded integers

Strengths are counted in words that wrap, and adjusted in words that saturate. For an entry whose pattern is
shorter than any memory holds, neither matters: its strength is the integer that the rules give
(`exactStrength`, `AdjustmentOp.on`), moved into the range of strengths once, at the very end (`confined`).
The words never wrap because no rule leads below zero (`exactStrength_nonneg`), and saturating before the
last step loses nothing because that step cuts further (`confined_saturate`). What adjustments and
comparisons do to the rank of an entry is read off the integers. Main statement: `strength_exact`.
-/

set_option autoImplicit false

namespace Hallmark.Signature

/-! ## The rules -/

/-- What the bytes that an entry fixes are worth: ten for each byte of a number or of a pattern in its
place. The bytes of a pattern that is looked for share ten, but have at least one each. -/
def fixedWorth (type : ValueType) (test : Test) : Nat :=
  match type, test with
  | .number format, _ => 10 * format.width
  | .text _, .text _ pattern => 10 * pattern.length
  | .search _ _, .text _ pattern => pattern.length * max (10 / pattern.length) 1
  | .text _, .number _ _ | .search _ _, .number _ _ => 0

/-- How much a comparison leaves of the strength. Nothing is left of what nearly everything passes. -/
inductive Grade where
  | lax
  | ordered
  | bits
  | equal
deriving DecidableEq, Repr

/-- The place of a grade, the weakest first. -/
def Grade.place : Grade → Nat
  | .lax => 0
  | .ordered => 1
  | .bits => 2
  | .equal => 3

def Test.grade : Test → Grade
  | .number .equal _ | .text .equal _ => .equal
  | .number .allSet _ | .number .notAllSet _ => .bits
  | .number .less _ | .number .greater _ | .text .less _ | .text .greater _ => .ordered
  | .number .notEqual _ | .number .any _ | .text .notEqual _ | .text .any _ => .lax

def Grade.of (grade : Grade) (base : Int) : Int :=
  match grade with
  | .equal => base + 10
  | .bits => base - 10
  | .ordered => base - 20
  | .lax => 0

/-- The strength of a type and a test, in unbounded integers. -/
def exactStrength (type : ValueType) (test : Test) : Int :=
  test.grade.of (20 + fixedWorth type test)

/-- The four ways to adjust a strength. -/
inductive AdjustmentOp where
  | add
  | sub
  | mul
  | div
deriving DecidableEq, Repr

/-- The adjusted strength, in unbounded integers. Division goes towards zero, and by zero changes
nothing. -/
def AdjustmentOp.on (op : AdjustmentOp) (strength amount : Int) : Int :=
  match op with
  | .add => strength + amount
  | .sub => strength - amount
  | .mul => strength * amount
  | .div => if amount = 0 then strength else strength.tdiv amount

namespace Adjustment

def op : Adjustment → AdjustmentOp
  | .add _ => .add
  | .sub _ => .sub
  | .mul _ => .mul
  | .div _ => .div

def amount : Adjustment → Int64
  | .add n | .sub n | .mul n | .div n => n

/-- A strength after the adjustment that is declared, if one is. -/
def exact (adjustment : Option Adjustment) (strength : Int) : Int :=
  match adjustment with
  | none => strength
  | some adjustment => adjustment.op.on strength adjustment.amount.toInt

end Adjustment

/-- The entry with another adjustment, or with none. -/
def Entry.adjusted (entry : Entry) (adjustment : Option Adjustment) : Entry :=
  { entry with adjustment := adjustment }

/-- The entry with another test, and without an adjustment. -/
def Entry.testing (entry : Entry) (test : Test) : Entry :=
  { entry with test := test, adjustment := none }

/-- The nearest strength: strengths begin at one and fit a signed word. -/
def confined (n : Int) : Int := max 1 (min (Number.signedLimit - 1) n)

/-- A pattern that a memory can hold, or none. -/
def Test.IsShort : Test → Prop
  | .number _ _ => True
  | .text _ pattern => pattern.length < 2 ^ 59

/-- Numbers are read from one, two, four or eight bytes. -/
def ValueType.HasWidth : ValueType → Prop
  | .number format => format.width = 1 ∨ format.width = 2 ∨ format.width = 4 ∨ format.width = 8
  | .text _ | .search _ _ => True

/-! ## Nothing wraps -/

section Words

variable {type : ValueType} {test : Test}

theorem extent_eq_fixedWorth (type : ValueType) (test : Test) : extent type test = fixedWorth type test := by
  cases type <;> cases test <;> simp [extent, fixedWorth, byteWorth, Nat.mul_comm]

theorem compared_eq_grade (test : Test) (base : Int) : test.compared base = test.grade.of base := by
  cases test with
  | number op value => cases op <;> rfl
  | text op pattern => cases op <;> rfl

/-- A pattern is worth no more than ten for each byte. -/
theorem fixedWorth_le (hshort : test.IsShort) (hwidth : type.HasWidth) :
    fixedWorth type test ≤ 10 * 2 ^ 59 := by
  have hshared : ∀ count, count * max (10 / count) 1 ≤ 10 * count := by
    intro count
    have hshare := Nat.div_le_self 10 count
    rw [Nat.mul_comm 10]
    exact Nat.mul_le_mul_left count (by omega)
  cases type with
  | number format =>
    rw [fixedWorth]
    simp only [ValueType.HasWidth] at hwidth
    omega
  | text flags =>
    cases test with
    | number => exact Nat.zero_le _
    | text op pattern => exact Nat.mul_le_mul_left 10 (Nat.le_of_lt hshort)
  | search range flags =>
    cases test with
    | number => exact Nat.zero_le _
    | text op pattern =>
      exact Nat.le_trans (hshared pattern.length) (Nat.mul_le_mul_left 10 (Nat.le_of_lt hshort))

/-- What is counted at first pays for every comparison. -/
theorem exactStrength_nonneg (type : ValueType) (test : Test) : 0 ≤ exactStrength type test := by
  unfold exactStrength Grade.of
  split <;> omega

theorem exactStrength_lt (hshort : test.IsShort) (hwidth : type.HasWidth) :
    exactStrength type test < Number.signedLimit := by
  have hworth := fixedWorth_le hshort hwidth
  unfold exactStrength Grade.of Number.signedLimit
  split <;> omega

/-- Whatever is counted, a signed word holds it. -/
theorem plainStrength_lt (type : ValueType) (test : Test) :
    plainStrength type test < Number.signedLimit :=
  Int.bmod_lt (show 0 < Number.wordLimit by decide)

/-- **Without an adjustment, the strength that is counted is the exact one.** -/
theorem plainStrength_eq (hshort : test.IsShort) (hwidth : type.HasWidth) :
    plainStrength type test = exactStrength type test := by
  have hnonneg := exactStrength_nonneg type test
  have hlt := exactStrength_lt hshort hwidth
  have hcounted : test.compared (2 * byteWorth + extent type test) = exactStrength type test := by
    rw [compared_eq_grade, extent_eq_fixedWorth]
    rfl
  rw [plainStrength, hcounted]
  refine Number.wrap_eq_self ?_ hlt
  unfold Number.signedLimit
  omega

end Words

/-! ## Saturating loses nothing -/

section Range

variable {m n : Int}

/-- What is cut to a signed word first is cut further by the range of strengths. -/
theorem confined_saturate (n : Int) : max 1 (Number.saturate n) = confined n := by
  unfold Number.saturate confined Number.signedLimit
  omega

theorem confined_of_lt (h : n < Number.signedLimit) : confined n = max 1 n := by
  unfold confined
  omega

theorem confined_mono (h : m ≤ n) : confined m ≤ confined n := by
  unfold confined
  omega

end Range

theorem tdiv_lt {strength amount : Int} (hnonneg : 0 ≤ strength) (hlt : strength < Number.signedLimit) :
    strength.tdiv amount < Number.signedLimit :=
  Int.lt_of_le_of_lt (Int.tdiv_le_self amount hnonneg) hlt

/-- An adjustment gives the exact result, as far as it is a strength, if a quotient fits a signed word. -/
theorem Adjustment.max_apply {strength : Int} (hlt : strength < Number.signedLimit)
    (adjustment : Adjustment)
    (hquotient : strength.tdiv adjustment.amount.toInt < Number.signedLimit) :
    max 1 (adjustment.apply strength) =
      confined (adjustment.op.on strength adjustment.amount.toInt) := by
  cases adjustment with
  | add n => exact confined_saturate _
  | sub n => exact confined_saturate _
  | mul n => exact confined_saturate _
  | div n =>
    rw [amount] at hquotient
    have hzero : n = 0 ↔ n.toInt = 0 := Int64.toInt_inj.symm
    have hfits : ¬ Number.signedLimit ≤ strength.tdiv n.toInt := Int.not_le.2 hquotient
    by_cases h : n.toInt = 0
    · simp [apply, op, amount, AdjustmentOp.on, hzero.2 h, confined_of_lt hlt]
    · simp [apply, op, amount, AdjustmentOp.on, hzero, h, hfits, confined_of_lt hquotient]

/-! ## Strengths of entries -/

section Entries

variable {entry : Entry}

/-- **The strength of an entry is the exact one, as far as it is a strength.** -/
theorem Entry.strength_eq (hshort : entry.test.IsShort) (hwidth : entry.type.HasWidth) :
    entry.strength =
      confined (Adjustment.exact entry.adjustment (exactStrength entry.type entry.test)) := by
  have hnonneg := exactStrength_nonneg entry.type entry.test
  have hlt := exactStrength_lt hshort hwidth
  rw [Entry.strength, plainStrength_eq hshort hwidth]
  cases entry.adjustment with
  | none => exact (confined_of_lt hlt).symm
  | some adjustment => exact adjustment.max_apply hlt (tdiv_lt hnonneg hlt)

/-- A comparison of a lower grade leaves no more, unless it is lax of bytes that are worth more. -/
theorem Grade.of_le_of {low high : Grade} {worth more : Nat} (hplace : low.place ≤ high.place)
    (hworth : low = .lax ∨ worth ≤ more) : low.of (20 + worth) ≤ high.of (20 + more) := by
  cases low with
  | lax => cases high <;> simp only [Grade.of] <;> omega
  | ordered | bits | equal =>
    have hle := hworth.resolve_left Grade.noConfusion
    cases high <;> simp only [Grade.of, Grade.place] at hplace ⊢ <;> omega

/-- The exact result of an adjustment by an amount that is not negative. -/
theorem AdjustmentOp.on_bounds {strength amount : Int} (hstrength : 0 ≤ strength) (hamount : 0 ≤ amount)
    (op : AdjustmentOp) :
    (op = .add ∨ op = .mul ∧ 1 ≤ amount → strength ≤ op.on strength amount) ∧
    (op = .sub ∨ op = .div → op.on strength amount ≤ strength) := by
  cases op with
  | add => exact ⟨fun _ => Int.le_add_of_nonneg_right hamount, by simp⟩
  | sub => exact ⟨by simp, fun _ => Int.sub_le_self strength hamount⟩
  | mul =>
    refine ⟨?_, by simp⟩
    rintro (h | ⟨-, hone⟩)
    · cases h
    · have hle := Int.mul_le_mul_of_nonneg_left hone hstrength
      rwa [Int.mul_one] at hle
  | div =>
    refine ⟨by simp, fun _ => ?_⟩
    rw [on]
    split
    · exact Int.le_refl _
    · exact Int.tdiv_le_self amount hstrength

/-- **Strengths are exact.** The strength of an entry is the integer that its type, its test and its
adjustment give, cut to the range of strengths at the very end. Adding and multiplying therefore never
make an entry weaker, and subtracting and dividing never stronger; and of two tests that fix bytes of one
worth, the one of the lower grade is never the stronger. -/
theorem strength_exact {entry : Entry} (hshort : entry.test.IsShort) (hwidth : entry.type.HasWidth) :
    entry.strength =
      confined (Adjustment.exact entry.adjustment (exactStrength entry.type entry.test)) ∧
    (∀ adjustment : Adjustment, 0 ≤ adjustment.amount.toInt →
      (adjustment.op = .add ∨ adjustment.op = .mul ∧ 1 ≤ adjustment.amount.toInt →
        (entry.adjusted none).strength ≤ (entry.adjusted (some adjustment)).strength) ∧
      (adjustment.op = .sub ∨ adjustment.op = .div →
        (entry.adjusted (some adjustment)).strength ≤ (entry.adjusted none).strength)) ∧
    ∀ test : Test, test.IsShort → test.grade.place ≤ entry.test.grade.place →
      (test.grade = .lax ∨ fixedWorth entry.type test ≤ fixedWorth entry.type entry.test) →
        (entry.testing test).strength ≤ (entry.testing entry.test).strength := by
  have hadjusted : ∀ adjustment, (entry.adjusted adjustment).strength =
      confined (Adjustment.exact adjustment (exactStrength entry.type entry.test)) :=
    fun _ => Entry.strength_eq hshort hwidth
  refine ⟨Entry.strength_eq hshort hwidth, ?_, ?_⟩
  · intro adjustment hamount
    have hnonneg := exactStrength_nonneg entry.type entry.test
    obtain ⟨hup, hdown⟩ := adjustment.op.on_bounds hnonneg hamount
    rw [hadjusted, hadjusted]
    exact ⟨fun h => confined_mono (hup h), fun h => confined_mono (hdown h)⟩
  · intro test htest hplace hworth
    have htesting : ∀ test : Test, test.IsShort →
        (entry.testing test).strength = confined (exactStrength entry.type test) :=
      fun _ hshort => Entry.strength_eq hshort hwidth
    have hweak := htesting test htest
    have hstrong := htesting entry.test hshort
    rw [hweak, hstrong]
    exact confined_mono (Grade.of_le_of hplace hworth)

/-- A number is tested with a pattern, and the least of all amounts is subtracted, which no signed word can
be negated to. A test for order of the same pattern is weaker, and dividing by three makes the entry so. -/
theorem strength_exact_mismatched :
    ∃ entry : Entry, entry.type = .number ⟨4, .big, true, none⟩ ∧
      entry.test = .text .equal [0x41, 0x42] ∧
      entry.adjustment = some (.sub Int64.minValue) ∧ entry.test.IsShort ∧ entry.type.HasWidth ∧
      exactStrength entry.type entry.test = 70 ∧ entry.strength = 9223372036854775807 ∧
      (entry.adjusted (some (.div 3))).strength ≤ (entry.adjusted none).strength ∧
      (entry.testing (.text .less [0x41, 0x42])).strength ≤ (entry.testing entry.test).strength := by
  let entry : Entry :=
    { level := 0, line := 1, offset := .absolute 0, type := .number ⟨4, .big, true, none⟩,
      test := .text .equal [0x41, 0x42], message := "", mime := none,
      adjustment := some (.sub Int64.minValue) }
  have hshort : entry.test.IsShort := show 2 < 2 ^ 59 by decide
  have hwidth : entry.type.HasWidth := .inr (.inr (.inl rfl))
  obtain ⟨hstrength, hamounts, htests⟩ := strength_exact hshort hwidth
  refine ⟨entry, rfl, rfl, rfl, hshort, hwidth, by decide, ?_, ?_, ?_⟩
  · rw [hstrength]
    decide
  · exact (hamounts (.div 3) (by decide)).2 (.inr rfl)
  · exact htests (.text .less [0x41, 0x42]) (show 2 < 2 ^ 59 by decide) (by decide)
      (.inr (Nat.le_refl _))

end Entries

end Hallmark.Signature
