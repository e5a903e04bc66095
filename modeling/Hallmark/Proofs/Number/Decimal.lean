import Mathlib.Data.List.Basic
import Hallmark.Number.Digits
import Hallmark.Number.Literal

/-!
# `Hallmark/Proofs/Number/Decimal.lean` — numbers read back from their decimal digits

Digits give back their number in any base (`digits?_map_digits`). A literal that starts with a zero is
octal, and a sign in front of a literal is not one of its digits. Decimal digits are not taken for anything
else: only the number zero starts with a zero (`head?_digits_ne_zero`). Main statements: every 64-bit word
is read back from its digits (`literal?_digits`), and every signed word from its digits and sign
(`literal?_decimal`), which is where the two's complement after a minus sign is undone.
-/

set_option autoImplicit false

namespace Hallmark.Number

/-! ## Digits -/

theorem digits?_append (base acc : Nat) (before after : List Char) :
    digits? base acc (before ++ after) =
      (digits? base acc before).bind fun n => digits? base n after := by
  induction before generalizing acc with
  | nil => rfl
  | cons c cs ih =>
    rw [List.cons_append, digits?, digits?]
    cases digit? base c with
    | none => rfl
    | some d => exact ih _

theorem isSome_digit?_of_mem {base acc n : Nat} {ds : List Char} (h : digits? base acc ds = some n) :
    ∀ c ∈ ds, (digit? base c).isSome := by
  induction ds generalizing acc with
  | nil => exact nofun
  | cons c cs ih =>
    rw [digits?] at h
    cases hc : digit? base c with
    | none => simp [hc] at h
    | some d =>
      rw [hc] at h
      intro x hx
      cases List.mem_cons.1 hx with
      | inl hfirst => rw [hfirst, hc, Option.isSome_some]
      | inr hrest => exact ih h x hrest

theorem not_mem_of_digits? {base acc n : Nat} {c : Char} {ds : List Char} (hc : digit? base c = none)
    (h : digits? base acc ds = some n) : c ∉ ds := by
  intro hmem
  have hsome := isSome_digit?_of_mem h c hmem
  rw [hc] at hsome
  cases hsome

theorem digit?_ten_digitChar : ∀ d < 10, digit? 10 (Nat.digitChar d) = some d := by decide

theorem digit?_sixteen_digitChar : ∀ d < 16, digit? 16 (Nat.digitChar d) = some d := by decide

theorem digits_of_lt {base n : Nat} (h : n < base) : digits base n = [Nat.digitChar n] :=
  Nat.toDigits_of_lt_base h

theorem digits_of_le {base n : Nat} (hbase : 1 < base) (h : base ≤ n) :
    digits base n = digits base (n / base) ++ [Nat.digitChar (n % base)] :=
  Nat.toDigits_of_base_le hbase h

/-- A number is read back from its digits in any base, also if they are changed to others of the same
values. -/
theorem digits?_map_digits {base : Nat} (hbase : 1 < base) {change : Char → Char}
    (h : ∀ d < base, digit? base (change (Nat.digitChar d)) = some d) (n : Nat) :
    digits? base 0 ((digits base n).map change) = some n := by
  induction n using Nat.strongRecOn with
  | _ n ih =>
    by_cases hlt : n < base
    · rw [digits_of_lt hlt, List.map_singleton, digits?, h n hlt]
      simp [digits?]
    · have hlast : n % base < base := Nat.mod_lt _ (by omega)
      have hvalue : n / base * base + n % base = n := Nat.div_add_mod' n base
      have hle := Nat.le_of_not_lt hlt
      rw [digits_of_le hbase hle, List.map_append, digits?_append,
        ih (n / base) (Nat.div_lt_self (by omega) hbase), Option.bind_some, List.map_singleton, digits?,
        h _ hlast]
      simp only [digits?, hvalue]

theorem digits?_digits (n : Nat) : digits? 10 0 (digits 10 n) = some n := by
  simpa using digits?_map_digits (by decide) (show ∀ d < 10, digit? 10 (id (Nat.digitChar d)) = some d from
    digit?_ten_digitChar) n

theorem isDigit_of_mem_digits {n : Nat} {c : Char} (h : c ∈ digits 10 n) : c.isDigit = true :=
  Nat.isDigit_of_mem_toDigits (by decide) (by decide) h

/-- What is no digit does not stand in a number. -/
theorem not_mem_digits {c : Char} (n : Nat) (hc : c.isDigit = false) : c ∉ digits 10 n := by
  intro h
  have hdigit := isDigit_of_mem_digits h
  rw [hc] at hdigit
  cases hdigit

theorem digits_ne_nil (base n : Nat) : digits base n ≠ [] := Nat.toDigits_ne_nil

/-- No number but zero is written with a zero in front. -/
theorem head?_digits_ne_zero {n : Nat} (h : 0 < n) : (digits 10 n).head? ≠ some '0' := by
  induction n using Nat.strongRecOn with
  | _ n ih =>
    by_cases hlt : n < 10
    · rw [digits_of_lt hlt]
      simp only [List.head?_cons, ne_eq, Option.some.injEq, Nat.digitChar_eq_zero]
      omega
    · rw [digits_of_le (by decide) (Nat.le_of_not_lt hlt), List.head?_append_of_ne_nil _ (digits_ne_nil 10 _)]
      exact ih (n / 10) (by omega) (by omega)

/-! ## Literals -/

/-- What starts with a digit has no sign. -/
theorem literal?_of_isDigit {c : Char} (cs : List Char) (hc : c.isDigit = true) :
    literal? (c :: cs) = unsigned? (c :: cs) := by
  have hminus : c ≠ '-' := by rintro rfl; simp at hc
  have hplus : c ≠ '+' := by rintro rfl; simp at hc
  simp [literal?, hminus, hplus]

/-- What starts with another digit than zero is decimal. -/
theorem unsigned?_of_isDigit {c : Char} (cs : List Char) (hc : c.isDigit = true) (hzero : c ≠ '0') :
    unsigned? (c :: cs) = natural? 10 (c :: cs) := by
  have hplus : c ≠ '+' := by rintro rfl; simp at hc
  simp [unsigned?, magnitude?, hplus, hzero]

theorem unsigned?_digits {n : Nat} (h : n < wordLimit) :
    unsigned? (digits 10 n) = some (UInt64.ofNat n) := by
  rcases Nat.eq_zero_or_pos n with rfl | hpos
  · rfl
  · have hhead := head?_digits_ne_zero hpos
    have hvalue := digits?_digits n
    have hdigit := @isDigit_of_mem_digits n
    cases hcs : digits 10 n with
    | nil => exact absurd hcs (digits_ne_nil 10 n)
    | cons c cs =>
      rw [hcs] at hhead hvalue hdigit
      rw [unsigned?_of_isDigit cs (hdigit List.mem_cons_self) (by simpa using hhead), natural?, hvalue]
      simp [h]

theorem literal?_digits_of_lt {n : Nat} (h : n < wordLimit) :
    literal? (digits 10 n) = some (UInt64.ofNat n) := by
  rw [← unsigned?_digits h]
  have hdigit := @isDigit_of_mem_digits n
  cases hcs : digits 10 n with
  | nil => rfl
  | cons c cs => exact literal?_of_isDigit cs (hdigit (hcs ▸ List.mem_cons_self))

/-- **A word is read back from its decimal digits.** -/
theorem literal?_digits (n : UInt64) : literal? (digits 10 n.toNat) = some n := by
  rw [literal?_digits_of_lt n.toNat_lt, UInt64.ofNat_toNat]

/-- **A signed word is read back from its digits and sign.** -/
theorem literal?_decimal (n : Int64) : literal? (decimal n.toInt) = some n.toUInt64 := by
  have hlow := n.le_toInt
  have hhigh := n.toInt_lt
  cases h : n.toInt with
  | ofNat m =>
    have hm : m < wordLimit := by
      rw [h, Int.ofNat_eq_natCast] at hhigh
      simp only [wordLimit]
      omega
    rw [decimal, literal?_digits_of_lt hm, ← Int64.ofInt_toInt n, h]
    rfl
  | negSucc m =>
    have hm : m + 1 < wordLimit := by
      rw [h] at hlow
      simp only [wordLimit]
      omega
    have hneg : n = -Int64.ofNat (m + 1) := by
      rw [Int64.neg_ofNat, ← Int64.ofInt_toInt n, h]
      rfl
    rw [decimal, literal?, unsigned?_digits hm, hneg, Int64.toUInt64_neg, Int64.toUInt64_ofNat',
      Option.map_some, UInt64.zero_sub]

end Hallmark.Number
