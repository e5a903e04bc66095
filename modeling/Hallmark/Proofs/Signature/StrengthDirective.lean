import Hallmark.Proofs.Number.Spelling
import Hallmark.Proofs.Signature.Soundness
import Hallmark.Proofs.Signature.Strength

/-!
# `Hallmark/Proofs/Signature/StrengthDirective.lean` — adjustments that directives declare

A directive adjusts the strength of its entry by a literal without a sign. The literal is read as a word of
64 bits, and the word is taken as signed: an amount that fits a signed word adjusts the strength exactly,
and a greater one stands for a negative integer, so that what is to be added is subtracted
(`confined_on_excess_iff`). Main statement: `strength_declared`.
-/

set_option autoImplicit false

namespace Hallmark.Signature

/-! ## Amounts -/

/-- The operator character of a way to adjust a strength. -/
def AdjustmentOp.sign : AdjustmentOp → Char
  | .add => '+'
  | .sub => '-'
  | .mul => '*'
  | .div => '/'

def AdjustmentOp.adjustment (op : AdjustmentOp) (amount : Int64) : Adjustment :=
  match op with
  | .add => .add amount
  | .sub => .sub amount
  | .mul => .mul amount
  | .div => .div amount

section Amounts

variable {op : AdjustmentOp} {s amount : Int} {n : Nat}

@[simp] theorem AdjustmentOp.of?_sign (op : AdjustmentOp) (amount : Int64) :
    Adjustment.of? op.sign amount = some (op.adjustment amount) := by
  cases op <;> rfl

@[simp] theorem AdjustmentOp.op_adjustment (op : AdjustmentOp) (amount : Int64) :
    (op.adjustment amount).op = op := by
  cases op <;> rfl

@[simp] theorem AdjustmentOp.amount_adjustment (op : AdjustmentOp) (amount : Int64) :
    (op.adjustment amount).amount = amount := by
  cases op <;> rfl

/-- A directive that is read declares the magnitude that is written behind its operator. -/
theorem Adjustment.read_magnitude {number : Nat} {rest : List Char} {adjustment : Adjustment}
    (hn : Number.IsMagnitude (Text.trim rest) n)
    (h : Adjustment.read number (op.sign :: rest) = .ok adjustment) :
    ∃ word : UInt64, word.toNat = n ∧ adjustment = op.adjustment word.toInt64 := by
  obtain ⟨word, hword, h⟩ := bind_eq_ok_iff.1 h
  rw [AdjustmentOp.of?_sign] at h
  exact ⟨word, hn.toNat_eq (orElse_eq_ok_iff.1 hword), (Except.ok.inj h).symm⟩

/-- A word that is taken as signed is the same number, or less by the word limit. -/
theorem toInt_toInt64 (word : UInt64) :
    word.toInt64.toInt =
      if (word.toNat : Int) < Number.signedLimit then (word.toNat : Int)
      else word.toNat - Number.wordLimit := by
  have hsigned := Number.signed_eq (by decide) (Nat.le_refl 8) word.toNat_lt
  rw [Number.signed, if_pos (.inr (Nat.le_refl 8))] at hsigned
  rw [hsigned, Number.twosComplement]
  by_cases h : (word.toNat : Int) < Number.signedLimit
  · have hlow : 2 * word.toNat < 256 ^ 8 := by
      unfold Number.signedLimit at h
      omega
    rw [if_pos h, if_pos hlow]
  · have hhigh : ¬ 2 * word.toNat < 256 ^ 8 := by
      unfold Number.signedLimit at h
      omega
    rw [if_neg h, if_neg hhigh]
    rfl

theorem tdiv_natCast_lt (h : s < Number.signedLimit) (n : Nat) : s.tdiv n < Number.signedLimit := by
  by_cases hs : 0 ≤ s
  · exact tdiv_lt hs h
  · have hnonpos : -(s.tdiv n) = (-s).tdiv n := (Int.neg_tdiv s n).symm
    have hnonneg : 0 ≤ (-s).tdiv n := Int.tdiv_nonneg (by omega) (Int.natCast_nonneg n)
    unfold Number.signedLimit
    omega

/-- **An amount that no signed word holds is only by accident of any use**: the strength is the declared
one for a division, which leaves nothing, for the product with nothing, and where one is subtracted from
nothing instead of all. -/
theorem confined_on_excess_iff (hs : 0 ≤ s) (hlt : s < Number.signedLimit)
    (hexcess : Number.signedLimit ≤ n) (hn : n < Number.wordLimit) :
    confined (op.on s (n - Number.wordLimit)) = confined (op.on s n) ↔
      op = .div ∨ op = .mul ∧ s = 0 ∨ op = .sub ∧ s = 0 ∧ n = Number.wordLimit - 1 := by
  have hneg : (n - Number.wordLimit : Int) < 0 := by omega
  cases op with
  | add =>
    refine iff_of_false ?_ (by simp)
    simp only [AdjustmentOp.on, confined]
    unfold Number.signedLimit at *
    omega
  | sub =>
    simp only [AdjustmentOp.on, confined, reduceCtorEq, false_and, false_or, true_and]
    unfold Number.signedLimit at *
    omega
  | mul =>
    by_cases hzero : s = 0
    · simp [AdjustmentOp.on, hzero]
    · refine iff_of_false ?_ (by simp [hzero])
      have hlow : s * (n - Number.wordLimit) ≤ 0 :=
        Int.mul_nonpos_of_nonneg_of_nonpos hs (Int.le_of_lt hneg)
      have hhigh : 1 * (n : Int) ≤ s * n :=
        Int.mul_le_mul_of_nonneg_right (by omega) (Int.natCast_nonneg n)
      simp only [AdjustmentOp.on, confined]
      unfold Number.signedLimit at *
      omega
  | div =>
    refine iff_of_true ?_ (.inl rfl)
    have hlow : s.tdiv (n - Number.wordLimit) ≤ 0 :=
      Int.tdiv_nonpos_of_nonneg_of_nonpos hs (Int.le_of_lt hneg)
    have hzero : s.tdiv n = 0 := Int.tdiv_eq_zero_of_lt hs (Int.lt_of_lt_of_le hlt hexcess)
    have hdivisor : (n : Int) ≠ 0 := by
      unfold Number.signedLimit at hexcess
      omega
    simp only [AdjustmentOp.on, if_neg (Int.ne_of_lt hneg), if_neg hdivisor, hzero, confined]
    omega

end Amounts

/-! ## Directives -/

section Directives

variable {text : List Char} {database : Database} {entry : Entry}

/-- The strength that is adjusted. -/
def Entry.plain (entry : Entry) : Int := plainStrength entry.type entry.test

theorem Entry.plain_lt (entry : Entry) : entry.plain < Number.signedLimit :=
  plainStrength_lt entry.type entry.test

theorem Entry.strength_adjusted_none (entry : Entry) :
    (entry.adjusted none).strength = confined entry.plain :=
  (confined_of_lt entry.plain_lt).symm

/-- The strength of an entry that is adjusted by a word, if a quotient fits a signed word. -/
theorem Entry.strength_of_adjustment {op : AdjustmentOp} {word : UInt64} {amount : Int}
    (h : entry.adjustment = some (op.adjustment word.toInt64)) (hamount : word.toInt64.toInt = amount)
    (hquotient : entry.plain.tdiv amount < Number.signedLimit) :
    entry.strength = confined (op.on entry.plain amount) := by
  subst hamount
  have happly := (op.adjustment word.toInt64).max_apply entry.plain_lt (by simpa using hquotient)
  rw [AdjustmentOp.op_adjustment, AdjustmentOp.amount_adjustment] at happly
  rw [← happly, Entry.strength, h]
  rfl

/-- An entry of a database has the adjustment that the last directive about it declares. -/
theorem adjustment_of_lastArgument {argument : List Char} (hread : Database.read text = .ok database)
    (hm : entry ∈ database.entries)
    (hlast : lastArgument "strength" (remarks (Text.lines text) entry.line) = some argument) :
    ∃ adjustment, entry.adjustment = some adjustment ∧
      Adjustment.read entry.line argument = .ok adjustment := by
  obtain ⟨forest, hforest, -⟩ := map_eq_ok_iff.1 hread
  obtain ⟨draft, hdraft, rfl⟩ := map_eq_ok_iff.1 hforest
  have hmem := (mem_entries_iff hforest hread entry).1 hm
  have hfollows := ((IsAnnotated.of_addLines hdraft).follows entry hmem).adjustment entry.line
  rw [hlast] at hfollows
  obtain ⟨adjustment, hadjustment, hargument⟩ := Option.map_eq_some_iff.1 hfollows
  exact ⟨adjustment, hadjustment, hargument.symm⟩

/-- Numbers are only read from one, two, four or eight bytes. -/
theorem ValueType.IsNamed.hasWidth {type : ValueType} (h : type.IsNamed) : type.HasWidth := by
  cases type with
  | number format => exact h.imp And.left id
  | text | search => trivial

/-- **An amount without a sign adjusts the strength as it says if it fits a signed word**, and then adding
never makes an entry weaker and subtracting never stronger. Any greater amount that is read stands for the
negative integer with the same word: adding it never makes an entry stronger and subtracting it never
weaker, and the strength is the declared one by accident only. -/
theorem strength_declared {op : AdjustmentOp} {rest : List Char} {n : Nat}
    (hread : Database.read text = .ok database) (hm : entry ∈ database.entries)
    (hlast : lastArgument "strength" (remarks (Text.lines text) entry.line) = some (op.sign :: rest))
    (hn : Number.IsMagnitude (Text.trim rest) n) :
    n < Number.wordLimit ∧
    (entry.test.IsShort → entry.plain = exactStrength entry.type entry.test ∧ 0 ≤ entry.plain) ∧
    (n < Number.signedLimit →
      entry.strength = confined (op.on entry.plain n) ∧
      (op = .add → (entry.adjusted none).strength ≤ entry.strength) ∧
      (op = .sub → entry.strength ≤ (entry.adjusted none).strength)) ∧
    (Number.signedLimit ≤ n → 0 ≤ entry.plain →
      entry.strength = confined (op.on entry.plain (n - Number.wordLimit)) ∧
      (op = .add → entry.strength ≤ (entry.adjusted none).strength) ∧
      (op = .sub → (entry.adjusted none).strength ≤ entry.strength) ∧
      (entry.strength = confined (op.on entry.plain n) ↔
        op = .div ∨ op = .mul ∧ entry.plain = 0 ∨
          op = .sub ∧ entry.plain = 0 ∧ n = Number.wordLimit - 1)) := by
  obtain ⟨adjustment, hadjustment, hargument⟩ := adjustment_of_lastArgument hread hm hlast
  obtain ⟨word, rfl, rfl⟩ := Adjustment.read_magnitude hn hargument
  refine ⟨word.toNat_lt, ?_, ?_, ?_⟩
  · intro hshort
    obtain ⟨forest, hforest, -⟩ := map_eq_ok_iff.1 hread
    have hsound := isSound_of_readForest hforest entry ((mem_entries_iff hforest hread entry).1 hm)
    have hexact : entry.plain = exactStrength entry.type entry.test :=
      plainStrength_eq hshort hsound.type.hasWidth
    exact ⟨hexact, hexact ▸ exactStrength_nonneg entry.type entry.test⟩
  · intro hfits
    have hamount : word.toInt64.toInt = word.toNat := by rw [toInt_toInt64, if_pos hfits]
    have hstrength := Entry.strength_of_adjustment hadjustment hamount (tdiv_natCast_lt entry.plain_lt _)
    have hnonneg := Int.natCast_nonneg word.toNat
    rw [hstrength, Entry.strength_adjusted_none]
    refine ⟨rfl, ?_, ?_⟩
    · rintro rfl
      exact confined_mono (Int.le_add_of_nonneg_right hnonneg)
    · rintro rfl
      exact confined_mono (Int.sub_le_self _ hnonneg)
  · intro hexcess hplain
    have hamount : word.toInt64.toInt = word.toNat - Number.wordLimit := by
      rw [toInt_toInt64, if_neg (Int.not_lt.2 hexcess)]
    have hstrength := Entry.strength_of_adjustment hadjustment hamount (tdiv_lt hplain entry.plain_lt)
    have hneg : (word.toNat - Number.wordLimit : Int) ≤ 0 :=
      Int.sub_nonpos_of_le (Int.ofNat_le.2 (Nat.le_of_lt word.toNat_lt))
    rw [hstrength, Entry.strength_adjusted_none]
    refine ⟨rfl, ?_, ?_, confined_on_excess_iff hplain entry.plain_lt hexcess word.toNat_lt⟩
    · rintro rfl
      exact confined_mono (by simp only [AdjustmentOp.on]; omega)
    · rintro rfl
      exact confined_mono (by simp only [AdjustmentOp.on]; omega)

/-- Of two directives the last one counts, and its amount is octal. -/
theorem strength_declared_octal :
    ∃ database,
      Database.read "0 string AB first\n!:strength /5\n!:strength + 010\n".toList = .ok database ∧
      ∃ entry ∈ database.entries, entry.strength = confined (entry.plain + 8) ∧ entry.strength = 58 ∧
        (entry.adjusted none).strength ≤ entry.strength := by
  have hfirst : (Database.read "0 string AB first\n!:strength /5\n!:strength + 010\n".toList).map
      (fun d => decide (∃ entry ∈ d.entries, entry.line = 1 ∧ entry.plain = 50)) = .ok true := by
    decide +kernel
  obtain ⟨database, hread, hfirst⟩ := map_eq_ok_iff.1 hfirst
  obtain ⟨entry, hm, hline, hplain⟩ := of_decide_eq_true hfirst
  have hlast : lastArgument "strength"
      (remarks (Text.lines "0 string AB first\n!:strength /5\n!:strength + 010\n".toList) entry.line) =
      some (AdjustmentOp.add.sign :: " 010".toList) := by
    rw [hline]
    decide +kernel
  have hoctal : Number.IsMagnitude (Text.trim " 010".toList) 8 :=
    .octal ((Number.spells_iff (by decide)).2 ⟨by decide, by decide⟩)
  obtain ⟨-, -, hfits, -⟩ := strength_declared hread hm hlast hoctal
  obtain ⟨hstrength, hup, -⟩ := hfits (by decide)
  refine ⟨database, hread, entry, hm, hstrength, ?_, hup rfl⟩
  rw [hstrength, hplain]
  decide

/-- What is to be added is subtracted, and the second entry, which is less specific, comes first. -/
theorem strength_declared_wrapped :
    Number.IsMagnitude "9223372036854775808".toList 9223372036854775808 ∧
    ∃ database,
      Database.read
          "0 string AB first\n!:strength +9223372036854775808\n0 string A second\n".toList =
        .ok database ∧
      (∃ entry ∈ database.entries,
        lastArgument "strength" (remarks (Text.lines
            "0 string AB first\n!:strength +9223372036854775808\n0 string A second\n".toList)
            entry.line) = some (AdjustmentOp.add.sign :: "9223372036854775808".toList) ∧
        entry.strength ≠ confined (entry.plain + 9223372036854775808) ∧
        entry.strength < (entry.adjusted none).strength) ∧
      database.identify [0x41, 0x42] = ⟨"second", none⟩ := by
  have hdatabase : (Database.read
      "0 string AB first\n!:strength +9223372036854775808\n0 string A second\n".toList).map
      (fun d => decide ((∃ entry ∈ d.entries,
          lastArgument "strength" (remarks (Text.lines
              "0 string AB first\n!:strength +9223372036854775808\n0 string A second\n".toList)
              entry.line) = some (AdjustmentOp.add.sign :: "9223372036854775808".toList) ∧
          entry.strength ≠ confined (entry.plain + 9223372036854775808) ∧
          entry.strength < (entry.adjusted none).strength) ∧
        d.identify [0x41, 0x42] = ⟨"second", none⟩)) = .ok true := by
    decide +kernel
  obtain ⟨database, hread, h⟩ := map_eq_ok_iff.1 hdatabase
  refine ⟨.decimal (by decide) ((Number.spells_iff (by decide)).2 ⟨by decide, by decide⟩), ?_⟩
  exact ⟨database, hread, of_decide_eq_true h⟩

end Directives

end Hallmark.Signature
