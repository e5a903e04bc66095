import Mathlib.Data.Int.Basic
import Mathlib.Data.Nat.Digits.Defs
import Hallmark.Number.Literal
import Hallmark.Proofs.Number.Width

/-!
# `Hallmark/Proofs/Number/Integer.lean` — the integers behind bytes, words and literals

Bytes are the digits of a number in base 256, least significant first (`ofLittleEndian_eq`) or last
(`ofBigEndian_eq`). A number of some bytes stands for an integer in two's complement, and sign
extension computes it (`signed_eq`). A literal denotes an integer; the word that is read from it is
this integer up to a multiple of the word limit (`toNat_of_literal?`). Two's complement undoes that for
an integer in its range (`twosComplement_of_emod`).
-/

set_option autoImplicit false

namespace Hallmark.Number

/-! ## Bytes -/

theorem ofLittleEndian_eq (bytes : List UInt8) :
    ofLittleEndian bytes = Nat.ofDigits 256 (bytes.map UInt8.toNat) := by
  rw [ofLittleEndian, ofBigEndian, List.foldl_reverse]
  induction bytes with
  | nil => rfl
  | cons b bytes ih =>
    rw [List.foldr_cons, ih, List.map_cons, Nat.ofDigits_cons, Nat.add_comm, Nat.mul_comm]

theorem ofBigEndian_eq (bytes : List UInt8) :
    ofBigEndian bytes = Nat.ofDigits 256 (bytes.reverse.map UInt8.toNat) := by
  rw [← ofLittleEndian_eq, ofLittleEndian, List.reverse_reverse]

theorem ofBigEndian_append (front back : List UInt8) :
    ofBigEndian (front ++ back) = ofBigEndian front * 256 ^ back.length + ofBigEndian back := by
  rw [ofBigEndian_eq, ofBigEndian_eq, ofBigEndian_eq, List.reverse_append, List.map_append,
    Nat.ofDigits_append, List.length_map, List.length_reverse, Nat.add_comm, Nat.mul_comm]

/-- The first bytes give the most significant part of a number. -/
theorem ofBigEndian_append_div (front back : List UInt8) :
    ofBigEndian (front ++ back) / 256 ^ back.length = ofBigEndian front := by
  rw [ofBigEndian_append, Nat.mul_comm, Nat.mul_add_div (Nat.pow_pos (by decide)),
    Nat.div_eq_of_lt (ofBigEndian_lt back), Nat.add_zero]

/-! ## Two's complement -/

variable {width m n : Nat} {z : Int}

/-- The integer that a number of `width` bytes stands for in two's complement. -/
def twosComplement (width n : Nat) : Int :=
  if 2 * n < 256 ^ width then n else n - (256 ^ width : Nat)

theorem bmod_eq_twosComplement (h : n < 256 ^ width) :
    (n : Int).bmod (256 ^ width) = twosComplement width n := by
  unfold twosComplement
  generalize 256 ^ width = modulus at h ⊢
  rw [Int.bmod_def, Int.emod_eq_of_lt (Int.natCast_nonneg n) (Int.ofNat_lt.2 h)]
  split <;> split <;> omega

/-- **Sign extension gives the two's complement**, also of a word of eight bytes, which it leaves as it
is. -/
theorem signed_eq {word : UInt64} (hpos : 0 < width) (hle : width ≤ 8)
    (h : word.toNat < 256 ^ width) : signed word width = twosComplement width word.toNat := by
  rw [← bmod_eq_twosComplement h, signed]
  -- A word of eight bytes has no bits in front to fill with the sign.
  by_cases height : width = 8
  · subst height
    rw [if_pos (.inr hle), ← Int64.toInt_toBitVec, UInt64.toBitVec_toInt64,
      BitVec.toInt_eq_toNat_bmod, UInt64.toNat_toBitVec]
    rfl
  · rw [if_neg (by omega)]
    rfl

/-- Different numbers stand for different integers. -/
theorem twosComplement_inj (hm : m < 256 ^ width) (hn : n < 256 ^ width) :
    twosComplement width m = twosComplement width n ↔ m = n := by
  constructor
  · intro h
    unfold twosComplement at h
    generalize 256 ^ width = modulus at hm hn h
    split at h <;> split at h <;> omega
  · intro h
    rw [h]

/-- An integer in the range is what its residue stands for. -/
theorem twosComplement_of_emod (h : (n : Int) = z % (256 ^ width : Nat))
    (hlow : -(256 ^ width : Nat) ≤ 2 * z) (hhigh : 2 * z < (256 ^ width : Nat)) :
    twosComplement width n = z := by
  have hlt : n < 256 ^ width := by
    have hpos : (0 : Int) < (256 ^ width : Nat) := Int.natCast_pos.2 (Nat.pow_pos (by decide))
    exact Int.ofNat_lt.1 (h ▸ Int.emod_lt_of_pos z hpos)
  rw [← bmod_eq_twosComplement hlt, h, Int.emod_bmod]
  rw [Int.mul_comm] at hlow hhigh
  exact Int.bmod_eq_of_le_mul_two hlow hhigh

/-! ## Literals -/

/-- The integer that a literal denotes: its magnitude, below zero after a minus sign. -/
def integer? : List Char → Option Int
  | '-' :: cs => (unsigned? cs).map fun n => -(n.toNat : Int)
  | '+' :: cs => (unsigned? cs).map fun n => (n.toNat : Int)
  | cs => (unsigned? cs).map fun n => (n.toNat : Int)

/-- The word of a literal is the residue of its integer. -/
theorem toNat_of_literal? {cs : List Char} {word : UInt64} (h : literal? cs = some word) :
    ∃ z, integer? cs = some z ∧ (word.toNat : Int) = z % wordLimit := by
  have hself : ∀ magnitude : UInt64, (magnitude.toNat : Int) = (magnitude.toNat : Int) % wordLimit := by
    intro magnitude
    have hlt : (magnitude.toNat : Int) < wordLimit := Int.ofNat_lt.2 magnitude.toNat_lt
    exact (Int.emod_eq_of_lt (Int.natCast_nonneg _) hlt).symm
  unfold literal? at h
  split at h
  · -- The word is the limit less the magnitude, but of zero, which has no negative.
    obtain ⟨magnitude, hmagnitude, rfl⟩ := Option.map_eq_some_iff.1 h
    refine ⟨-(magnitude.toNat : Int), by rw [integer?, hmagnitude, Option.map_some], ?_⟩
    have hlt := magnitude.toNat_lt
    rw [UInt64.toNat_sub]
    simp only [wordLimit, UInt64.toNat_zero]
    omega
  · exact ⟨word.toNat, by rw [integer?, h, Option.map_some], hself word⟩
  · next hminus hplus =>
    refine ⟨word.toNat, ?_, hself word⟩
    rw [integer?.eq_3 cs hminus hplus, h, Option.map_some]

/-- What is cut to some bytes is the residue for them. -/
theorem toNat_truncate_of_emod {word : UInt64} (hle : width ≤ 8)
    (h : (word.toNat : Int) = z % wordLimit) :
    ((truncate word width).toNat : Int) = z % (256 ^ width : Nat) := by
  have hdvd : ((256 ^ width : Nat) : Int) ∣ wordLimit :=
    Int.natCast_dvd_natCast.2 (Nat.pow_dvd_pow 256 hle)
  rw [toNat_truncate, Int.natCast_emod, h, Int.emod_emod_of_dvd z hdvd]

end Hallmark.Number
