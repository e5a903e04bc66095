import Mathlib.Algebra.Group.Nat.Even
import Hallmark.Number.Word

/-!
# `Hallmark/Proofs/Number/Width.lean` — words that fit a number of bytes

A word that was read from some bytes, or cut to them, is below the power of 256 that has their number as
exponent.
-/

set_option autoImplicit false

namespace Hallmark.Number

theorem toNat_truncate (word : UInt64) (width : Nat) :
    (truncate word width).toNat = word.toNat % 256 ^ width := by
  unfold truncate
  split
  · next h =>
    have hlt : word.toNat < 256 ^ width :=
      calc word.toNat < 256 ^ 8 := word.toNat_lt
        _ ≤ 256 ^ width := Nat.pow_le_pow_right (by decide) h
    exact (Nat.mod_eq_of_lt hlt).symm
  · rw [UInt64.toNat_ofNat', Nat.pow_eq]
    exact Nat.mod_eq_of_lt (Nat.lt_of_le_of_lt (Nat.mod_le _ _) word.toNat_lt)

theorem toNat_truncate_lt (word : UInt64) (width : Nat) :
    (truncate word width).toNat < 256 ^ width := by
  rw [toNat_truncate]
  exact Nat.mod_lt _ (Nat.pow_pos (by decide))

/-- Each byte takes one place of a number in base 256. -/
theorem foldl_bytes_lt (bytes : List UInt8) (acc : Nat) :
    bytes.foldl (fun acc b => acc * 256 + b.toNat) acc < (acc + 1) * 256 ^ bytes.length := by
  induction bytes generalizing acc with
  | nil => simp
  | cons b bytes ih =>
    have hb := b.toNat_lt
    rw [List.foldl_cons, List.length_cons, Nat.pow_succ']
    calc bytes.foldl (fun acc b => acc * 256 + b.toNat) (acc * 256 + b.toNat)
        < (acc * 256 + b.toNat + 1) * 256 ^ bytes.length := ih _
      _ ≤ (acc + 1) * 256 * 256 ^ bytes.length := Nat.mul_le_mul_right _ (by omega)
      _ = (acc + 1) * (256 * 256 ^ bytes.length) := Nat.mul_assoc _ _ _

theorem ofBigEndian_lt (bytes : List UInt8) : ofBigEndian bytes < 256 ^ bytes.length := by
  simpa [ofBigEndian] using foldl_bytes_lt bytes 0

theorem ofLittleEndian_lt (bytes : List UInt8) : ofLittleEndian bytes < 256 ^ bytes.length := by
  simpa [ofLittleEndian] using ofBigEndian_lt bytes.reverse

end Hallmark.Number
