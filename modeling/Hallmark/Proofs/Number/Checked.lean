import Hallmark.Number.Word
import Hallmark.Proofs.Except

/-!
# `Hallmark/Proofs/Number/Checked.lean` — arithmetic that can fault

Positions in a buffer are unsigned words of 64 bits. A sum or a difference that no such word holds is a
fault, and so is a slice that does not lie in its buffer. One lemma for each operation says when it goes
well. Widening a word by its sign is two shifts: it never faults, and gives the two's complement
(`signExtend_eq`).
-/

set_option autoImplicit false

namespace Hallmark.Checked

inductive Fault where
  | overflow
  | outOfBounds
deriving DecidableEq, Repr

def add (a b : Nat) : Except Fault Nat :=
  if a + b < Number.wordLimit then .ok (a + b) else .error .overflow

def sub (a b : Nat) : Except Fault Nat :=
  if b ≤ a then .ok (a - b) else .error .overflow

def mul (a b : Nat) : Except Fault Nat :=
  if a * b < Number.wordLimit then .ok (a * b) else .error .overflow

/-- The sum, if it is a word. -/
def add? (a b : Nat) : Option Nat := if a + b < Number.wordLimit then some (a + b) else none

/-- The sum, or the largest word. -/
def addSaturating (a b : Nat) : Nat := min (a + b) (Number.wordLimit - 1)

/-- The bytes between two positions, if they lie in the buffer. -/
def slice? (buffer : List UInt8) (start stop : Nat) : Option (List UInt8) :=
  if start ≤ stop ∧ stop ≤ buffer.length then some ((buffer.drop start).take (stop - start)) else none

def slice (buffer : List UInt8) (start stop : Nat) : Except Fault (List UInt8) :=
  match slice? buffer start stop with
  | some bytes => .ok bytes
  | none => .error .outOfBounds

/-- The bytes are no more than a memory holds, which a signed word can count. -/
def Fits (bytes : List UInt8) : Prop := (bytes.length : Int) < Number.signedLimit

instance (bytes : List UInt8) : Decidable (Fits bytes) :=
  inferInstanceAs (Decidable ((bytes.length : Int) < Number.signedLimit))

section Laws

variable {a b start stop : Nat} {buffer : List UInt8}

theorem add_eq (h : a + b < Number.wordLimit) : add a b = .ok (a + b) := if_pos h

theorem sub_eq (h : b ≤ a) : sub a b = .ok (a - b) := if_pos h

theorem mul_eq (h : a * b < Number.wordLimit) : mul a b = .ok (a * b) := if_pos h

theorem slice_eq (h : start ≤ stop) (hs : stop ≤ buffer.length) :
    slice buffer start stop = .ok ((buffer.drop start).take (stop - start)) := by
  rw [slice, slice?, if_pos ⟨h, hs⟩]

/-- A position in a buffer can be counted on by as much as a buffer has bytes. -/
theorem Fits.add_eq (h : Fits buffer) {other : List UInt8} (h' : Fits other)
    (ha : a ≤ buffer.length) (hb : b ≤ other.length) : add a b = .ok (a + b) := by
  unfold Fits Number.signedLimit at h h'
  refine Checked.add_eq ?_
  unfold Number.wordLimit
  omega

/-- Two numbers whose sum is a position in a buffer. -/
theorem Fits.add_eq_of_le (h : Fits buffer) (hab : a + b ≤ buffer.length) : add a b = .ok (a + b) := by
  unfold Fits Number.signedLimit at h
  refine Checked.add_eq ?_
  unfold Number.wordLimit
  omega

end Laws

/-! ## Widening by the sign -/

/-- The low bytes of a word as a signed word: they are moved to the top and back, which repeats the
sign. -/
def signExtend (word : UInt64) (width : Nat) : Except Fault Int64 :=
  if width = 0 ∨ 8 ≤ width then .ok word.toInt64
  else do
    let bits ← mul width 8
    let shift ← sub 64 bits
    return (word <<< UInt64.ofNat shift).toInt64 >>> Int64.ofNat shift

theorem toInt_shift_back (word : UInt64) {shift : Nat} (h : shift < 64) :
    ((word <<< UInt64.ofNat shift).toInt64 >>> Int64.ofNat shift).toInt =
      ((Nat.pow 2 shift * word.toNat : Nat) : Int).bmod Number.wordLimit / (Nat.pow 2 shift : Nat) := by
  have hleft : ((UInt64.ofNat shift).toBitVec % 64).toNat = shift := by
    simp [UInt64.toBitVec_ofNat']
    omega
  have hright : ((Int64.ofNat shift).toBitVec.smod 64).toNat = shift :=
    (show ∀ s : Fin 64, ((Int64.ofNat s.val).toBitVec.smod 64).toNat = s.val by decide) ⟨shift, h⟩
  rw [← Int64.toInt_toBitVec, Int64.toBitVec_shiftRight, BitVec.sshiftRight', hright,
    BitVec.toInt_sshiftRight, UInt64.toBitVec_toInt64, UInt64.toBitVec_shiftLeft, BitVec.shiftLeft_eq',
    hleft, BitVec.toInt_shiftLeft, Nat.shiftLeft_eq, Int.shiftRight_eq_div_pow,
    UInt64.toNat_toBitVec, Nat.mul_comm]
  norm_cast

/-- Scaling a number and an even modulus scales the balanced remainder. -/
theorem bmod_mul (n : Int) (half : Nat) {scale : Nat} (h : 0 < scale) :
    (scale * n).bmod (scale * (2 * half)) = scale * n.bmod (2 * half) := by
  have hscale : (0 : Int) < scale := by omega
  have hmod : scale * n % (scale * (2 * half) : Nat) = scale * (n % (2 * half : Nat)) := by
    rw [Int.natCast_mul, Int.mul_emod_mul_of_pos _ _ hscale]
  have hhalf : ((2 * half : Nat) + 1 : Int) / 2 = half := by omega
  have hhalves : ((scale * (2 * half) : Nat) + 1 : Int) / 2 = scale * half := by
    rw [Nat.mul_left_comm, ← Int.natCast_mul]
    omega
  rw [Int.bmod_def, Int.bmod_def, hmod, hhalf, hhalves]
  by_cases hlt : n % (2 * half : Nat) < half
  · rw [if_pos hlt, if_pos (Int.mul_lt_mul_of_pos_left hlt hscale)]
  · have hle := Int.mul_le_mul_of_nonneg_left (Int.not_lt.1 hlt) (Int.le_of_lt hscale)
    rw [if_neg hlt, if_neg (Int.not_lt.2 hle), Int.mul_sub, Int.natCast_mul scale]

/-- A word is a word of fewer bytes, moved to the top. -/
theorem wordLimit_eq {width : Nat} (h : 0 < width) (h' : width < 8) : ∃ half,
    Nat.pow 256 width = 2 * half ∧ Number.wordLimit = Nat.pow 2 (64 - width * 8) * (2 * half) := by
  have hsucc : Nat.pow 2 (width * 8 - 1 + 1) = 2 * Nat.pow 2 (width * 8 - 1) := Nat.pow_succ'
  refine ⟨Nat.pow 2 (width * 8 - 1), ?_, ?_⟩
  · calc Nat.pow 256 width = Nat.pow 2 (8 * width) := (Nat.pow_mul 2 8 width).symm
      _ = Nat.pow 2 (width * 8 - 1 + 1) := by
          congr 1
          omega
      _ = 2 * Nat.pow 2 (width * 8 - 1) := hsucc
  · calc Number.wordLimit = Nat.pow 2 64 := rfl
      _ = Nat.pow 2 (64 - width * 8 + (width * 8 - 1 + 1)) := by
          congr 1
          omega
      _ = Nat.pow 2 (64 - width * 8) * Nat.pow 2 (width * 8 - 1 + 1) := Nat.pow_add 2 _ _
      _ = Nat.pow 2 (64 - width * 8) * (2 * Nat.pow 2 (width * 8 - 1)) := by rw [hsucc]

/-- **Widening a word by its sign gives its two's complement, without a fault.** -/
theorem signExtend_eq (word : UInt64) (width : Nat) :
    ∃ n, signExtend word width = .ok n ∧ n.toInt = Number.signed word width := by
  unfold signExtend Number.signed
  by_cases hwidth : width = 0 ∨ 8 ≤ width
  · rw [if_pos hwidth, if_pos hwidth]
    exact ⟨_, rfl, rfl⟩
  · have hmul : mul width 8 = .ok (width * 8) := mul_eq (by unfold Number.wordLimit; omega)
    have hsub : sub 64 (width * 8) = .ok (64 - width * 8) := sub_eq (by omega)
    rw [if_neg hwidth, if_neg hwidth, hmul]
    refine ⟨_, by rw [ok_bind, hsub, ok_bind]; rfl, ?_⟩
    obtain ⟨hne, hlt⟩ := not_or.1 hwidth
    obtain ⟨half, hhalf, hmodulus⟩ := wordLimit_eq (Nat.pos_of_ne_zero hne) (Nat.lt_of_not_le hlt)
    have hscale : 0 < Nat.pow 2 (64 - width * 8) := Nat.two_pow_pos _
    rw [toInt_shift_back word (by omega), hmodulus, Int.natCast_mul, bmod_mul _ _ hscale, hhalf]
    exact Int.mul_ediv_cancel_left _ (Int.natCast_ne_zero.2 (Nat.ne_of_gt hscale))

end Hallmark.Checked
