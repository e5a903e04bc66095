import Hallmark.Proofs.Order
import Hallmark.Proofs.Signature.Pieces
import Hallmark.Proofs.Signature.Search

/-!
# `Hallmark/Proofs/Signature/Rigid.lean` — patterns without flexible blanks

Without flexible blanks each byte of a pattern takes one byte, so a pattern compares equal just where the
bytes in front, as many as it has, are the same as it in one case (`Pattern.match?_of_rigid`). The orders
compare these bytes in the same case. Equality and the two orders therefore agree: one of them holds
wherever there are enough bytes, and none where there are not. Main statement:
`text_comparisons_partition`.
-/

set_option autoImplicit false

namespace Hallmark.Signature

variable {flags : PatternFlags} {p b : UInt8} {pattern data buffer : List UInt8} {offset : Nat}

theorem PatternFlags.rigid_of (hW : flags.compactBlanks = false) (hw : flags.optionalBlanks = false) :
    flags.hasFlexibleBlanks = false := by
  rw [PatternFlags.hasFlexibleBlanks, hW, hw]
  rfl

/-- Byte by byte, texts of one case are compared as the bytes of a pattern are. -/
theorem PatternFlags.folded_cons_eq_iff : flags.folded (b :: data) = flags.folded (p :: pattern) ↔
    flags.sameByte p b = true ∧ flags.folded data = flags.folded pattern := by
  unfold PatternFlags.folded PatternFlags.sameByte
  cases flags.ignoreCase <;> simp

namespace Pattern

/-- **A rigid pattern takes as many bytes as it has, if these are the same in one case.** -/
theorem match?_of_rigid (h : flags.hasFlexibleBlanks = false) (pattern data : List UInt8) :
    match? flags pattern data =
      if pattern.length ≤ data.length ∧
          flags.folded (data.take pattern.length) = flags.folded pattern then
        some pattern.length
      else none := by
  induction pattern generalizing data with
  | nil => simp [match?]
  | cons p pattern ih =>
    rw [match?.eq_def]
    simp only [h, Bool.false_and, Bool.false_eq_true, if_false]
    cases data with
    | nil => simp
    | cons b data =>
      simp only [List.length_cons, List.take_succ_cons, PatternFlags.folded_cons_eq_iff,
        Nat.succ_le_succ_iff, ih data]
      by_cases hsame : flags.sameByte p b = true
      · by_cases hrest : pattern.length ≤ data.length ∧
            flags.folded (data.take pattern.length) = flags.folded pattern
        · rw [if_pos hsame, if_pos hrest, if_pos ⟨hrest.1, hsame, hrest.2⟩, Option.map_some,
            Nat.add_comm]
        · rw [if_pos hsame, if_neg hrest, if_neg fun hall => hrest ⟨hall.1, hall.2.2⟩]
          rfl
      · rw [if_neg hsame, if_neg fun hall => hsame hall.2.1]

/-- A rigid pattern takes as many bytes as it has. -/
theorem eq_length_of_rigid (h : flags.hasFlexibleBlanks = false) {n : Nat}
    (hmatch : match? flags pattern data = some n) : n = pattern.length := by
  rw [match?_of_rigid h, Option.ite_none_right_eq_some] at hmatch
  exact (Option.some.inj hmatch.2).symm

end Pattern

/-! ## The comparisons -/

/-- The comparison lets the buffer pass at the offset. -/
def TextOp.Passes (op : TextOp) (flags : PatternFlags) (pattern buffer : List UInt8) (offset : Nat) :
    Prop :=
  (probeText flags op pattern buffer offset).isSome

/-- Nothing passes behind the end of the buffer. -/
theorem not_passes_of_lt (h : buffer.length < offset) (op : TextOp) :
    ¬ op.Passes flags pattern buffer offset := by
  rw [TextOp.Passes, probeText, if_pos h]
  exact Bool.false_ne_true

theorem le_length_drop_iff (hoffset : offset ≤ buffer.length) (count : Nat) :
    count ≤ (buffer.drop offset).length ↔ offset + count ≤ buffer.length := by
  rw [List.length_drop, Nat.le_sub_iff_add_le' hoffset]

theorem passes_equal_iff (h : flags.hasFlexibleBlanks = false) :
    TextOp.equal.Passes flags pattern buffer offset ↔
      offset + pattern.length ≤ buffer.length ∧
        flags.folded ((buffer.drop offset).take pattern.length) = flags.folded pattern := by
  rcases Nat.lt_or_ge buffer.length offset with hbehind | hoffset
  · exact iff_of_false (not_passes_of_lt hbehind _) fun hall => by omega
  · rw [← le_length_drop_iff hoffset, TextOp.Passes, isSome_probeText_equal hoffset,
      Pattern.match?_of_rigid h]
    exact Option.isSome_ite

theorem passes_less_iff : TextOp.less.Passes flags pattern buffer offset ↔
    offset + pattern.length ≤ buffer.length ∧
      flags.folded ((buffer.drop offset).take pattern.length) < flags.folded pattern := by
  rcases Nat.lt_or_ge buffer.length offset with hbehind | hoffset
  · exact iff_of_false (not_passes_of_lt hbehind _) fun hall => by omega
  · rw [← le_length_drop_iff hoffset, TextOp.Passes, probeText, if_neg (Nat.not_lt_of_le hoffset)]
    exact Option.isSome_ite

theorem passes_greater_iff : TextOp.greater.Passes flags pattern buffer offset ↔
    offset + pattern.length ≤ buffer.length ∧
      flags.folded pattern < flags.folded ((buffer.drop offset).take pattern.length) := by
  rcases Nat.lt_or_ge buffer.length offset with hbehind | hoffset
  · exact iff_of_false (not_passes_of_lt hbehind _) fun hall => by omega
  · rw [← le_length_drop_iff hoffset, TextOp.Passes, probeText, if_neg (Nat.not_lt_of_le hoffset)]
    exact Option.isSome_ite

theorem passes_notEqual_iff (hoffset : offset ≤ buffer.length) :
    TextOp.notEqual.Passes flags pattern buffer offset ↔
      ¬ TextOp.equal.Passes flags pattern buffer offset := isSome_probeText_notEqual hoffset

theorem passes_any (hoffset : offset ≤ buffer.length) :
    TextOp.any.Passes flags pattern buffer offset := by
  rw [TextOp.Passes, probeText, if_neg (Nat.not_lt_of_le hoffset)]
  rfl

/-- **The comparisons with a rigid pattern agree.** Where the buffer has as many bytes as the pattern,
they say how these compare with it: exactly one of equality and the two orders lets the buffer pass, and a
test for difference does if one of the orders does. Where it has fewer, none of the three does, but a test
for difference and one for anything do. Behind its end nothing does. -/
theorem text_comparisons_partition (hW : flags.compactBlanks = false)
    (hw : flags.optionalBlanks = false) (pattern buffer : List UInt8) (offset : Nat) :
    (offset + pattern.length ≤ buffer.length →
      Compares (TextOp.equal.Passes flags pattern buffer offset)
        (TextOp.notEqual.Passes flags pattern buffer offset)
        (TextOp.less.Passes flags pattern buffer offset)
        (TextOp.greater.Passes flags pattern buffer offset)
        (flags.folded ((buffer.drop offset).take pattern.length)) (flags.folded pattern)) ∧
    (offset ≤ buffer.length → buffer.length < offset + pattern.length →
      ¬ TextOp.equal.Passes flags pattern buffer offset ∧
      ¬ TextOp.less.Passes flags pattern buffer offset ∧
      ¬ TextOp.greater.Passes flags pattern buffer offset ∧
      TextOp.notEqual.Passes flags pattern buffer offset ∧
      TextOp.any.Passes flags pattern buffer offset) ∧
    (buffer.length < offset → ∀ op : TextOp, ¬ op.Passes flags pattern buffer offset) := by
  have hrigid := PatternFlags.rigid_of hW hw
  refine ⟨fun henough => ?_, fun hoffset hfew => ?_, not_passes_of_lt⟩
  · apply Compares.of_iff
    · exact (passes_equal_iff hrigid).trans (and_iff_right henough)
    · exact passes_less_iff.trans (and_iff_right henough)
    · exact passes_greater_iff.trans (and_iff_right henough)
    · exact passes_notEqual_iff (Nat.le_of_add_right_le henough)
  · have hshort : ¬ offset + pattern.length ≤ buffer.length := Nat.not_le_of_lt hfew
    have hequal : ¬ TextOp.equal.Passes flags pattern buffer offset :=
      fun h => hshort ((passes_equal_iff hrigid).1 h).1
    exact ⟨hequal, fun h => hshort (passes_less_iff.1 h).1,
      fun h => hshort (passes_greater_iff.1 h).1, (passes_notEqual_iff hoffset).2 hequal,
      passes_any hoffset⟩

/-- A capital letter in the buffer is compared in its small form; the same pattern has too few bytes one
position further on, and none at all behind the end. -/
theorem text_comparisons_partition_letters :
    ∃ (flags : PatternFlags) (pattern buffer : List UInt8), flags = { ignoreCase := true } ∧
      flags.compactBlanks = false ∧ flags.optionalBlanks = false ∧ pattern = [0x61, 0x62] ∧
      buffer = [0x78, 0x41, 0x43] ∧ 1 + pattern.length ≤ buffer.length ∧
      Compares (TextOp.equal.Passes flags pattern buffer 1)
        (TextOp.notEqual.Passes flags pattern buffer 1) (TextOp.less.Passes flags pattern buffer 1)
        (TextOp.greater.Passes flags pattern buffer 1) ([0x61, 0x63] : List UInt8) [0x61, 0x62] ∧
      TextOp.greater.Passes flags pattern buffer 1 ∧
      2 ≤ buffer.length ∧ buffer.length < 2 + pattern.length ∧
      ¬ TextOp.greater.Passes flags pattern buffer 2 ∧
      TextOp.notEqual.Passes flags pattern buffer 2 ∧
      buffer.length < 4 ∧ ¬ TextOp.any.Passes flags pattern buffer 4 := by
  let flags : PatternFlags := { ignoreCase := true }
  let pattern : List UInt8 := [0x61, 0x62]
  let buffer : List UInt8 := [0x78, 0x41, 0x43]
  have hW : flags.compactBlanks = false := rfl
  have hw : flags.optionalBlanks = false := rfl
  obtain ⟨henough, -, -⟩ := text_comparisons_partition hW hw pattern buffer 1
  obtain ⟨-, hfew, -⟩ := text_comparisons_partition hW hw pattern buffer 2
  obtain ⟨-, -, hbehind⟩ := text_comparisons_partition hW hw pattern buffer 4
  have hwindow : flags.folded ((buffer.drop 1).take pattern.length) = [0x61, 0x63] := by decide
  have hwanted : flags.folded pattern = [0x61, 0x62] := by decide
  have hcompares := henough (by decide)
  rw [hwindow, hwanted] at hcompares
  obtain ⟨-, -, hgreater, hnotEqual, -⟩ := hfew (by decide) (by decide)
  exact ⟨flags, pattern, buffer, rfl, hW, hw, rfl, rfl, by decide, hcompares,
    hcompares.greater_iff.2 (by decide), by decide, by decide, hgreater, hnotEqual, by decide,
    hbehind (by decide) .any⟩

end Hallmark.Signature
