import Hallmark.Signature.Entry
import Hallmark.Text.Blank

/-!
# `Hallmark/Signature/Pattern.lean` — patterns against bytes

`Pattern.match?` compares a pattern with the bytes at some offset and says how many of them it took.
A space in the pattern can be flexible: it then takes the whole run of blanks it stands at. Every
other pattern byte takes one byte; the empty pattern takes none. Main statement: a match takes no more
than there is (`match?_le_length`).
-/

set_option autoImplicit false

namespace Hallmark.Signature

/-- The lower-case form of an ASCII letter; other bytes stay as they are. -/
def lowerByte (b : UInt8) : UInt8 := if 0x41 ≤ b && b ≤ 0x5A then b + 0x20 else b

namespace PatternFlags

/-- Spaces of the pattern stand for runs of blanks. -/
def hasFlexibleBlanks (flags : PatternFlags) : Bool := flags.compactBlanks || flags.optionalBlanks

/-- Whether a pattern byte takes a byte of the buffer. -/
def sameByte (flags : PatternFlags) (expected actual : UInt8) : Bool :=
  if flags.ignoreCase then lowerByte actual == lowerByte expected else actual == expected

def folded (flags : PatternFlags) (bytes : List UInt8) : List UInt8 :=
  if flags.ignoreCase then bytes.map lowerByte else bytes

end PatternFlags

/-- The number of bytes at the front that a pattern takes; `none` if it does not match there. -/
def Pattern.match? (flags : PatternFlags) : (pattern data : List UInt8) → Option Nat
  | [], _ => some 0
  | p :: ps, data =>
    if flags.hasFlexibleBlanks && p == 0x20 then
      let run := data.takeWhile Text.isBlankByte
      if run.isEmpty && !flags.optionalBlanks then none
      else (Pattern.match? flags ps (data.drop run.length)).map (run.length + ·)
    else
      match data with
      | [] => none
      | d :: ds =>
        if flags.sameByte p d then (Pattern.match? flags ps ds).map (1 + ·) else none

theorem Pattern.match?_le_length {flags : PatternFlags} {pattern data : List UInt8} {n : Nat}
    (h : Pattern.match? flags pattern data = some n) : n ≤ data.length := by
  fun_induction Pattern.match? flags pattern data generalizing n with
  | case1 => simp only [Option.some.injEq] at h; omega
  | case2 => simp at h
  | case3 p ps data hp run hrun =>
    rename_i ih
    obtain ⟨m, hm, rfl⟩ := Option.map_eq_some_iff.1 h
    have hle : run.length ≤ data.length := (List.takeWhile_sublist _).length_le
    have := ih hm
    simp only [List.length_drop] at this
    omega
  | case4 => simp at h
  | case5 p ps hp d ds hd ih =>
    obtain ⟨m, hm, rfl⟩ := Option.map_eq_some_iff.1 h
    have := ih hm
    simp only [List.length_cons]
    omega
  | case6 => simp at h

/-- What a pattern takes at a position of a buffer lies in the buffer. -/
theorem Pattern.add_le_of_match? {flags : PatternFlags} {pattern buffer : List UInt8}
    {start count : Nat} (hstart : start ≤ buffer.length)
    (h : Pattern.match? flags pattern (buffer.drop start) = some count) :
    start + count ≤ buffer.length := by
  have hle := Pattern.match?_le_length h
  rw [List.length_drop] at hle
  omega

end Hallmark.Signature
