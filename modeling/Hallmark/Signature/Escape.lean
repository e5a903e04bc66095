import Hallmark.Number.Literal
import Hallmark.Signature.Reason
import Hallmark.Text.Utf8

/-!
# `Hallmark/Signature/Escape.lean` — escapes in patterns

A pattern is written as text. A backslash starts an escape: a letter for a control byte, `x` and one
or two hexadecimal digits, up to three octal digits, or any other character, which then stands for
itself. Only two patterns are refused: one that ends in a lone backslash, and one with an `x` escape
without digits. Main statement: `eq_or_eq_of_resolve_eq_error`.
-/

set_option autoImplicit false

namespace Hallmark.Signature.Escape

/-- The byte that a letter stands for after a backslash. -/
def control? (c : Char) : Option UInt8 :=
  match c with
  | 'n' => some 0x0A
  | 'r' => some 0x0D
  | 't' => some 0x09
  | 'a' => some 0x07
  | 'b' => some 0x08
  | 'f' => some 0x0C
  | 'v' => some 0x0B
  | _ => none

/-- At most `most` digits of a base at the front: their value after `acc`, and the rest. -/
def digitRun (base : Nat) : (most : Nat) → (acc : Nat) → List Char → Nat × List Char
  | 0, acc, cs => (acc, cs)
  | _ + 1, acc, [] => (acc, [])
  | most + 1, acc, c :: cs =>
    match Number.digit? base c with
    | some d => digitRun base most (acc * base + d) cs
    | none => (acc, c :: cs)

theorem length_digitRun_le (base most acc : Nat) (cs : List Char) :
    (digitRun base most acc cs).2.length ≤ cs.length := by
  fun_induction digitRun base most acc cs with
  | case1 => simp
  | case2 => simp
  | case3 most acc c cs d hd ih => simp only [List.length_cons]; omega
  | case4 => simp

/-- The bytes that a written pattern stands for. Octal escapes past the largest byte wrap. -/
def resolve : List Char → Except Reason (List UInt8)
  | [] => .ok []
  -- Only the last character can be a backslash with nothing to escape.
  | ['\\'] => .error .trailingBackslash
  | '\\' :: c :: cs =>
    match control? c with
    | some b => (resolve cs).map (b :: ·)
    | none =>
      if c = 'x' then
        match cs with
        | [] => .error .emptyHexEscape
        | d :: ds =>
          match Number.digit? 16 d with
          | none => .error .emptyHexEscape
          | some first =>
            let run := digitRun 16 1 first ds
            (resolve run.2).map (UInt8.ofNat run.1 :: ·)
      else
        match Number.digit? 8 c with
        | some first =>
          let run := digitRun 8 2 first cs
          (resolve run.2).map (UInt8.ofNat run.1 :: ·)
        | none => (resolve cs).map (String.utf8EncodeChar c ++ ·)
  | c :: cs => (resolve cs).map (String.utf8EncodeChar c ++ ·)
termination_by cs => cs.length
decreasing_by
  all_goals simp only [List.length_cons]
  · omega
  · have := length_digitRun_le 16 1 first ds
    omega
  · have := length_digitRun_le 8 2 first cs
    omega
  · omega
  · omega

/-- Nothing but a lone backslash at the end and an escape without digits is refused. -/
theorem eq_or_eq_of_resolve_eq_error {cs : List Char} {r : Reason} (h : resolve cs = .error r) :
    r = .trailingBackslash ∨ r = .emptyHexEscape := by
  have lift : ∀ {e : Except Reason (List UInt8)} {g : List UInt8 → List UInt8},
      e.map g = .error r → e = .error r := by
    intro e g he
    cases e with
    | error _ => simpa [Except.map] using he
    | ok _ => simp [Except.map] at he
  fun_induction resolve cs with
  | case1 => simp at h
  | case2 => simp_all
  | case3 => rename_i ih; exact ih (lift h)
  | case4 => simp_all
  | case5 => simp_all
  | case6 => rename_i ih; exact ih (lift h)
  | case7 => rename_i ih; exact ih (lift h)
  | case8 => rename_i ih; exact ih (lift h)
  | case9 => rename_i ih; exact ih (lift h)

end Hallmark.Signature.Escape
