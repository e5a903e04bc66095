import Hallmark.Text.Blank

/-!
# `Hallmark/Signature/Token.lean` — the tokens of an entry line

A token runs up to the next ASCII blank that no backslash stands before. `next?` skips the blanks in
front, which are those of the whole Unicode set. Main statement: the token and what is left make up
the text from the first non-blank on (`next?_append`).
-/

set_option autoImplicit false

namespace Hallmark.Signature.Token

/-- The characters up to the first unescaped ASCII blank, and the rest from that blank on. -/
def run : List Char → List Char × List Char
  | [] => ([], [])
  -- At the end of the line a backslash escapes nothing; it still belongs to the token.
  | ['\\'] => (['\\'], [])
  | '\\' :: c :: cs =>
    let tail := run cs
    ('\\' :: c :: tail.1, tail.2)
  | c :: cs =>
    if Text.isAsciiBlank c then ([], c :: cs)
    else
      let tail := run cs
      (c :: tail.1, tail.2)

/-- A character that neither ends the token nor escapes another belongs to the token. -/
theorem run_cons {c : Char} (hescape : c ≠ '\\') (hblank : Text.isAsciiBlank c = false)
    (cs : List Char) : run (c :: cs) = (c :: (run cs).1, (run cs).2) := by
  rw [run]
  · simp [hblank]
  · exact fun e => absurd e hescape
  · exact fun d ds e => absurd e hescape

theorem run_append (cs : List Char) : (run cs).1 ++ (run cs).2 = cs := by
  fun_induction run cs with
  | case1 => rfl
  | case2 => rfl
  | case3 c cs =>
    rename_i ih
    exact congrArg (fun r => '\\' :: c :: r) ih
  | case4 => rfl
  | case5 c cs =>
    rename_i ih
    exact congrArg (fun r => c :: r) ih

/-- The next token and the rest after it; `none` if only blanks are left. -/
def next? (cs : List Char) : Option (List Char × List Char) :=
  match Text.trimStart cs with
  | [] => none
  | c :: cs => some (run (c :: cs))

theorem next?_append {cs token rest : List Char} (h : next? cs = some (token, rest)) :
    token ++ rest = Text.trimStart cs := by
  unfold next? at h
  split at h
  · simp at h
  · rename_i c cs' heq
    simp only [Option.some.injEq] at h
    have := run_append (c :: cs')
    rw [heq, ← this, h]

end Hallmark.Signature.Token
