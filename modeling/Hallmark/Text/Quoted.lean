import Hallmark.Number.Digits
import Hallmark.Text.Blank

/-!
# `Hallmark/Text/Quoted.lean` — quoted text in log fields and summaries

A field that may be absent, and a list of names, are written so that the text can be told from its
surroundings: in double quotes, with a backslash before a quote, a backslash and the letter of a
common control character. Blanks other than the space, and other control characters, could not be seen
and are written by their code points.
-/

set_option autoImplicit false

namespace Hallmark.Text.Quoted

/-- A character that could not be told from its absence or from a space. -/
def isUnseen (c : Char) : Bool :=
  c.toNat < 0x20 || (0x7F ≤ c.toNat && c.toNat ≤ 0x9F) || (isBlank c && c != ' ')

/-- The spelling of one character inside quotes. -/
def escape (c : Char) : List Char :=
  if c = '\x22' then ['\\', '\x22']
  else if c = '\\' then ['\\', '\\']
  else if c = '\n' then ['\\', 'n']
  else if c = '\r' then ['\\', 'r']
  else if c = '\t' then ['\\', 't']
  else if c = '\x00' then ['\\', '0']
  else if isUnseen c then ['\\', 'u', '\x7b'] ++ Number.digits 16 c.toNat ++ ['\x7d']
  else [c]

/-- A text in double quotes. -/
def text (s : String) : String :=
  String.ofList ('\x22' :: s.toList.flatMap escape ++ ['\x22'])

/-- `None`, or the quoted text in `Some(...)`. -/
def optional : Option String → String
  | none => "None"
  | some s => "Some(" ++ text s ++ ")"

/-- The quoted texts in brackets, with a comma and a space between them. -/
def list (ss : List String) : String :=
  "[" ++ ", ".intercalate (ss.map text) ++ "]"

end Hallmark.Text.Quoted
