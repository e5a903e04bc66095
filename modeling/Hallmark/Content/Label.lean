import Hallmark.Text.Utf8

/-!
# `Hallmark/Content/Label.lean` — clean text from raw bytes

A label can hold bytes of the file it describes, which need not be text. `cleanText` replaces each byte
that belongs to no well-formed sequence; `cleanLabel` ends a label at its first NUL and at a number of
bytes before that.
-/

set_option autoImplicit false

namespace Hallmark.Content

/-- What stands for a byte that is no text. -/
def replacement : Char := '^'

/-- Bytes as text, with the replacement for each byte that is none. -/
def cleanText (bytes : List UInt8) : String :=
  String.ofList (Text.Utf8.scrub replacement bytes)

/-- A label of at most `limit` bytes, made from the bytes before the first NUL. -/
def cleanLabel (raw : List UInt8) (limit : Nat) : String :=
  cleanText ((raw.takeWhile (· != 0)).take limit)

end Hallmark.Content
