import Hallmark.Content.LineBreaks
import Hallmark.Identification
import Hallmark.Text.Utf8

/-!
# `Hallmark/Content/Kind.lean` — text or data

A buffer that no signature describes is empty, ASCII text, UTF-8 text or data. Text holds no control
characters but tab, line feed, carriage return, form feed, escape and backspace. A buffer is the start
of a file, so UTF-8 text may end in the middle of a character.
-/

set_option autoImplicit false

namespace Hallmark.Content

/-- The kinds of content that need no signature. -/
inductive Kind where
  | empty
  | asciiText
  | utf8Text
  | data
deriving DecidableEq, Repr

/-- Printable ASCII and the six control bytes that text may hold. -/
def isTextByte (b : UInt8) : Bool :=
  (0x20 ≤ b && b ≤ 0x7E) || b == 0x09 || b == 0x0A || b == 0x0D || b == 0x0C || b == 0x1B || b == 0x08

/-- A control character: below the space, or from delete to the end of the second control block. -/
def isControl (c : Char) : Bool := c.toNat < 0x20 || (0x7F ≤ c.toNat && c.toNat ≤ 0x9F)

/-- A character that text may hold. -/
def isTextChar (c : Char) : Bool :=
  !isControl c || (c.toNat < 0x80 && isTextByte (UInt8.ofNat c.toNat))

/-- Valid UTF-8 up to a character that the end of the buffer may cut off, without stray control
characters. -/
def isUtf8Text (buffer : List UInt8) : Bool :=
  let parts := Text.Utf8.split buffer
  (parts.2.isEmpty || Text.Utf8.isCutShort parts.2) && parts.1.all isTextChar

/-- The kind of content of a buffer. -/
def Kind.of (buffer : List UInt8) : Kind :=
  if buffer.isEmpty then .empty
  else if buffer.all isTextByte then .asciiText
  else if isUtf8Text buffer then .utf8Text
  else .data

/-- Identifies a buffer by its kind. Of text, the description names unusual line breaks. -/
def classify (buffer : List UInt8) : Identification :=
  match Kind.of buffer with
  | .empty => ⟨"empty", some "application/x-empty"⟩
  | .asciiText => ⟨"ASCII text" ++ (LineBreaks.of buffer).remark, some "text/plain"⟩
  | .utf8Text => ⟨"UTF-8 Unicode text" ++ (LineBreaks.of buffer).remark, some "text/plain"⟩
  | .data => ⟨"data", some "application/octet-stream"⟩

end Hallmark.Content
