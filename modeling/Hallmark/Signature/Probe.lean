import Hallmark.Signature.Comparison
import Hallmark.Signature.Entry
import Hallmark.Signature.Message
import Hallmark.Signature.Pattern

/-!
# `Hallmark/Signature/Probe.lean` — testing one entry

An entry is tested at the offset that its own position and the end of its parent's match give. A
successful test says where the match ends and which value it found. A numeric value must lie in the
buffer as a whole; a pattern compares from any offset up to the end of the buffer; a search tries one
position after the other and takes the first at which the pattern stands, whatever the comparison.
-/

set_option autoImplicit false

namespace Hallmark.Signature

structure Match where
  /-- Where the match ends, counted from the start of the buffer. -/
  stop : Nat
  value : MatchValue
deriving DecidableEq, Repr

/-- The position that an offset stands for. A relative one is counted in signed 64-bit words: it is
`none` before the buffer, and also if its base or the sum does not fit such a word. -/
def Offset.resolve (parentStop : Nat) : Offset → Option Nat
  | .absolute position => some position.toNat
  | .relative delta =>
    let position := (parentStop : Int) + delta.toInt
    if (parentStop : Int) < Number.signedLimit ∧ 0 ≤ position ∧ position < Number.signedLimit then
      some position.toNat
    else none

/-- The word that bytes stand for, with the bits that the mask keeps. -/
def NumberFormat.word (format : NumberFormat) (bytes : List UInt8) : UInt64 :=
  let n := match format.order with
    | .little => Number.ofLittleEndian bytes
    | .big => Number.ofBigEndian bytes
  match format.mask with
  | some mask => UInt64.ofNat n &&& mask
  | none => UInt64.ofNat n

def probeNumber (format : NumberFormat) (op : NumberOp) (expected : UInt64) (buffer : List UInt8)
    (offset : Nat) : Option Match :=
  if offset + format.width ≤ buffer.length then
    let word := format.word ((buffer.drop offset).take format.width)
    if op.holds word expected format.width format.isSigned then
      some ⟨offset + format.width, .number word format.width⟩
    else none
  else none

/-- The longest text that a test other than an equality prints. -/
def maxPrinted : Nat := 64

/-- The printable text at the front: up to a NUL or a line break. -/
def printable (data : List UInt8) : List UInt8 :=
  (data.take maxPrinted).takeWhile fun b => b != 0x00 && b != 0x0A && b != 0x0D

/-- Printable text stands at the front. -/
theorem printable_prefix (data : List UInt8) : printable data <+: data :=
  (List.takeWhile_prefix _).trans (List.take_prefix _ _)

/-- A match of what can be printed at an offset. -/
def Match.printed (data : List UInt8) (offset : Nat) : Match :=
  let text := printable data
  ⟨offset + text.length, .bytes text⟩

/-- A match of the bytes that the pattern took. -/
def Match.taken (data : List UInt8) (offset count : Nat) : Match :=
  ⟨offset + count, .bytes (data.take count)⟩

/-- Tests a pattern at an offset. The two orders need as many bytes as the pattern has. -/
def probeText (flags : PatternFlags) (op : TextOp) (pattern buffer : List UInt8) (offset : Nat) :
    Option Match :=
  if buffer.length < offset then none
  else
    let data := buffer.drop offset
    let window := flags.folded (data.take pattern.length)
    let wanted := flags.folded pattern
    match op with
    | .any => some (.printed data offset)
    | .equal => (Pattern.match? flags pattern data).map (.taken data offset)
    | .notEqual =>
      if (Pattern.match? flags pattern data).isNone then some (.printed data offset) else none
    | .less =>
      if pattern.length ≤ data.length ∧ window < wanted then some (.printed data offset) else none
    | .greater =>
      if pattern.length ≤ data.length ∧ wanted < window then some (.printed data offset) else none

/-- Looks for a pattern at `tries` positions from the front of `data` on, which stands at `offset`. -/
def findText (flags : PatternFlags) (pattern : List UInt8) :
    (tries : Nat) → (data : List UInt8) → (offset : Nat) → Option Match
  | 0, _, _ => none
  | _ + 1, [], _ => none
  | tries + 1, b :: rest, offset =>
    match Pattern.match? flags pattern (b :: rest) with
    | some count => some (.taken (b :: rest) offset count)
    | none => findText flags pattern tries rest (offset + 1)

/-- Tests an entry against a buffer, below a match that ends at `parentStop`. A type of one kind with a
test of the other never matches. -/
def Entry.probe (entry : Entry) (buffer : List UInt8) (parentStop : Nat) : Option Match :=
  match entry.offset.resolve parentStop with
  | none => none
  | some offset =>
    match entry.type, entry.test with
    | .number format, .number op value => probeNumber format op value buffer offset
    | .text flags, .text op pattern => probeText flags op pattern buffer offset
    | .search _ flags, .text .any pattern => probeText flags .any pattern buffer offset
    -- Even a test for difference looks for the pattern here.
    | .search range flags, .text _ pattern =>
      findText flags pattern range.toNat (buffer.drop offset) offset
    | _, _ => none

section Probe

variable {entry : Entry} {buffer pattern : List UInt8} {parentStop offset : Nat}
  {flags : PatternFlags} {op : TextOp}

theorem Entry.probe_number {format : NumberFormat} {op : NumberOp} {value : UInt64}
    (hoffset : entry.offset.resolve parentStop = some offset) (htype : entry.type = .number format)
    (htest : entry.test = .number op value) :
    entry.probe buffer parentStop = probeNumber format op value buffer offset := by
  simp only [Entry.probe, hoffset, htype, htest]

theorem Entry.probe_text (hoffset : entry.offset.resolve parentStop = some offset)
    (htype : entry.type = .text flags) (htest : entry.test = .text op pattern) :
    entry.probe buffer parentStop = probeText flags op pattern buffer offset := by
  simp only [Entry.probe, hoffset, htype, htest]

/-- A test that has something to compare looks for its pattern, whatever the comparison. -/
theorem Entry.probe_search {range : UInt64}
    (hoffset : entry.offset.resolve parentStop = some offset)
    (htype : entry.type = .search range flags) (htest : entry.test = .text op pattern)
    (hop : op ≠ .any) :
    entry.probe buffer parentStop =
      findText flags pattern range.toNat (buffer.drop offset) offset := by
  cases op with
  | any => exact absurd rfl hop
  | equal | notEqual | less | greater => simp only [Entry.probe, hoffset, htype, htest]

end Probe

end Hallmark.Signature
