/-!
# `Hallmark/Text/Utf8.lean` — UTF-8 in a list of bytes

`head?` reads the one well-formed sequence that a list of bytes starts with, if it starts with one.
`split` reads sequences as long as there are any, and leaves the bytes from the first one that fails;
a text is valid when nothing is left (`decode?`). `isCutShort` tells whether what is left is only the
start of a sequence, so that more bytes could complete it.

The second byte has a narrower range after four of the lead bytes: that is what keeps out overlong
forms (`E0`, `F0`), surrogates (`ED`) and values past the last code point (`F4`).
-/

set_option autoImplicit false

namespace Hallmark.Text.Utf8

/-- The bytes of a text. -/
def encode (cs : List Char) : List UInt8 := cs.flatMap String.utf8EncodeChar

def bytes (s : String) : List UInt8 := encode s.toList

/-- A byte that continues a sequence. -/
def isContinuation (b : UInt8) : Bool := 0x80 ≤ b && b ≤ 0xBF

/-- The number of bytes of a sequence with this first byte; 0 for a byte that starts none. -/
def width (lead : UInt8) : Nat :=
  if lead < 0x80 then 1
  else if lead < 0xC2 then 0
  else if lead < 0xE0 then 2
  else if lead < 0xF0 then 3
  else if lead < 0xF5 then 4
  else 0

/-- The second bytes that may follow a first byte. -/
def isSecond (lead second : UInt8) : Bool :=
  if lead == 0xE0 then 0xA0 ≤ second && second ≤ 0xBF
  else if lead == 0xED then 0x80 ≤ second && second ≤ 0x9F
  else if lead == 0xF0 then 0x90 ≤ second && second ≤ 0xBF
  else if lead == 0xF4 then 0x80 ≤ second && second ≤ 0x8F
  else isContinuation second

/-- The character whose sequence the bytes start with, and the bytes after it. -/
def head? : List UInt8 → Option (Char × List UInt8)
  | [] => none
  | a :: rest =>
    match width a, rest with
    | 1, rest => some (Char.ofNat a.toNat, rest)
    | 2, b :: rest =>
      if isSecond a b then
        some (Char.ofNat ((a.toNat - 0xC0) * 0x40 + (b.toNat - 0x80)), rest)
      else none
    | 3, b :: c :: rest =>
      if isSecond a b && isContinuation c then
        some (Char.ofNat ((a.toNat - 0xE0) * 0x1000 + (b.toNat - 0x80) * 0x40 + (c.toNat - 0x80)), rest)
      else none
    | 4, b :: c :: d :: rest =>
      if isSecond a b && isContinuation c && isContinuation d then
        some (Char.ofNat ((a.toNat - 0xF0) * 0x40000 + (b.toNat - 0x80) * 0x1000 +
          (c.toNat - 0x80) * 0x40 + (d.toNat - 0x80)), rest)
      else none
    | _, _ => none

/-- Reading a sequence takes at least one byte. -/
theorem length_lt_of_head? {bs rest : List UInt8} {c : Char} (h : head? bs = some (c, rest)) :
    rest.length < bs.length := by
  unfold head? at h
  split at h
  · simp at h
  · split at h
    · simp only [Option.some.injEq, Prod.mk.injEq] at h
      simp [← h.2]
    all_goals first
      | (split at h
         · simp only [Option.some.injEq, Prod.mk.injEq] at h
           simp only [← h.2, List.length_cons]
           omega
         · simp at h)
      | simp at h

/-- The longest valid text that the bytes start with, and the bytes after it. -/
def split (bs : List UInt8) : List Char × List UInt8 :=
  match _h : head? bs with
  | none => ([], bs)
  | some (c, rest) =>
    let tail := split rest
    (c :: tail.1, tail.2)
termination_by bs.length
decreasing_by exact length_lt_of_head? _h

/-- The text whose bytes these are; `none` if they are no valid text. -/
def decode? (bs : List UInt8) : Option (List Char) :=
  match split bs with
  | (cs, []) => some cs
  | (_, _ :: _) => none

/-- The bytes are a proper, non-empty start of some sequence. -/
def isCutShort : List UInt8 → Bool
  | [a] => 2 ≤ width a
  | [a, b] => 3 ≤ width a && isSecond a b
  | [a, b, c] => 4 ≤ width a && isSecond a b && isContinuation c
  | _ => false

/-- The bytes as text, with `instead` for every byte that belongs to no well-formed sequence. Reading
goes on at the byte after such a byte, so a sequence cut short gives one `instead` for each byte. -/
def scrub (instead : Char) : List UInt8 → List Char
  | [] => []
  | b :: bs =>
    match _h : head? (b :: bs) with
    | some (c, rest) => c :: scrub instead rest
    | none => instead :: scrub instead bs
termination_by bs => bs.length
decreasing_by
  · exact length_lt_of_head? _h
  · simp

end Hallmark.Text.Utf8
