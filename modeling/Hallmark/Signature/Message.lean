import Hallmark.Content.Label
import Hallmark.Number.Digits
import Hallmark.Number.Word

/-!
# `Hallmark/Signature/Message.lean` — message templates

A template is text with conversions, each of which prints the value that an entry matched. A
conversion is `%`, then flags, a width, a precision after a point, length letters, and one character
that chooses the form. `Template.read` cuts a template into plain characters and conversions, and
`Piece.render` prints one of them.

Widths and precisions are clamped at 1024 while they are read, so that no template can ask for a field
of arbitrary size. A character that chooses no form is printed after a percent sign; what stood between
them is not.
-/

set_option autoImplicit false

namespace Hallmark.Signature

inductive MatchValue where
  /-- A number read from `width` bytes. -/
  | number (word : UInt64) (width : Nat)
  /-- Bytes of the buffer. -/
  | bytes (data : List UInt8)
deriving DecidableEq, Repr

/-- How a conversion is laid out. -/
structure Layout where
  left : Bool := false
  zero : Bool := false
  alternate : Bool := false
  width : Nat := 0
  precision : Option Nat := none
deriving DecidableEq, Repr

inductive Piece where
  | plain (c : Char)
  | conversion (layout : Layout) (form : Char)
  /-- A conversion that the end of the template cuts off. -/
  | unfinished
deriving DecidableEq, Repr

namespace Template

/-- The largest width or precision. -/
def maxCount : Nat := 1024

/-- The count that digits spell, clamped after each digit. -/
def countOf (ds : List Char) : Nat :=
  ds.foldl (fun acc d => min (acc * 10 + (d.toNat - 0x30)) maxCount) 0

/-- Reads a clamped count; no digits count as 0. -/
def count (cs : List Char) : Nat × List Char :=
  (countOf (cs.takeWhile Char.isDigit), cs.dropWhile Char.isDigit)

/-- Reads flags. Plus signs and spaces are accepted and do nothing. -/
def flags (layout : Layout) : List Char → Layout × List Char
  | '-' :: cs => flags { layout with left := true } cs
  | '0' :: cs => flags { layout with zero := true } cs
  | '#' :: cs => flags { layout with alternate := true } cs
  | '+' :: cs => flags layout cs
  | ' ' :: cs => flags layout cs
  | cs => (layout, cs)

/-- Reads a precision, if a point stands here. -/
def precision : List Char → Option Nat × List Char
  | '.' :: cs =>
    let n := count cs
    (some n.1, n.2)
  | cs => (none, cs)

/-- A letter that tells the length of an argument. Lengths are known here, so it does nothing. -/
def isLength (c : Char) : Bool :=
  c == 'h' || c == 'l' || c == 'q' || c == 'j' || c == 'z' || c == 't' || c == 'L'

/-- Reads what stands between a percent sign and the character that chooses the form. -/
def layout (cs : List Char) : Layout × List Char :=
  let f := flags {} cs
  let w := count f.2
  let p := precision w.2
  ({ f.1 with width := w.1, precision := p.1 }, p.2.dropWhile isLength)

theorem length_dropWhile_le (p : Char → Bool) (cs : List Char) :
    (cs.dropWhile p).length ≤ cs.length := (List.dropWhile_sublist p).length_le

theorem length_flags_le (l : Layout) (cs : List Char) : (flags l cs).2.length ≤ cs.length := by
  fun_induction flags l cs <;> simp only [List.length_cons] <;> omega

theorem length_precision_le (cs : List Char) : (precision cs).2.length ≤ cs.length := by
  unfold precision
  split
  · have := length_dropWhile_le Char.isDigit
    simp only [count, List.length_cons]
    exact Nat.le_succ_of_le (this _)
  · exact Nat.le_refl _

theorem length_layout_le (cs : List Char) : (layout cs).2.length ≤ cs.length :=
  calc (layout cs).2.length
      ≤ (precision (count (flags {} cs).2).2).2.length := length_dropWhile_le _ _
    _ ≤ (count (flags {} cs).2).2.length := length_precision_le _
    _ ≤ (flags {} cs).2.length := length_dropWhile_le _ _
    _ ≤ cs.length := length_flags_le _ _

/-- The pieces of a template. Two percent signs are one plain percent sign. -/
def read : List Char → List Piece
  | [] => []
  -- After a flag or a width a percent sign stands where a form is chosen, and chooses none.
  | '%' :: '%' :: cs => .plain '%' :: read cs
  | '%' :: cs =>
    match _h : layout cs with
    | (_, []) => [.unfinished]
    | (l, form :: rest) => .conversion l form :: read rest
  | c :: cs => .plain c :: read cs
termination_by cs => cs.length
decreasing_by
  · simp only [List.length_cons]; omega
  · have := length_layout_le cs
    simp only [_h, List.length_cons] at this ⊢
    omega
  · simp

end Template

/-- Pads a text to the width of a layout: with spaces after it, with zeros after its sign if it is a
number, or with spaces before it. -/
def Layout.pad (layout : Layout) (isNumber : Bool) (body : List Char) : List Char :=
  let fill := layout.width - body.length
  if layout.left then body ++ List.replicate fill ' '
  else if layout.zero && isNumber then
    match body with
    | '-' :: digits => '-' :: (List.replicate fill '0' ++ digits)
    | _ => List.replicate fill '0' ++ body
  else List.replicate fill ' ' ++ body

/-- A number in the form of a conversion, with whether it can be padded with zeros; `none` if the
character chooses no form. -/
def numberForm? (layout : Layout) (form : Char) (word : UInt64) (width : Nat) :
    Option (List Char × Bool) :=
  let n := word.toNat
  let based (mark : List Char) (ds : List Char) : Option (List Char × Bool) :=
    some (if layout.alternate then mark ++ ds else ds, true)
  match form with
  | 'd' | 'i' => some (Number.decimal (Number.signed word width), true)
  | 'u' => some (Number.digits 10 n, true)
  | 'x' => based ['0', 'x'] (Number.digits 16 n)
  | 'X' => based ['0', 'X'] (Number.upperDigits 16 n)
  | 'o' => based ['0'] (Number.digits 8 n)
  | 'c' => some ([Char.ofNat (n % 256)], false)
  | 's' => some (Number.digits 10 n, false)
  | _ => none

/-- The characters that choose a form. -/
def isForm (c : Char) : Bool :=
  c == 'd' || c == 'i' || c == 'u' || c == 'x' || c == 'X' || c == 'o' || c == 'c' || c == 's'

/-- Bytes as text, cut at the precision first. -/
def bytesForm (layout : Layout) (data : List UInt8) : List Char :=
  Text.Utf8.scrub Content.replacement (match layout.precision with
    | some n => data.take n
    | none => data)

def Piece.render (value : MatchValue) : Piece → List Char
  | .plain c => [c]
  | .unfinished => ['%']
  | .conversion layout form =>
    match value with
    | .number word width =>
      match numberForm? layout form word width with
      | some (body, isNumber) => layout.pad isNumber body
      | none => ['%', form]
    | .bytes data =>
      if isForm form then layout.pad false (bytesForm layout data) else ['%', form]

def Template.render (template : List Char) (value : MatchValue) : List Char :=
  (Template.read template).flatMap (Piece.render value)

end Hallmark.Signature
