import Hallmark.Number.Literal
import Hallmark.Number.Word
import Hallmark.Signature.Entry
import Hallmark.Signature.Error
import Hallmark.Signature.Escape
import Hallmark.Signature.Token
import Hallmark.Text.Line

/-!
# `Hallmark/Signature/EntryLine.lean` — reading an entry line

An entry line is its level as a run of `>`, then an offset, a type and a test as tokens, then the
message. The three tokens are taken apart before any of them is read, so a missing token is reported
before a faulty one; then the offset, the type and the test are read in this order. Each reader is
handed the number of the line, and whatever refuses a part of the line says it of that number.
-/

set_option autoImplicit false

namespace Hallmark.Signature

/-- An answer, or an error if there is none. -/
def orElse {α : Type} (answer : Option α) (error : DatabaseError) : Except DatabaseError α :=
  match answer with
  | some a => .ok a
  | none => .error error

/-! ## The offset -/

/-- Reads an offset. Only below the top level can it be relative. -/
def Offset.read (number level : Nat) (token : List Char) : Except DatabaseError Offset :=
  match token with
  | '(' :: _ => .error (.line number .indirectOffset)
  | '&' :: delta =>
    if level = 0 then .error (.line number .relativeAtTop)
    else
      (orElse (Number.literal? delta) (.line number (.invalidOffset (String.ofList token)))).map
        fun n => .relative n.toInt64
  | _ =>
    (orElse (Number.literal? token) (.line number (.invalidOffset (String.ofList token)))).map .absolute

/-! ## The type -/

/-- The width and byte order that the name of a numeric type stands for. -/
def numberType? (name : List Char) : Option (Nat × ByteOrder) :=
  match String.ofList name with
  | "byte" => some (1, .little)
  | "short" | "leshort" => some (2, .little)
  | "long" | "lelong" => some (4, .little)
  | "quad" | "lequad" => some (8, .little)
  | "beshort" => some (2, .big)
  | "belong" => some (4, .big)
  | "bequad" => some (8, .big)
  | _ => none

/-- The format of a numeric type. The name of an unsigned type starts with one more `u`. -/
def NumberFormat.named? (name : List Char) (mask : Option UInt64) : Option NumberFormat :=
  let format (isSigned : Bool) (p : Nat × ByteOrder) : NumberFormat := ⟨p.1, p.2, isSigned, mask⟩
  match name with
  | 'u' :: rest =>
    match numberType? rest with
    | some p => some (format false p)
    | none => (numberType? name).map (format true)
  | _ => (numberType? name).map (format true)

/-- Sets the flag of one letter. Letters that only hint at how to print are accepted and do nothing. -/
def PatternFlags.set (number : Nat) (flags : PatternFlags) (letter : Char) :
    Except DatabaseError PatternFlags :=
  match letter with
  | 'c' | 'C' => .ok { flags with ignoreCase := true }
  | 'W' => .ok { flags with compactBlanks := true }
  | 'w' => .ok { flags with optionalBlanks := true }
  | 't' | 'b' | 'T' | 's' => .ok flags
  | _ => .error (.line number (.unknownFlag letter))

structure Modifiers where
  flags : PatternFlags := {}
  range : Option UInt64 := none
deriving DecidableEq, Repr

/-- A part that is read as a range: only digits, or started by `0x`. -/
def isRange (part : List Char) : Bool :=
  part.all Char.isDigit || (Text.stripStart? ['0', 'x'] part).isSome

/-- Reads one part: a range, or letters of flags. An empty part says nothing. -/
def Modifiers.addPart (number : Nat) (modifiers : Modifiers) (part : List Char) :
    Except DatabaseError Modifiers :=
  if part.isEmpty then .ok modifiers
  else if isRange part then
    (orElse (Number.literal? part) (.line number (.invalidRange (String.ofList part)))).map fun n =>
      { modifiers with range := some n }
  else
    (part.foldlM (PatternFlags.set number) modifiers.flags).map fun flags =>
      { modifiers with flags := flags }

/-- The type that a name and its parts stand for, if it is a type of text. -/
def ValueType.ofText (number : Nat) (name : List Char) (parts : List (List Char)) :
    Except DatabaseError ValueType := do
  let modifiers ← parts.foldlM (Modifiers.addPart number) {}
  match String.ofList name with
  | "string" => .ok (.text modifiers.flags)
  | "search" =>
    (orElse modifiers.range (.line number .searchWithoutRange)).map fun range =>
      .search range modifiers.flags
  | _ => .error (.line number (.unknownType (String.ofList name)))

/-- The type that a name and the parts after it stand for, with a mask if there is one. -/
def ValueType.named (number : Nat) (name : List Char) (parts : List (List Char))
    (mask : Option UInt64) : Except DatabaseError ValueType :=
  match NumberFormat.named? name mask with
  | some format =>
    if parts.isEmpty then .ok (.number format)
    else .error (.line number (.numberWithModifiers (String.ofList name)))
  | none =>
    if mask.isSome then .error (.line number (.textWithMask (String.ofList name)))
    else ValueType.ofText number name parts

/-- Reads a type: a name, parts after slashes, and after an ampersand a mask, which is read first. -/
def ValueType.read (number : Nat) (token : List Char) : Except DatabaseError ValueType := do
  let (base, mask) ←
    match Text.splitAt? '&' token with
    | some (base, mask) =>
      (orElse (Number.literal? mask) (.line number (.invalidMask (String.ofList mask)))).map fun n =>
        (base, some n)
    | none => .ok (token, none)
  match Text.pieces '/' base with
  -- There is always at least one piece.
  | [] => ValueType.named number [] [] mask
  | name :: parts => ValueType.named number name parts mask

/-! ## The test -/

/-- The comparison of numbers that a test starts with, and what is left of the token. -/
def NumberOp.leading (token : List Char) : NumberOp × List Char :=
  match token with
  | '=' :: rest => (.equal, rest)
  | '!' :: rest => (.notEqual, rest)
  | '<' :: rest => (.less, rest)
  | '>' :: rest => (.greater, rest)
  | '&' :: rest => (.allSet, rest)
  | '^' :: rest => (.notAllSet, rest)
  | _ => (.equal, token)

/-- The comparison of byte strings that a test starts with, and what is left of the token. -/
def TextOp.leading (token : List Char) : TextOp × List Char :=
  match token with
  | '=' :: rest => (.equal, rest)
  | '!' :: rest => (.notEqual, rest)
  | '<' :: rest => (.less, rest)
  | '>' :: rest => (.greater, rest)
  | _ => (.equal, token)

/-- Reads the test of a number. The value is cut to the width that it is compared in. -/
def Test.readNumber (number width : Nat) (token : List Char) : Except DatabaseError Test :=
  if token = ['x'] then .ok (.number .any 0)
  else
    let (op, rest) := NumberOp.leading token
    (orElse (Number.literal? rest) (.line number (.invalidNumberTest (String.ofList token)))).map
      fun n => .number op (Number.truncate n width)

/-- Reads the test of a byte string. Its pattern is not empty. -/
def Test.readText (number : Nat) (token : List Char) : Except DatabaseError Test :=
  if token = ['x'] then .ok (.text .any [])
  else do
    let (op, rest) := TextOp.leading token
    match ← (Escape.resolve rest).mapError (.line number) with
    | [] => .error (.line number .emptyPattern)
    | pattern => .ok (.text op pattern)

def Test.read (number : Nat) (type : ValueType) (token : List Char) : Except DatabaseError Test :=
  match type with
  | .number format => Test.readNumber number format.width token
  | .text _ | .search _ _ => Test.readText number token

/-! ## The line -/

/-- Reads an entry line that starts with no blank. -/
def Entry.read (number : Nat) (line : List Char) : Except DatabaseError Entry := do
  let level := (line.takeWhile (· == '>')).length
  let (offsetToken, rest) ← orElse (Token.next? (line.drop level)) (.line number .missingOffset)
  let (typeToken, rest) ← orElse (Token.next? rest) (.line number .missingType)
  let (testToken, rest) ← orElse (Token.next? rest) (.line number .missingTest)
  -- All three tokens are there before the first of them is looked into.
  let offset ← Offset.read number level offsetToken
  let type ← ValueType.read number typeToken
  let test ← Test.read number type testToken
  return {
    level := level
    line := number
    offset := offset
    type := type
    test := test
    message := String.ofList (Text.trim rest)
    mime := none
    adjustment := none }

end Hallmark.Signature
