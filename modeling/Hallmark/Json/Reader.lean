import Hallmark.Json.Basic
import Hallmark.Number.Literal

/-!
# `Hallmark/Json/Reader.lean` — reading JSON

A reader for the grammar of RFC 8259, with nothing but blanks after the value. Every step takes at
least one character, so the length of the text bounds the steps; that bound is the fuel of the three
functions on values, elements and members.
-/

set_option autoImplicit false

namespace Hallmark.Json

/-- The four blanks of JSON. -/
def isSpace (c : Char) : Bool := c == ' ' || c == '\t' || c == '\n' || c == '\r'

def skipSpace (cs : List Char) : List Char := cs.dropWhile isSpace

/-! ## Strings -/

/-- The character that a letter stands for after a backslash. -/
def unescape? (c : Char) : Option Char :=
  match c with
  | '\x22' => some '\x22'
  | '\\' => some '\\'
  | '/' => some '/'
  | 'b' => some '\x08'
  | 'f' => some '\x0c'
  | 'n' => some '\n'
  | 'r' => some '\r'
  | 't' => some '\t'
  | _ => none

/-- The number of four hexadecimal digits. -/
def hex4? (a b c d : Char) : Option Nat := Number.digits? 16 0 [a, b, c, d]

/-- The first half of a surrogate pair. -/
def isHigh (n : Nat) : Bool := 0xD800 ≤ n && n ≤ 0xDBFF

/-- The second half of a surrogate pair. -/
def isLow (n : Nat) : Bool := 0xDC00 ≤ n && n ≤ 0xDFFF

/-- The character of a surrogate pair. -/
def ofPair (high low : Nat) : Char := Char.ofNat (0x10000 + (high - 0xD800) * 0x400 + (low - 0xDC00))

/-- What has been read of a string: its text, unless half of a pair stands in it, and the rest. -/
abbrev StringTail := Option (Option (List Char) × List Char)

def StringTail.cons (c : Char) (tail : StringTail) : StringTail :=
  tail.map fun p => (p.1.map (c :: ·), p.2)

/-- Marks that half of a pair stands here. -/
def StringTail.broken (tail : StringTail) : StringTail := tail.map fun p => (none, p.2)

/-- The tail after a waiting first half that nothing completed. -/
def StringTail.settle (waiting : Option Nat) (tail : StringTail) : StringTail :=
  if waiting.isSome then tail.broken else tail

/-- Reads a string after its opening quote. The first half of a surrogate pair waits for the second,
which must come next. -/
def stringTail (waiting : Option Nat) : List Char → StringTail
  | [] => none
  | '\x22' :: rest => StringTail.settle waiting (some (some [], rest))
  | '\\' :: 'u' :: a :: b :: c :: d :: rest =>
    match hex4? a b c d with
    | none => none
    | some n =>
      -- Two halves that meet make one character; any other half stays broken.
      match waiting, isLow n with
      | some high, true => (stringTail none rest).cons (ofPair high n)
      | _, true => (stringTail none rest).broken
      | _, false =>
        StringTail.settle waiting
          (if isHigh n then stringTail (some n) rest else (stringTail none rest).cons (Char.ofNat n))
  | '\\' :: c :: rest =>
    match unescape? c with
    | none => none
    | some x => StringTail.settle waiting ((stringTail none rest).cons x)
  | c :: rest =>
    if c.toNat < 0x20 then none else StringTail.settle waiting ((stringTail none rest).cons c)

/-- What stands before `rest` at the end of `cs`. -/
def before (cs rest : List Char) : List Char := cs.take (cs.length - rest.length)

def stringValue? (cs : List Char) : Option (Json × List Char) :=
  match stringTail none cs with
  | none => none
  | some (some found, rest) => some (.text (String.ofList found), rest)
  | some (none, rest) => some (.halfPair (String.ofList ('\x22' :: before cs rest)), rest)

/-! ## Numbers -/

def digitsTail? (cs : List Char) : Option (List Char) :=
  match cs with
  | c :: rest => if c.isDigit then some (rest.dropWhile Char.isDigit) else none
  | [] => none

/-- Reads digits without a leading zero: their value and the rest. -/
def integerTail? (cs : List Char) : Option (Nat × List Char) :=
  match cs with
  | '0' :: c :: rest => if c.isDigit then none else some (0, c :: rest)
  | _ =>
    match digitsTail? cs with
    | none => none
    | some rest => (Number.digits? 10 0 (before cs rest)).map fun n => (n, rest)

/-- Reads a fraction if there is a point; `none` if no digit follows it. -/
def fractionTail? (cs : List Char) : Option (List Char) :=
  match cs with
  | '.' :: rest => digitsTail? rest
  | _ => some cs

/-- Reads an exponent if there is one; `none` if it has no digits. -/
def exponentTail? (cs : List Char) : Option (List Char) :=
  match cs with
  | 'e' :: '+' :: rest | 'e' :: '-' :: rest | 'E' :: '+' :: rest | 'E' :: '-' :: rest =>
    digitsTail? rest
  | 'e' :: rest | 'E' :: rest => digitsTail? rest
  | _ => some cs

def number? (cs : List Char) : Option (Json × List Char) := do
  let (isNegative, body) := match cs with
    | '-' :: rest => (true, rest)
    | _ => (false, cs)
  let (n, afterInteger) ← integerTail? body
  let afterFraction ← fractionTail? afterInteger
  let rest ← exponentTail? afterFraction
  let isInteger := rest.length == afterInteger.length && !(isNegative && n == 0)
  if isInteger then
    return (.int (if isNegative then -(Int.ofNat n) else Int.ofNat n), rest)
  else
    return (.real (String.ofList (before cs rest)), rest)

/-! ## Values -/

/-- What has been read of an object: its members, unless half of a pair stands in a key, and the rest. -/
abbrev MembersTail := Option (Option (List (String × Json)) × List Char)

/-- Puts a member in front; its key is none if half of a pair stands in it. -/
def MembersTail.cons (key : Option (List Char)) (value : Json) (tail : MembersTail) : MembersTail :=
  tail.map fun p => (match key, p.1 with
    | some key, some members => some ((String.ofList key, value) :: members)
    | _, _ => none, p.2)

mutual

/-- Reads a value that no blank stands before. -/
def value? : (fuel : Nat) → List Char → Option (Json × List Char)
  | 0, _ => none
  | fuel + 1, cs =>
    match cs with
    | 'n' :: 'u' :: 'l' :: 'l' :: rest => some (.null, rest)
    | 't' :: 'r' :: 'u' :: 'e' :: rest => some (.bool true, rest)
    | 'f' :: 'a' :: 'l' :: 's' :: 'e' :: rest => some (.bool false, rest)
    | '\x22' :: rest => stringValue? rest
    | '[' :: rest =>
      match skipSpace rest with
      | ']' :: after => some (.array [], after)
      | first => (elements? fuel first).map fun p => (.array p.1, p.2)
    | '\x7b' :: rest =>
      match skipSpace rest with
      | '\x7d' :: after => some (.object [], after)
      | first =>
        match members? fuel first with
        | none => none
        | some (some members, after) => some (.object members, after)
        | some (none, after) => some (.halfPair (String.ofList (before cs after)), after)
    | _ => number? cs

/-- Reads one or more elements and the closing bracket. -/
def elements? : (fuel : Nat) → List Char → Option (List Json × List Char)
  | 0, _ => none
  | fuel + 1, cs =>
    match value? fuel cs with
    | none => none
    | some (element, rest) =>
      match skipSpace rest with
      | ']' :: after => some ([element], after)
      | ',' :: after => (elements? fuel (skipSpace after)).map fun p => (element :: p.1, p.2)
      | _ => none

/-- Reads one or more members and the closing brace. -/
def members? : (fuel : Nat) → List Char → MembersTail
  | 0, _ => none
  | fuel + 1, cs =>
    match cs with
    | '\x22' :: start =>
      match stringTail none start with
      | none => none
      | some (key, rest) =>
        match skipSpace rest with
        | ':' :: after =>
          match value? fuel (skipSpace after) with
          | none => none
          | some (value, rest) =>
            match skipSpace rest with
            | '\x7d' :: after => MembersTail.cons key value (some (some [], after))
            | ',' :: after => MembersTail.cons key value (members? fuel (skipSpace after))
            | _ => none
        | _ => none
    | _ => none

end

/-- The value that a text is; `none` if it is no JSON. -/
def ofChars? (cs : List Char) : Option Json :=
  match value? (2 * cs.length + 2) (skipSpace cs) with
  | some (value, rest) => if (skipSpace rest).isEmpty then some value else none
  | none => none

def ofString? (s : String) : Option Json := ofChars? s.toList

end Hallmark.Json
