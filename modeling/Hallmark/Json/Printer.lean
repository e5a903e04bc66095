import Hallmark.Json.Basic
import Hallmark.Number.Digits

/-!
# `Hallmark/Json/Printer.lean` — writing JSON

Values are written either compact, on one line without spaces, or indented by two spaces a level, with
one element or member on a line and nothing inside empty brackets. Strings escape the quote, the
backslash and control characters below the space; all other characters stand for themselves.
-/

set_option autoImplicit false

namespace Hallmark.Json

/-- The spelling of one character in a string. -/
def escape (c : Char) : List Char :=
  if c = '\x22' then ['\\', '\x22']
  else if c = '\\' then ['\\', '\\']
  else if c = '\n' then ['\\', 'n']
  else if c = '\r' then ['\\', 'r']
  else if c = '\t' then ['\\', 't']
  else if c = '\x08' then ['\\', 'b']
  else if c = '\x0c' then ['\\', 'f']
  else if c.toNat < 0x10 then ['\\', 'u', '0', '0', '0'] ++ Number.digits 16 c.toNat
  else if c.toNat < 0x20 then ['\\', 'u', '0', '0'] ++ Number.digits 16 c.toNat
  else [c]

def quoted (s : String) : List Char := '\x22' :: (s.toList.flatMap escape ++ ['\x22'])

/-- A value without elements or members. -/
def scalar : Json → List Char
  | .null => ['n', 'u', 'l', 'l']
  | .bool true => ['t', 'r', 'u', 'e']
  | .bool false => ['f', 'a', 'l', 's', 'e']
  | .int n => Number.decimal n
  | .real spelling => spelling.toList
  | .text s => quoted s
  | .halfPair spelling => spelling.toList
  | .array _ | .object _ => []

/-! ## On one line -/

mutual

/-- The characters of a value on one line. -/
def compactChars : Json → List Char
  | .array elements => '[' :: ([','].intercalate (compactElements elements) ++ [']'])
  | .object members => '\x7b' :: ([','].intercalate (compactMembers members) ++ ['\x7d'])
  | value => scalar value
termination_by structural value => value

def compactElements : List Json → List (List Char)
  | [] => []
  | e :: es => compactChars e :: compactElements es
termination_by structural es => es

def compactMembers : List (String × Json) → List (List Char)
  | [] => []
  | m :: ms => compactMember m :: compactMembers ms
termination_by structural ms => ms

def compactMember : String × Json → List Char
  | (key, value) => quoted key ++ ':' :: compactChars value
termination_by structural m => m

end

def compact (value : Json) : String := String.ofList (compactChars value)

/-! ## On indented lines -/

/-- The start of a line at a level of indentation. -/
def newLine (level : Nat) : List Char := '\n' :: List.replicate (2 * level) ' '

/-- Items on lines of their own between brackets. -/
def block (opening closing : Char) (level : Nat) (items : List (List Char)) : List Char :=
  match items with
  | [] => [opening, closing]
  | _ => opening :: ([','].intercalate (items.map (newLine (level + 1) ++ ·)) ++ newLine level ++ [closing])

mutual

/-- The characters of a value that starts at a level of indentation. -/
def indentedChars (level : Nat) : Json → List Char
  | .array elements => block '[' ']' level (indentedElements (level + 1) elements)
  | .object members => block '\x7b' '\x7d' level (indentedMembers (level + 1) members)
  | value => scalar value
termination_by structural value => value

def indentedElements (level : Nat) : List Json → List (List Char)
  | [] => []
  | e :: es => indentedChars level e :: indentedElements level es
termination_by structural es => es

def indentedMembers (level : Nat) : List (String × Json) → List (List Char)
  | [] => []
  | m :: ms => indentedMember level m :: indentedMembers level ms
termination_by structural ms => ms

def indentedMember (level : Nat) : String × Json → List Char
  | (key, value) => quoted key ++ ':' :: ' ' :: indentedChars level value
termination_by structural m => m

end

def indented (value : Json) : String := String.ofList (indentedChars 0 value)

end Hallmark.Json
