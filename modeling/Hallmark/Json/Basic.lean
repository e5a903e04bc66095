/-!
# `Hallmark/Json/Basic.lean` — JSON values

A JSON value as it stands in a text: members of an object keep their order and may repeat, and what a
number or a string cannot be as data is kept by its spelling. Records never hold such a value; it can
only stand where nothing reads it.
-/

set_option autoImplicit false

namespace Hallmark

inductive Json where
  | null
  | bool (b : Bool)
  | int (n : Int)
  /-- A number with a fraction or an exponent, or minus zero. -/
  | real (spelling : String)
  | text (s : String)
  /-- A string that names half of a surrogate pair, and so is no text; or an object with such a key. -/
  | halfPair (spelling : String)
  | array (elements : List Json)
  | object (members : List (String × Json))
deriving Repr, BEq, Inhabited

namespace Json

def nat (n : Nat) : Json := .int (Int.ofNat n)

def optionalText : Option String → Json
  | none => .null
  | some s => .text s

end Json

end Hallmark
