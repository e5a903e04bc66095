import Hallmark.Json.Basic
import Hallmark.Number.Word

/-!
# `Hallmark/Record/Field.lean` — reading records out of JSON

A record is read from an object by the names of its fields, or from an array by their places. Members
of an object that are no field are ignored, a field that stands twice is refused, and a field that may
be absent may also be null. A number is read only where it is an integer that fits.
-/

set_option autoImplicit false

namespace Hallmark.Record

variable {α : Type}

def text? : Json → Option String
  | .text s => some s
  | _ => none

def intBetween? (low high : Int) : Json → Option Int
  | .int n => if low ≤ n ∧ n < high then some n else none
  | _ => none

/-- A natural number of 64 bits. -/
def word? (j : Json) : Option UInt64 :=
  (intBetween? 0 Number.wordLimit j).map fun n => UInt64.ofNat n.toNat

/-- A size: a natural number that a word of 64 bits can hold. -/
def size? (j : Json) : Option Nat := (word? j).map UInt64.toNat

def byte? (j : Json) : Option UInt8 :=
  (intBetween? 0 256 j).map fun n => UInt8.ofNat n.toNat

def signed? (j : Json) : Option Int64 :=
  (intBetween? (-Number.signedLimit) Number.signedLimit j).map Int64.ofInt

def list? (element? : Json → Option α) : Json → Option (List α)
  | .array elements => elements.mapM element?
  | _ => none

/-- A value, or nothing for null. -/
def nullable? (value? : Json → Option α) : Json → Option (Option α)
  | .null => some none
  | j => (value? j).map some

def name? (names : List (String × α)) : Json → Option α
  | .text name => names.lookup name
  | _ => none

/-- One of some names: a text, or an object whose only member has the name and is null. -/
def choice? (names : List (String × α)) : Json → Option α
  | .object [(name, .null)] => names.lookup name
  | j => name? names j

abbrev Fields := List (String × Json)

/-- The fields of a record. -/
def fields? (names : List String) : Json → Option Fields
  | .object members =>
    let known := members.filter fun m => names.contains m.1
    if (known.map Prod.fst).Nodup then some known else none
  | .array elements => if elements.length = names.length then some (names.zip elements) else none
  | _ => none

namespace Fields

/-- The value of a field that must be there. -/
def required? (fields : Fields) (name : String) (value? : Json → Option α) : Option α :=
  (fields.lookup name).bind value?

/-- The value of a field that may be absent or null. -/
def optional? (fields : Fields) (name : String) (value? : Json → Option α) : Option (Option α) :=
  nullable? value? ((fields.lookup name).getD .null)

end Fields

end Hallmark.Record
