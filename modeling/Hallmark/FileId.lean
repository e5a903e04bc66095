import Hallmark.Number.Digits
import Hallmark.Record.Field

/-!
# `Hallmark/FileId.lean` — the identifier of a file
-/

set_option autoImplicit false

namespace Hallmark

/-- The number that a host gives a file. -/
structure FileId where
  number : UInt64
deriving DecidableEq, Repr, Inhabited

namespace FileId

def toText (id : FileId) : String := Number.decimalText id.number.toNat

/-- The identifier as summaries name it. -/
def summary (id : FileId) : String := "FileId(" ++ id.toText ++ ")"

def toJson (id : FileId) : Json := Json.nat id.number.toNat

def ofJson? (j : Json) : Option FileId := (Record.word? j).map FileId.mk

end FileId

end Hallmark
