import Hallmark.Record.Field

/-!
# `Hallmark/Identification.lean` — what a buffer was identified as
-/

set_option autoImplicit false

namespace Hallmark

/-- What kind of content a buffer holds: a description for people, and a MIME type if one is known. -/
structure Identification where
  description : String
  mime : Option String := none
deriving DecidableEq, Repr, Inhabited

namespace Identification

def toJson (identification : Identification) : Json :=
  .object [("description", .text identification.description),
    ("mime", Json.optionalText identification.mime)]

def ofJson? (j : Json) : Option Identification := do
  let fields ← Record.fields? ["description", "mime"] j
  return {
    description := ← fields.required? "description" Record.text?
    mime := ← fields.optional? "mime" Record.text? }

end Identification

end Hallmark
