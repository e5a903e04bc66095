import Hallmark.Record.Field

/-!
# `Hallmark/Module/Info.lean` — what a module says about itself
-/

set_option autoImplicit false

namespace Hallmark

/-- What a module says about itself. -/
structure ModuleInfo where
  name : String
  description : String
  version : String
deriving DecidableEq, Repr

namespace ModuleInfo

def toJson (info : ModuleInfo) : Json :=
  .object [("name", .text info.name), ("description", .text info.description),
    ("version", .text info.version)]

def ofJson? (j : Json) : Option ModuleInfo := do
  let fields ← Record.fields? ["name", "description", "version"] j
  return {
    name := ← fields.required? "name" Record.text?
    description := ← fields.required? "description" Record.text?
    version := ← fields.required? "version" Record.text? }

end ModuleInfo

end Hallmark
