import Hallmark.Json.Basic
import Hallmark.Table

/-!
# `Hallmark/Host/Property.lean` — what the host tells its modules

A host has a few properties, each a directory, that its modules may ask for. They can be read from
environment variables; a variable that is empty counts as absent.
-/

set_option autoImplicit false

namespace Hallmark.Host

inductive Property where
  /-- Where the data of modules is installed. -/
  | moduleDirectory
  /-- Where the output of a case goes. -/
  | outputDirectory
  /-- Where output goes that belongs to no case. -/
  | systemOutputDirectory
deriving DecidableEq, Repr

namespace Property

def all : List Property := [.moduleDirectory, .outputDirectory, .systemOutputDirectory]

theorem mem_all (property : Property) : property ∈ all := by cases property <;> decide

def name : Property → String
  | .moduleDirectory => "module_dir"
  | .outputDirectory => "output_dir"
  | .systemOutputDirectory => "system_out_dir"

/-- The name of a property in records. -/
def recordName : Property → String
  | .moduleDirectory => "ModuleDir"
  | .outputDirectory => "OutputDir"
  | .systemOutputDirectory => "SystemOutDir"

def environmentName : Property → String
  | .moduleDirectory => "SIGBRIDGE_MODULE_DIR"
  | .outputDirectory => "SIGBRIDGE_OUT_DIR"
  | .systemOutputDirectory => "SIGBRIDGE_SYSTEM_OUT_DIR"

end Property

/-- The values of the properties that are set. -/
abbrev Properties := Table Property String

namespace Properties

/-- The properties that environment variables set. -/
def ofEnvironment (value? : String → Option String) : Properties :=
  Property.all.foldl (fun properties property =>
    match value? property.environmentName with
    | some value => if value.isEmpty then properties else properties.insert property value
    | none => properties) {}

def toJson (properties : Properties) : Json :=
  .object [("values", .object (properties.entries.map fun p => (p.1.recordName, .text p.2)))]

end Properties

end Hallmark.Host
