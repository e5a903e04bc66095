import Hallmark.Host.Property
import Hallmark.Module.Error
import Hallmark.Volume.Path

/-!
# `Hallmark/Module/Config.lean` — the settings of the file type module

Where the signature database is, how much of a file is read, how long a label may be and which part of
an identification becomes the label. Main statement: `validate_eq_ok_iff`.
-/

set_option autoImplicit false

namespace Hallmark

/-- Which part of an identification is posted. -/
inductive LabelFormat where
  | description
  /-- The MIME type; the description where none is known. -/
  | mime
deriving DecidableEq, Repr

namespace LabelFormat

def toJson : LabelFormat → Json
  | .description => .text "description"
  | .mime => .text "mime"

def ofJson? : Json → Option LabelFormat :=
  Record.choice? [("description", .description), ("mime", .mime)]

/-- The part of an identification that becomes its label. -/
def select (format : LabelFormat) (identification : Identification) : String :=
  match format, identification.mime with
  | .mime, some type => type
  | _, _ => identification.description

end LabelFormat

structure ModuleConfig where
  /-- Where the data of modules is installed. -/
  moduleDirectory : Option String := none
  /-- The database file within the directory of this module. -/
  databaseFile : String := "magic.mgc"
  /-- How many bytes at the start of a file are read. -/
  bufferSize : Nat := 1024
  /-- How many bytes a label may have. -/
  maxLabelLength : Nat := 1023
  labelFormat : LabelFormat := .description
deriving DecidableEq, Repr

namespace ModuleConfig

/-- The directory of this module among those of all modules. -/
def dataDirectory : String := "FileTypeSigModule"

/-- The settings that the properties of a host give. -/
def ofProperties (properties : Host.Properties) : ModuleConfig :=
  { moduleDirectory := properties.get? .moduleDirectory }

/-- Sets how many bytes are read; at least one always is. -/
def withBufferSize (config : ModuleConfig) (size : Nat) : ModuleConfig :=
  { config with bufferSize := max size 1 }

/-- Refuses settings under which nothing could be identified. -/
def validate (config : ModuleConfig) : Except ModuleError Unit :=
  if config.bufferSize = 0 then .error (.configuration "buffer_size must be at least 1")
  else if config.databaseFile.isEmpty then
    .error (.configuration "database_file must not be empty")
  else .ok ()

theorem validate_eq_ok_iff (config : ModuleConfig) :
    config.validate = .ok () ↔ 0 < config.bufferSize ∧ config.databaseFile.isEmpty = false := by
  unfold validate
  split
  · next hsize => simp [hsize]
  · next hsize =>
    have hpositive : 0 < config.bufferSize := Nat.pos_of_ne_zero hsize
    split
    · next hempty => simp [hempty]
    · next hempty => simp [hpositive, hempty]

def databasePath? (config : ModuleConfig) : Option String :=
  config.moduleDirectory.map fun directory =>
    Volume.Path.join (Volume.Path.join directory dataDirectory) config.databaseFile

def toJson (config : ModuleConfig) : Json :=
  .object [("module_dir", Json.optionalText config.moduleDirectory),
    ("database_file", .text config.databaseFile), ("buffer_size", Json.nat config.bufferSize),
    ("max_label_len", Json.nat config.maxLabelLength), ("label_format", config.labelFormat.toJson)]

def ofJson? (j : Json) : Option ModuleConfig := do
  let fields ← Record.fields?
    ["module_dir", "database_file", "buffer_size", "max_label_len", "label_format"] j
  return {
    moduleDirectory := ← fields.optional? "module_dir" Record.text?
    databaseFile := ← fields.required? "database_file" Record.text?
    bufferSize := ← fields.required? "buffer_size" Record.size?
    maxLabelLength := ← fields.required? "max_label_len" Record.size?
    labelFormat := ← fields.required? "label_format" LabelFormat.ofJson? }

end ModuleConfig

end Hallmark
