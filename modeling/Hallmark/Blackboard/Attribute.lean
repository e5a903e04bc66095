import Hallmark.FileId
import Hallmark.Record.Time

/-!
# `Hallmark/Blackboard/Attribute.lean` — facts about files

An attribute is one fact that a module posts about a file. The attributes of a file are gathered in
artifacts; the artifact of general information is the one that modules post to.
-/

set_option autoImplicit false

namespace Hallmark.Blackboard

open Time (Timestamp)

inductive AttributeType where
  /-- The type of the file's content, found by its signature. -/
  | fileTypeSig
  | mimeType
  | comment
deriving DecidableEq, Repr

namespace AttributeType

/-- The name under which other tools know the type. -/
def name : AttributeType → String
  | .fileTypeSig => "TSK_FILE_TYPE_SIG"
  | .mimeType => "TSK_MIME_TYPE"
  | .comment => "TSK_COMMENT"

/-- The name of the type in records. -/
def recordName : AttributeType → String
  | .fileTypeSig => "file_type_sig"
  | .mimeType => "mime_type"
  | .comment => "comment"

def toJson (type : AttributeType) : Json := .text type.recordName

def ofJson? : Json → Option AttributeType :=
  Record.choice? ([.fileTypeSig, .mimeType, .comment].map fun type => (recordName type, type))

end AttributeType

inductive AttributeValue where
  | text (s : String)
  | integer (n : Int64)
  | bytes (content : List UInt8)
deriving DecidableEq, Repr

namespace AttributeValue

/-- The text of a value that is one. -/
def text? : AttributeValue → Option String
  | .text s => some s
  | _ => none

/-- A value is written with the name of its kind beside it. -/
def toJson : AttributeValue → Json
  | .text s => .object [("kind", .text "text"), ("value", .text s)]
  | .integer n => .object [("kind", .text "integer"), ("value", .int n.toInt)]
  | .bytes content =>
    .object [("kind", .text "bytes"), ("value", .array (content.map fun b => Json.nat b.toNat))]

/-- How the value of each kind is read. -/
def readers : List (String × (Json → Option AttributeValue)) :=
  [("text", fun j => (Record.text? j).map .text),
    ("integer", fun j => (Record.signed? j).map .integer),
    ("bytes", fun j => (Record.list? Record.byte? j).map .bytes)]

/-- How the name of a kind is read. Where the fields stand by their places it is a text. -/
def kindOf? : Json → Json → Option (Json → Option AttributeValue)
  | .array _ => Record.name? readers
  | _ => Record.choice? readers

def ofJson? (j : Json) : Option AttributeValue := do
  let fields ← Record.fields? ["kind", "value"] j
  let reader ← fields.required? "kind" (kindOf? j)
  fields.required? "value" reader

end AttributeValue

/-- A fact that a module posts. -/
structure Attribute where
  type : AttributeType
  source : String
  context : String := ""
  value : AttributeValue
  createdAt : Timestamp
deriving DecidableEq, Repr

namespace Attribute

def toJson (fact : Attribute) : Json :=
  .object [("attribute_type", fact.type.toJson), ("module_name", .text fact.source),
    ("context", .text fact.context), ("value", fact.value.toJson),
    ("created_at", Record.ofTime fact.createdAt)]

def ofJson? (j : Json) : Option Attribute := do
  let fields ← Record.fields? ["attribute_type", "module_name", "context", "value", "created_at"] j
  return {
    type := ← fields.required? "attribute_type" AttributeType.ofJson?
    source := ← fields.required? "module_name" Record.text?
    context := ← fields.required? "context" Record.text?
    value := ← fields.required? "value" AttributeValue.ofJson?
    createdAt := ← fields.required? "created_at" Record.time? }

end Attribute

/-- What an artifact gathers. There is one kind: general information about the file itself. -/
inductive ArtifactType where
  | generalInfo
deriving DecidableEq, Repr

namespace ArtifactType

def toJson : ArtifactType → Json
  | .generalInfo => .text "gen_info"

def ofJson? : Json → Option ArtifactType := Record.choice? [("gen_info", .generalInfo)]

end ArtifactType

/-- Attributes of one file, in the order in which they were posted. -/
structure Artifact where
  id : String
  file : FileId
  type : ArtifactType := .generalInfo
  attributes : List Attribute := []
deriving DecidableEq, Repr

namespace Artifact

def toJson (artifact : Artifact) : Json :=
  .object [("id", .text artifact.id), ("file_id", artifact.file.toJson),
    ("artifact_type", artifact.type.toJson),
    ("attributes", .array (artifact.attributes.map Attribute.toJson))]

def ofJson? (j : Json) : Option Artifact := do
  let fields ← Record.fields? ["id", "file_id", "artifact_type", "attributes"] j
  return {
    id := ← fields.required? "id" Record.text?
    file := ← fields.required? "file_id" FileId.ofJson?
    type := ← fields.required? "artifact_type" ArtifactType.ofJson?
    attributes := ← fields.required? "attributes" (Record.list? Attribute.ofJson?) }

end Artifact

end Hallmark.Blackboard
