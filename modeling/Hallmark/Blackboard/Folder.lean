import Hallmark.Blackboard.Index
import Hallmark.Json.Printer
import Hallmark.Json.Reader
import Hallmark.Text.Utf8
import Hallmark.Volume.Disk

/-!
# `Hallmark/Blackboard/Folder.lean` — a blackboard kept in a folder

The artifacts of each file are kept as one JSON document, named for the file, in the folder
`artifacts` below a base. Opening the blackboard reads the documents; a name that does not end in
`.json`, and a document that cannot be read or holds no artifacts, are passed over. Posting writes the
document of the file first: if that fails, nothing was posted.
-/

set_option autoImplicit false

namespace Hallmark.Blackboard

open Volume (Path.join Path.extension?)

/-! ## Documents -/

def documentOf (artifacts : List Artifact) : List UInt8 :=
  Text.Utf8.bytes (Json.array (artifacts.map Artifact.toJson)).indented

def artifactsOf? (document : List UInt8) : Option (List Artifact) := do
  let text ← Text.Utf8.decode? document
  let json ← Json.ofChars? text
  Record.list? Artifact.ofJson? json

def isDocumentName (name : String) : Bool := Path.extension? name == some "json"

/-- Enters the artifacts of a document under the file of the first. -/
def Index.enter (index : Index) (artifacts : List Artifact) : Index :=
  match artifacts with
  | [] => index
  | first :: _ => index.insert first.file artifacts

/-- The index of the documents in a folder, given the names in it and what reading each brings. A later
document takes the place of an earlier one about the same file. -/
def Index.ofDocuments (names : List String)
    (content : String → Except SystemError (List UInt8)) : Index :=
  (names.filter isDocumentName).foldl (fun index name =>
    match content name with
    | .error _ => index
    | .ok document => index.enter ((artifactsOf? document).getD [])) {}

/-! ## The blackboard -/

/-- A blackboard kept below a base. -/
structure Folder where
  base : String
  index : Index := {}
deriving Repr

namespace Folder

def directory (folder : Folder) : String := Path.join folder.base "artifacts"

def documentPath (folder : Folder) (file : FileId) : String :=
  Path.join folder.directory (file.toText ++ ".json")

variable {σ : Type} [Disk σ]

/-- Opens the blackboard below a base, making the folder unless it exists. -/
def openAt (base : String) : StateM σ (Except BlackboardError Folder) := fun world =>
  let folder : Folder := { base := base }
  match Disk.makeDirectories folder.directory world with
  | (.error e, after) =>
    (.error (.storeFailed ("Failed to create artifacts directory: " ++ e.message)), after)
  | (.ok (), after) =>
    match Disk.names folder.directory after with
    | .error e => (.error (.system e), after)
    | .ok names =>
      let content := fun name => Disk.content (Path.join folder.directory name) after
      (.ok { folder with index := Index.ofDocuments names content }, after)

/-- Adds a fact about a file: to its document, and then to the index. -/
def post (folder : Folder) (freshId : String) (file : FileId) (fact : Attribute) :
    StateM σ (Except BlackboardError Unit × Folder) := fun world =>
  -- The index is changed only after the document is written.
  let index := folder.index.post freshId file fact
  match Disk.write (folder.documentPath file) (documentOf (index.artifacts file)) world with
  | (.ok (), after) => ((.ok (), { folder with index := index }), after)
  | (.error e, after) =>
    ((.error (.storeFailed
      ("Failed to write artifacts for file " ++ file.toText ++ ": " ++ e.message)), folder), after)

end Folder

end Hallmark.Blackboard
