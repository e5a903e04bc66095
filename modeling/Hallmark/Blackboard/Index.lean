import Hallmark.Blackboard.Basic
import Hallmark.Table

/-!
# `Hallmark/Blackboard/Index.lean` — artifacts by file

An index holds the artifacts of each file about which something was posted. By itself it is a
blackboard in memory. Main statements: `artifacts_post` gives the artifacts of every file after a post,
so that a post about one file leaves all others as they are.
-/

set_option autoImplicit false

namespace Hallmark.Blackboard

/-- Adds a fact to the first artifact of general information; if there is none, to a new one. -/
def appendGeneral (freshId : String) (file : FileId) (fact : Attribute) :
    List Artifact → List Artifact
  | [] => [{ id := freshId, file := file, attributes := [fact] }]
  | artifact :: rest =>
    if artifact.type = .generalInfo then
      { artifact with attributes := artifact.attributes ++ [fact] } :: rest
    else artifact :: appendGeneral freshId file fact rest

abbrev Index := Table FileId (List Artifact)

namespace Index

/-- The artifacts of a file; none if nothing was posted about it. -/
def artifacts (index : Index) (file : FileId) : List Artifact := (index.get? file).getD []

/-- Adds a fact about a file. The identifier is used if an artifact has to be made. -/
def post (index : Index) (freshId : String) (file : FileId) (fact : Attribute) : Index :=
  index.insert file (appendGeneral freshId file fact (index.artifacts file))

theorem artifacts_post (index : Index) (freshId : String) (file other : FileId) (fact : Attribute) :
    (index.post freshId file fact).artifacts other =
      if other = file then appendGeneral freshId file fact (index.artifacts file)
      else index.artifacts other := by
  by_cases h : other = file <;> simp [artifacts, post, Table.get?_insert, h]

end Index

end Hallmark.Blackboard
