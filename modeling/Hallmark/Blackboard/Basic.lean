import Hallmark.Blackboard.Attribute
import Hallmark.SystemError

/-!
# `Hallmark/Blackboard/Basic.lean` — where modules post facts

A blackboard takes facts about files and gives the artifacts of a file back. Posting may fail; the
blackboard is part of a world `σ`.
-/

set_option autoImplicit false

namespace Hallmark

namespace Blackboard

/-- Why a blackboard does not do what it is asked to. -/
inductive BlackboardError where
  | storeFailed (reason : String)
  | system (error : SystemError)
deriving DecidableEq, Repr

def BlackboardError.message : BlackboardError → String
  | .storeFailed reason => s!"failed to store attribute: {reason}"
  | .system error => "I/O error: " ++ error.message

/-- The facts of one type in some artifacts, in the order in which they were posted. -/
def attributesOf (type : AttributeType) (artifacts : List Artifact) : List Attribute :=
  artifacts.flatMap fun artifact => artifact.attributes.filter fun fact => fact.type = type

end Blackboard

open Blackboard in
/-- The blackboard of a world. -/
class Blackboard (σ : Type) where
  post : FileId → Attribute → StateM σ (Except BlackboardError Unit)
  artifacts : FileId → σ → List Artifact

namespace Blackboard

/-- The facts of one type about a file. -/
def attributes {σ : Type} [Blackboard σ] (file : FileId) (type : AttributeType) (world : σ) :
    List Attribute :=
  attributesOf type (artifacts file world)

end Blackboard

end Hallmark
