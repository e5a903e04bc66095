import Hallmark.Blackboard.Basic
import Hallmark.Host.Buffer

/-!
# `Hallmark/Host/File.lean` — files as the host hands them to modules

A module sees a file by its size, by what can be read of it, and by the facts that it can post. Where a
file comes from is the host's business: reading and posting are operations on the host's world `σ`. A read
answers with a number and fills a buffer, and nothing but its promise (`HostFile.CountsRead`) keeps the
number within the buffer.
-/

set_option autoImplicit false

namespace Hallmark

namespace Host

open Blackboard (Attribute BlackboardError)

inductive FileError where
  | readFailed (file : FileId) (reason : String)
  | notFound (path : String)
  | system (error : SystemError)
deriving DecidableEq, Repr

def FileError.message : FileError → String
  | .readFailed file reason => "failed to read file " ++ file.toText ++ ": " ++ reason
  | .notFound path => s!"file not found: {path}"
  | .system error => "I/O error: " ++ error.message

end Host

open Host Blackboard in
/-- A file that is being processed. -/
structure HostFile (σ : Type) where
  id : FileId
  name : Option String := none
  /-- The size that the host reports. -/
  size : Nat
  /-- Reads from an offset on into a buffer: the number of bytes read, and the buffer afterwards. No bytes
  mean the end. -/
  read : (offset : Nat) → {room : Nat} → Buffer room → StateM σ (Except FileError (Nat × Buffer room))
  post : Attribute → StateM σ (Except BlackboardError Unit)

/-- The promise of a read: the number that it answers is that of the bytes that it read into the buffer, so
never more than there is room for. -/
def HostFile.CountsRead {σ : Type} (file : HostFile σ) : Prop :=
  ∀ (offset : Nat) {room : Nat} (buffer : Host.Buffer room) (world : σ) (count : Nat)
    (filled : Host.Buffer room) (after : σ),
    file.read offset buffer world = (.ok (count, filled), after) → count ≤ room

namespace Host

/-- Reads into the bytes of a buffer: the number of bytes read, and the bytes of the buffer afterwards. -/
def readInto {σ : Type} (file : HostFile σ) (offset : Nat) (buffer : List UInt8) :
    StateM σ (Except FileError (Nat × List UInt8)) := fun world =>
  let (result, after) := file.read offset ⟨buffer, rfl⟩ world
  (result.map fun (count, filled) => (count, filled.bytes), after)

end Host

end Hallmark
