import Hallmark.Host.File
import Hallmark.Text.Quoted

/-!
# `Hallmark/Host/Memory.lean` — files whose content is in memory
-/

set_option autoImplicit false

namespace Hallmark.Host

/-- The part of a content from an offset on that there is room for. -/
def window (content : List UInt8) (offset room : Nat) : List UInt8 :=
  (content.drop offset).take room

/-- A window has as many bytes as there is room for and content left. -/
theorem length_window (content : List UInt8) (offset room : Nat) :
    (window content offset room).length = min room (content.length - offset) := by
  simp [window]

structure MemoryFile where
  id : FileId
  content : List UInt8
  name : Option String := none
deriving Repr

namespace MemoryFile

/-- Copies the content from an offset on, as much as there is room for. -/
def read (file : MemoryFile) (offset : Nat) {room : Nat} (buffer : Buffer room) : Nat × Buffer room :=
  let bytes := window file.content offset room
  (bytes.length, buffer.write bytes)

/-- The file as modules see it; its facts go to the blackboard of the world. -/
def toHostFile {σ : Type} [Blackboard σ] (file : MemoryFile) : HostFile σ where
  id := file.id
  name := file.name
  size := file.content.length
  read := fun offset {_} buffer => pure (.ok (file.read offset buffer))
  post fact := Blackboard.post file.id fact

def summary (file : MemoryFile) : String :=
  "MemoryFile \x7b id: " ++ file.id.summary ++ ", name: " ++ Text.Quoted.optional file.name ++
    ", data_len: " ++ Number.decimalText file.content.length ++ ", .. \x7d"

end MemoryFile

end Hallmark.Host
