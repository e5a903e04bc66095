import Hallmark.Host.File
import Hallmark.Text.Quoted
import Hallmark.Volume.Disk

/-!
# `Hallmark/Host/Disk.lean` — files on a disk

A file on a disk is known by its path. Its size is taken when it is opened; its content is looked up
anew at each read. The file system may bring fewer bytes than there is room for, so a read asks again
until the room is filled or nothing more comes.
-/

set_option autoImplicit false

namespace Hallmark.Host

structure DiskFile where
  id : FileId
  path : String
  /-- The size of the file when it was opened. -/
  size : Nat
deriving Repr

namespace DiskFile

variable {σ : Type} [Disk σ]

/-- Opens a file; only a regular file can be opened. -/
def openAt (id : FileId) (path : String) (world : σ) : Except FileError DiskFile :=
  match Disk.status path world with
  | .error .notFound => .error (.notFound path)
  | .error e => .error (.system e)
  | .ok .other => .error (.readFailed id (path ++ " is not a regular file"))
  | .ok (.file size) => .ok { id := id, path := path, size := size }

/-- Reads until the room is filled or nothing more comes. -/
def fill (path : String) (position room : Nat) (world : σ) :
    Except SystemError (List UInt8) × σ :=
  if room = 0 then (.ok [], world)
  else
    match Disk.readSome path position room world with
    | (.error e, after) => (.error e, after)
    | (.ok chunk, after) =>
      -- Fewer bytes than there was room for are no sign of the end; no bytes are.
      if chunk.isEmpty then (.ok [], after)
      else
        let (rest, last) := fill path (position + chunk.length) (room - chunk.length) after
        (rest.map (chunk ++ ·), last)
termination_by room
decreasing_by
  have : 0 < chunk.length := List.length_pos_iff.2 (by simpa using ‹¬ chunk.isEmpty = true›)
  omega

/-- Reads from an offset on to the front of a buffer. -/
def read (file : DiskFile) (offset : Nat) {room : Nat} (buffer : Buffer room) :
    StateM σ (Except FileError (Nat × Buffer room)) := fun world =>
  match Disk.seek file.path offset world with
  | .error e => (.error (.system e), world)
  | .ok () =>
    let (result, after) := fill file.path offset room world
    ((result.map fun bytes => (bytes.length, buffer.write bytes)).mapError .system, after)

/-- The file as modules see it; its facts go to the blackboard of the world. -/
def toHostFile [Blackboard σ] (file : DiskFile) : HostFile σ where
  id := file.id
  name := Volume.Path.fileName? file.path
  size := file.size
  read := fun offset {_} buffer => file.read offset buffer
  post fact := Blackboard.post file.id fact

def summary (file : DiskFile) : String :=
  "DiskFile \x7b id: " ++ file.id.summary ++ ", path: " ++ Text.Quoted.text file.path ++
    ", size: " ++ Number.decimalText file.size ++ ", .. \x7d"

end DiskFile

end Hallmark.Host
