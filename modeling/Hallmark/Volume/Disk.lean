import Hallmark.Volume.Basic

/-!
# `Hallmark/Volume/Disk.lean` — what a file system offers

Files on a disk and documents in a folder are reached by path through the operations of `Disk`. A world
that holds a volume offers them; a read brings all there is at once, but its users must not rely on
that.
-/

set_option autoImplicit false

namespace Hallmark

namespace Volume

/-- What is known of something without reading it. -/
inductive Entry where
  | file (size : Nat)
  /-- A directory, or something else that is no regular file. -/
  | other
deriving DecidableEq, Repr

end Volume

/-- The operations of a file system; `σ` is the world that it is part of. -/
class Disk (σ : Type) where
  /-- What stands at a path. -/
  status : String → σ → Except SystemError Volume.Entry
  /-- The content of a file. -/
  content : String → σ → Except SystemError (List UInt8)
  /-- The names in a directory. -/
  names : String → σ → Except SystemError (List String)
  /-- Whether something can be read from a position on. -/
  seek : String → Nat → σ → Except SystemError Unit
  /-- Reads from a position on, at most as many bytes as there is room for: some bytes, and none only at
  the end. -/
  readSome : String → (position room : Nat) → StateM σ (Except SystemError (List UInt8))
  /-- Writes a file, new or in place of an old one. -/
  write : String → List UInt8 → StateM σ (Except SystemError Unit)
  /-- Makes a directory and those above it, unless they exist. -/
  makeDirectories : String → StateM σ (Except SystemError Unit)

namespace Volume

/-- Positions in a file are signed words of 64 bits. -/
def positionLimit : Nat := 9223372036854775808

/-- What stands at a path. -/
def status (volume : Volume) (path : String) : Except SystemError Entry :=
  (volume.item path).map fun
    | .file content => .file content.length
    | .directory => .other

/-- Something can be read if it exists and the position is one. -/
def seek (volume : Volume) (path : String) (position : Nat) : Except SystemError Unit :=
  (volume.item path).bind fun _ =>
    if position < positionLimit then .ok () else .error .invalidArgument

/-- The bytes of a file from a position on. No byte that there is room for may lie past the last
position. -/
def readSome (volume : Volume) (path : String) (position room : Nat) :
    Except SystemError (List UInt8) :=
  if positionLimit ≤ position + room then .error .invalidArgument
  else (volume.content path).map fun content => (content.drop position).take room

/-- Keeps the changed volume of a success. -/
def settle (volume : Volume) (changed : Except SystemError Volume) :
    Except SystemError Unit × Volume :=
  match changed with
  | .ok after => (.ok (), after)
  | .error e => (.error e, volume)

instance : Disk Volume where
  status path volume := volume.status path
  content path volume := volume.content path
  names path volume := volume.names path
  seek path position volume := volume.seek path position
  readSome path position room := fun volume => (volume.readSome path position room, volume)
  write path content := fun volume => volume.settle (volume.write path content)
  makeDirectories path := fun volume => volume.settle (volume.makeDirectories path)

end Volume

end Hallmark
