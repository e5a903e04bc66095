import Hallmark.SystemError
import Hallmark.Table
import Hallmark.Volume.Path

/-!
# `Hallmark/Volume/Basic.lean` — a tree of directories and files

A volume holds files and directories and has a working directory, from which relative paths start. A
path is resolved name by name: every name but the last must lead to a directory, `..` leads to the
directory above, and a slash at the end asks for a directory. Names and whole paths have a largest
number of bytes.
-/

set_option autoImplicit false

namespace Hallmark

namespace Volume

/-- A place in a volume: the names that lead there from the root. -/
abbrev Location := List String

/-- What stands at a place. -/
inductive Item where
  | file (content : List UInt8)
  | directory
deriving DecidableEq, Repr

end Volume

open Volume in
/-- Files and directories, and the directory from which relative paths start. -/
structure Volume where
  /-- What stands in the volume, the root apart. -/
  items : Table Location Item := {}
  workingDirectory : Location := []
deriving Inhabited, Repr

namespace Volume

/-- An empty directory at a place, as the working directory. -/
def atDirectory (location : Location) : Volume where
  items := (List.range location.length).foldl
    (fun items n => items.insert (location.take (n + 1)) .directory) {}
  workingDirectory := location

/-- What stands at a place; the root is a directory. -/
def itemAt? (volume : Volume) (location : Location) : Option Item :=
  if location.isEmpty then some .directory else volume.items.get? location

/-! ## Resolving paths -/

def maxNameBytes : Nat := 255

def maxPathBytes : Nat := 4095

/-- The name has more bytes than any name can have. -/
def isTooLong (name : String) : Bool := maxNameBytes < name.utf8ByteSize

/-- The name stays in the directory that it is looked up in. -/
def isHere (name : String) : Bool := name == "" || name == "."

/-- Follows names from a place. -/
def walk (volume : Volume) : Location → List String → Except SystemError Location
  | here, [] => .ok here
  | here, name :: rest =>
    if volume.itemAt? here ≠ some .directory then .error .notDirectory
    else if isHere name then walk volume here rest
    else if name = ".." then walk volume here.dropLast rest
    else if isTooLong name then .error .nameTooLong
    else if (volume.itemAt? (here ++ [name])).isNone then .error .notFound
    else walk volume (here ++ [name]) rest

/-- Follows names from a place; nothing need stand at the last. -/
def walkNew (volume : Volume) : Location → List String → Except SystemError Location
  | here, [] => .ok here
  | here, name :: rest =>
    if rest.isEmpty then
      if volume.itemAt? here ≠ some .directory then .error .notDirectory
      else if isHere name || name == ".." then .error .isDirectory
      else if isTooLong name then .error .nameTooLong
      else .ok (here ++ [name])
    else
      match volume.walk here [name] with
      | .error e => .error e
      | .ok next => walkNew volume next rest

/-- Checks a path and hands on the place it starts from and its names. -/
def start {α : Type} (volume : Volume) (path : String)
    (follow : Location → List String → Except SystemError α) : Except SystemError α :=
  if path.isEmpty then .error .notFound
  else if path.toList.contains '\x00' then .error .nulInPath
  else if maxPathBytes < path.utf8ByteSize then .error .nameTooLong
  else follow (if Path.isAbsolute path then [] else volume.workingDirectory) (Path.pieces path)

/-- The place of something that exists. -/
def resolve (volume : Volume) (path : String) : Except SystemError Location :=
  volume.start path volume.walk

/-! ## Reading -/

def item (volume : Volume) (path : String) : Except SystemError Item :=
  (volume.resolve path).bind fun location =>
    match volume.itemAt? location with
    | some item => .ok item
    | none => .error .notFound

def content (volume : Volume) (path : String) : Except SystemError (List UInt8) :=
  (volume.item path).bind fun
    | .file content => .ok content
    | .directory => .error .isDirectory

def names (volume : Volume) (path : String) : Except SystemError (List String) :=
  (volume.resolve path).bind fun location =>
    match volume.itemAt? location with
    | some .directory =>
      .ok (volume.items.keys.filterMap fun key =>
        if key.dropLast = location then key.getLast? else none)
    | _ => .error .notDirectory

/-! ## Writing -/

def put (volume : Volume) (location : Location) (item : Item) : Volume :=
  { volume with items := volume.items.insert location item }

/-- Writes a file, new or in place of an old one. -/
def write (volume : Volume) (path : String) (content : List UInt8) : Except SystemError Volume :=
  (volume.start path volume.walkNew).bind fun location =>
    match volume.itemAt? location with
    | some .directory => .error .isDirectory
    | _ => .ok (volume.put location (.file content))

/-- Makes the directories along some names. -/
def makeAlong : Volume → Location → List String → Except SystemError Volume
  | volume, _, [] => .ok volume
  | volume, here, name :: rest =>
    if isHere name then makeAlong volume here rest
    else if name = ".." then makeAlong volume here.dropLast rest
    else if isTooLong name then .error .nameTooLong
    else
      match volume.itemAt? (here ++ [name]) with
      | none => makeAlong (volume.put (here ++ [name]) .directory) (here ++ [name]) rest
      | some .directory => makeAlong volume (here ++ [name]) rest
      -- A file at the end of the path is in the place of the directory, one before it in the way.
      | some (.file _) => .error (if rest.all isHere then .alreadyExists else .notDirectory)

/-- Makes a directory and those above it, unless they exist. -/
def makeDirectories (volume : Volume) (path : String) : Except SystemError Volume :=
  volume.start path volume.makeAlong

def remove (volume : Volume) (path : String) : Except SystemError Volume :=
  (volume.resolve path).bind fun location =>
    match volume.itemAt? location with
    | some (.file _) => .ok { volume with items := volume.items.erase location }
    | _ => .error .isDirectory

end Volume

end Hallmark
