import Hallmark.Blackboard.Folder
import Hallmark.Host.Surroundings
import Hallmark.Matcher.Script

/-!
# `Hallmark/Host/Session.lean` — a host in memory

A session is a host that is all data: a volume, one blackboard, scripted matchers and a supply of
identifiers. It offers everything that modules and files ask of their world, so that whole runs can be
evaluated.
-/

set_option autoImplicit false

namespace Hallmark.Host

open Blackboard (Artifact Attribute BlackboardError Folder Index)
open Matcher (Script)
open Signature (DatabaseError)

/-- The blackboard of a session. -/
inductive Store where
  | memory (index : Index)
  | folder (folder : Folder)
deriving Repr

namespace Store

/-- What the blackboard holds. -/
def index : Store → Index
  | .memory held => held
  | .folder kept => kept.index

end Store

/-- A host in memory. -/
structure Session where
  volume : Volume := {}
  store : Store := .memory {}
  scripts : List Script := []
  /-- The time, which stands still. -/
  time : Time.Timestamp := ⟨0, 0⟩
  /-- How many identifiers were given out. -/
  serial : Nat := 0
deriving Inhabited, Repr

namespace Session

/-! ## Identifiers -/

/-- An identifier of 32 hexadecimal digits in five groups. -/
def identifier (serial : Nat) : String :=
  let significant := Number.digits 16 serial
  let ds := List.replicate (32 - significant.length) '0' ++ significant
  String.ofList (ds.take 8 ++ '-' :: (ds.drop 8).take 4 ++ '-' :: (ds.drop 12).take 4 ++
    '-' :: (ds.drop 16).take 4 ++ '-' :: ds.drop 20)

def freshId : StateM Session String := fun session =>
  (identifier session.serial, { session with serial := session.serial + 1 })

instance : Surroundings Session where
  now := time
  ticks := fun _ => 0
  freshId := freshId

/-! ## The volume -/

def onVolume {α : Type} (operation : StateM Volume α) : StateM Session α := fun session =>
  let (value, after) := operation session.volume
  (value, { session with volume := after })

instance : Disk Session where
  status path session := Disk.status path session.volume
  content path session := Disk.content path session.volume
  names path session := Disk.names path session.volume
  seek path position session := Disk.seek path position session.volume
  readSome path position room := onVolume (Disk.readSome path position room)
  write path content := onVolume (Disk.write path content)
  makeDirectories path := onVolume (Disk.makeDirectories path)

/-! ## The blackboard -/

/-- Adds a fact about a file to the blackboard. -/
def post (file : FileId) (fact : Attribute) : StateM Session (Except BlackboardError Unit) := do
  let id ← freshId
  match (← get).store with
  | .memory index =>
    modify fun session => { session with store := .memory (index.post id file fact) }
    return .ok ()
  | .folder folder =>
    let (result, after) ← folder.post id file fact
    modify fun session => { session with store := .folder after }
    return result

instance : Blackboard Session where
  post := post
  artifacts file session := session.store.index.artifacts file

/-! ## Matchers -/

def script (number : Nat) (session : Session) : Script := session.scripts.getD number {}

def setScript (number : Nat) (script : Script) (session : Session) : Session :=
  { session with scripts := session.scripts.set number script }

/-- The scripted matcher of a number as modules use it. -/
def scripted (number : Nat) (session : Session) : Matcher Session :=
  (session.script number).toMatcher (Session.script number) (setScript number)

/-- A session reads no compiled database. -/
def loadDatabase (path : String) (session : Session) : Except DatabaseError (Matcher Session) :=
  match Disk.status path session with
  | .error .notFound => .error (.notFound path)
  | .error e => .error (.system e)
  | .ok _ => .error (.refused path "compiled databases are not supported")

instance : DatabaseLoader Session where
  load := loadDatabase

end Session

end Hallmark.Host
