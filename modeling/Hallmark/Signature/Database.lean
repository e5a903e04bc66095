import Hallmark.Content.Kind
import Hallmark.Identification
import Hallmark.Signature.Description
import Hallmark.Signature.Reader
import Hallmark.Signature.Strength

/-!
# `Hallmark/Signature/Database.lean` — signature databases

A database holds its signatures in the order in which they are tried: the strongest first, and among
equally strong ones the one that stands first in the text. The first signature that describes a buffer
in words identifies it; if there is none, the kind of its content does. Main statement: `rank_perm`,
the order neither adds nor loses a signature.
-/

set_option autoImplicit false

namespace Hallmark.Signature

structure Database where
  signatures : List (Tree Entry)
  /-- The file that the database was read from, if it was. -/
  source : Option String := none
deriving DecidableEq, Repr

/-! ## Ranking -/

/-- Puts a tree in front of the first tree that is not stronger. -/
def insertRanked (tree : Tree Entry) : List (Tree Entry) → List (Tree Entry)
  | [] => [tree]
  | t :: ts =>
    if t.root.strength ≤ tree.root.strength then tree :: t :: ts else t :: insertRanked tree ts

/-- Trees by descending strength of their roots. The last tree goes in first, so of equally strong ones
the one that stands first in the text stays first. -/
def rank (trees : List (Tree Entry)) : List (Tree Entry) := trees.foldr insertRanked []

@[simp] theorem rank_nil : rank [] = [] := rfl

@[simp] theorem rank_cons (tree : Tree Entry) (trees : List (Tree Entry)) :
    rank (tree :: trees) = insertRanked tree (rank trees) := rfl

theorem insertRanked_perm (tree : Tree Entry) (trees : List (Tree Entry)) :
    (insertRanked tree trees).Perm (tree :: trees) := by
  induction trees with
  | nil => exact .refl _
  | cons t ts ih =>
    unfold insertRanked
    split
    · exact .refl _
    · exact (ih.cons t).trans (.swap tree t ts)

/-- Ranking neither adds nor loses a signature. -/
theorem rank_perm (trees : List (Tree Entry)) : (rank trees).Perm trees := by
  induction trees with
  | nil => exact .refl _
  | cons tree trees ih => exact (insertRanked_perm tree (rank trees)).trans (ih.cons tree)

/-! ## Identifying -/

/-- What a signature identifies a buffer as; `none` if it does not match, or says nothing. -/
def identifyBy? (buffer : List UInt8) (tree : Tree Entry) :
    Option Identification :=
  match describe? tree buffer with
  | none => none
  | some description =>
    if description.text.isEmpty then none
    else some ⟨String.ofList description.text, description.mime⟩

namespace Database

def read (text : List Char) : Except DatabaseError Database :=
  (readForest text).map fun forest => { signatures := rank forest.trees }

def size (database : Database) : Nat := database.signatures.length

/-- All entries, each signature in pre-order. -/
def entries (database : Database) : List Entry := database.signatures.flatMap Tree.preorder

def identify (database : Database) (buffer : List UInt8) : Identification :=
  match database.signatures.findSome? (identifyBy? buffer) with
  | some identification => identification
  | none => Content.classify buffer

/-- The line, counted from 1, on which bytes stop being text: one more than the line feeds before. -/
def brokenLine (bytes : List UInt8) : Nat :=
  ((Text.Utf8.split bytes).1.filter (· == '\n')).length + 1

/-- The database of a file, given what reading the file at `path` brought. -/
def load (path : String) (content : Except SystemError (List UInt8)) : Except DatabaseError Database :=
  match content with
  | .error .notFound => .error (.notFound path)
  | .error error => .error (.system error)
  | .ok bytes =>
    match Text.Utf8.decode? bytes with
    | none => .error (.line (brokenLine bytes) .invalidText)
    | some text => (read text).map fun database => { database with source := some path }

end Database

end Hallmark.Signature
