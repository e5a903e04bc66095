import Hallmark.Signature.Directive
import Hallmark.Signature.EntryLine
import Hallmark.Signature.Error
import Hallmark.Signature.Forest
import Hallmark.Text.Line

/-!
# `Hallmark/Signature/Reader.lean` — reading a database text

A text is read line by line. Blank lines and comments say nothing, a directive changes the entry at
the level of the last entry line on the right edge of the forest, and an entry line adds a node at its
level there. Main statement: what stands before is read before, so the first line that is refused gives
the error (`Draft.addLines_append`).
-/

set_option autoImplicit false

namespace Hallmark.Signature

/-- What has been read so far: the forest, and the level of the last entry line. -/
structure Draft where
  forest : Forest Entry := .empty
  lastLevel : Option Nat := none
deriving DecidableEq, Repr

def Draft.addLine (draft : Draft) (number : Nat) (raw : List Char) : Except DatabaseError Draft :=
  match Text.trimStart raw with
  | [] | '#' :: _ => .ok draft
  | '!' :: ':' :: directive =>
    match draft.lastLevel with
    | none => .error (.line number .orphanDirective)
    -- A directive without an entry is refused before it is read.
    | some level =>
      match draft.forest.lastAt? level with
      | none => .error (.line number .orphanDirective)
      | some _ =>
        (Directive.read number directive).map fun d =>
          { draft with forest := draft.forest.mapLastAt d.apply level }
  | line => do
    let entry ← Entry.read number line
    let forest ← orElse (draft.forest.attach? entry entry.level)
      (.line number (.noParent entry.level))
    return { forest := forest, lastLevel := some entry.level }

/-- Reads lines, the first of which has the given number. -/
def Draft.addLines (draft : Draft) (number : Nat) : List (List Char) → Except DatabaseError Draft
  | [] => .ok draft
  | line :: rest =>
    match draft.addLine number line with
    | .ok next => next.addLines (number + 1) rest
    | .error error => .error error

/-- What stands before in a text is read before. -/
theorem Draft.addLines_append (draft : Draft) (number : Nat) (before after : List (List Char)) :
    draft.addLines number (before ++ after) =
      (draft.addLines number before).bind fun next => next.addLines (number + before.length) after := by
  induction before generalizing draft number with
  | nil => rfl
  | cons line rest ih =>
    simp only [List.cons_append, addLines, List.length_cons]
    cases draft.addLine number line with
    | error error => rfl
    | ok next => simp only [ih, Nat.add_assoc, Nat.add_comm 1]

/-- The forest of a database text, in the order of the text. -/
def readForest (text : List Char) : Except DatabaseError (Forest Entry) :=
  (Draft.addLines {} 1 (Text.lines text)).map Draft.forest

end Hallmark.Signature
