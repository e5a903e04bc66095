import Hallmark.Signature.Forest
import Hallmark.Signature.Probe
import Hallmark.Text.Line

/-!
# `Hallmark/Signature/Description.lean` — describing a buffer by one signature

When the root of a signature matches, the entries below it are tried, each from the end of its
parent's match; an entry that fails hides everything below it. One description is handed along the
walk, from an entry to those below it and on to those after it. Each entry that matches adds to it:
its rendered message at the end of the text, and its MIME type, if it declares one, in the place of
the one before.
-/

set_option autoImplicit false

namespace Hallmark.Signature

structure Description where
  text : List Char := []
  mime : Option String := none
deriving DecidableEq, Repr

/-- Adds what a matched entry says. Its message follows after a space, unless it starts with a
backslash and `b`, which is left out; an empty text on either side takes no space. -/
def Description.add (description : Description) (entry : Entry) (value : MatchValue) : Description :=
  let mime := entry.mime.or description.mime
  match entry.message.toList with
  | [] => { description with mime := mime }
  | '\\' :: 'b' :: template =>
    ⟨description.text ++ Template.render template value, mime⟩
  | template =>
    let rendered := Template.render template value
    let space := if !description.text.isEmpty && !rendered.isEmpty then [' '] else []
    ⟨description.text ++ space ++ rendered, mime⟩

/-- What the entries of a forest add to a description, below a match that ends at `parentStop`. -/
def Description.walk (buffer : List UInt8) : Forest Entry → (parentStop : Nat) → Description → Description
  | .empty, _, description => description
  | .grow root below after, parentStop, description =>
    walk buffer after parentStop <|
      match root.probe buffer parentStop with
      | some found => walk buffer below found.stop (description.add root found.value)
      | none => description

/-- The description of a buffer by a signature; `none` if it does not match. -/
def describe? (tree : Tree Entry) (buffer : List UInt8) : Option Description :=
  (tree.root.probe buffer 0).map fun found =>
    Description.walk buffer tree.below found.stop (Description.add {} tree.root found.value)

end Hallmark.Signature
