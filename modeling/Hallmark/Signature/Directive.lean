import Hallmark.Number.Literal
import Hallmark.Signature.Entry
import Hallmark.Signature.EntryLine
import Hallmark.Text.Blank

/-!
# `Hallmark/Signature/Directive.lean` — directives

A line that starts with `!:` says something more about the entry before it: its MIME type, or how to
adjust its strength. Other directives carry nothing that is reported.
-/

set_option autoImplicit false

namespace Hallmark.Signature

inductive Directive where
  | mime (type : String)
  | strength (adjustment : Adjustment)
  | unreported
deriving DecidableEq, Repr

/-- The adjustment that an operator character stands for. -/
def Adjustment.of? (operator : Char) (amount : Int64) : Option Adjustment :=
  match operator with
  | '+' => some (.add amount)
  | '-' => some (.sub amount)
  | '*' => some (.mul amount)
  | '/' => some (.div amount)
  | _ => none

/-- Reads an adjustment: an operator and an amount. The amount is a 64-bit word read as signed, and is
checked before the operator. -/
def Adjustment.read (number : Nat) (argument : List Char) : Except DatabaseError Adjustment :=
  match argument with
  | [] => .error (.line number .missingStrength)
  | operator :: rest => do
    let amount ← orElse (Number.literal? (Text.trim rest))
      (.line number (.invalidStrength (String.ofList argument)))
    orElse (Adjustment.of? operator amount.toInt64) (.line number (.invalidStrengthOperator operator))

/-- Splits a directive at its first blank into a name and a trimmed argument. -/
def Directive.parts (directive : List Char) : List Char × List Char :=
  let isName (c : Char) : Bool := !Text.isBlank c
  (directive.takeWhile isName, Text.trim (directive.dropWhile isName))

/-- Reads a directive, without the `!:` in front of it. -/
def Directive.read (number : Nat) (directive : List Char) : Except DatabaseError Directive :=
  let (name, argument) := Directive.parts directive
  match String.ofList name with
  | "mime" =>
    if argument.isEmpty then .error (.line number .missingMime)
    else .ok (.mime (String.ofList argument))
  | "strength" => (Adjustment.read number argument).map .strength
  | _ => .ok .unreported

/-- An entry after a directive. The last directive of a kind counts. -/
def Directive.apply (directive : Directive) (entry : Entry) : Entry :=
  match directive with
  | .mime type => { entry with mime := some type }
  | .strength adjustment => { entry with adjustment := some adjustment }
  | .unreported => entry

end Hallmark.Signature
