import Hallmark.Text.Blank
import Hallmark.Text.Line

/-!
# `Hallmark/Module/Argument.lean` — the argument of the file type module

The module takes one argument, `database=` and a path, which may stand among others between
semicolons. The first such piece decides, even if its path is blank; then no path is given.
-/

set_option autoImplicit false

namespace Hallmark.Module

/-- What the argument starts with. -/
def databaseKey : List Char := ['d', 'a', 't', 'a', 'b', 'a', 's', 'e', '=']

/-- The pieces of an argument string, without the blanks around them. -/
def argumentPieces (arguments : String) : List (List Char) :=
  (Text.pieces ';' arguments.toList).map Text.trim

def databaseArgument? (arguments : String) : Option String :=
  match (argumentPieces arguments).findSome? (Text.stripStart? databaseKey) with
  | none => none
  | some value =>
    let path := Text.trim value
    if path.isEmpty then none else some (String.ofList path)

/-- An argument string that says something, but gives no database path. -/
def isUnrecognized (arguments : String) : Bool :=
  !(Text.trim arguments.toList).isEmpty && (databaseArgument? arguments).isNone

end Hallmark.Module
