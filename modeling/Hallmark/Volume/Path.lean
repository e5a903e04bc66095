import Hallmark.Text.Line

/-!
# `Hallmark/Volume/Path.lean` — paths as texts

A path is a text of names with slashes between them; it is absolute if it starts with a slash. A path
stays as it was written: joining and taking apart do not resolve `.` or `..`.
-/

set_option autoImplicit false

namespace Hallmark.Volume.Path

/-- The names and the empty texts between the slashes of a path. -/
def pieces (path : String) : List String :=
  (Text.pieces '/' path.toList).map String.ofList

def isAbsolute (path : String) : Bool := path.toList.head? == some '/'

/-- The path of `below` within the directory `base`; an absolute path does not depend on the base. -/
def join (base below : String) : String :=
  if isAbsolute below then below
  else if base.isEmpty || base.toList.getLast? == some '/' then base ++ below
  else base ++ "/" ++ below

/-- The name at the end of a path; a path that ends in `..` has none. -/
def fileName? (path : String) : Option String :=
  (((pieces path).filter fun p => p != "" && p != ".").getLast?).filter (· != "..")

/-- What stands after the last point of a name. A name without a point, or with its only point at the
start, has no extension. -/
def extension? (name : String) : Option String :=
  match (Text.pieces '.' name.toList).reverse with
  | last :: before =>
    if before.isEmpty || before == [[]] || name == ".." then none else some (String.ofList last)
  | [] => none

end Hallmark.Volume.Path
