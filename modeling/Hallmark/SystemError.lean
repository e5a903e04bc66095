/-!
# `Hallmark/SystemError.lean` — failures of a file system

Why a file system refuses an operation, and the wording with its conventional number.
-/

set_option autoImplicit false

namespace Hallmark

inductive SystemError where
  | notFound
  | alreadyExists
  | notDirectory
  | isDirectory
  | invalidArgument
  | nameTooLong
  /-- A path has a NUL character in it. -/
  | nulInPath
  /-- A failure worded by the caller. -/
  | stated (wording : String)
deriving DecidableEq, Repr

def SystemError.message : SystemError → String
  | .notFound => "No such file or directory (os error 2)"
  | .alreadyExists => "File exists (os error 17)"
  | .notDirectory => "Not a directory (os error 20)"
  | .isDirectory => "Is a directory (os error 21)"
  | .invalidArgument => "Invalid argument (os error 22)"
  | .nameTooLong => "File name too long (os error 36)"
  | .nulInPath => "file name contained an unexpected NUL byte"
  | .stated wording => wording

end Hallmark
