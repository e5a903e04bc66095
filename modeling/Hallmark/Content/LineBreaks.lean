/-!
# `Hallmark/Content/LineBreaks.lean` — the line breaks of a buffer

A carriage return directly before a line feed is one break with it; either of the two is a break of
its own elsewhere. The usual case, line feeds alone, goes without saying.
-/

set_option autoImplicit false

namespace Hallmark.Content

/-- The kinds of line breaks that occur. -/
structure LineBreaks where
  crlf : Bool := false
  cr : Bool := false
  lf : Bool := false
deriving DecidableEq, Repr

/-- The kinds of line breaks in a buffer. -/
def LineBreaks.of : List UInt8 → LineBreaks
  | [] => {}
  | 0x0D :: 0x0A :: rest => { LineBreaks.of rest with crlf := true }
  | 0x0D :: rest => { LineBreaks.of rest with cr := true }
  | 0x0A :: rest => { LineBreaks.of rest with lf := true }
  | _ :: rest => LineBreaks.of rest

def LineBreaks.names (breaks : LineBreaks) : List String :=
  (if breaks.crlf then ["CRLF"] else []) ++ (if breaks.cr then ["CR"] else []) ++
    (if breaks.lf then ["LF"] else [])

/-- What a description says about line breaks. -/
def LineBreaks.remark (breaks : LineBreaks) : String :=
  if breaks.crlf || breaks.cr then
    ", with " ++ ", ".intercalate breaks.names ++ " line terminators"
  else if breaks.lf then ""
  else ", with no line terminators"

end Hallmark.Content
