import Hallmark.Number.Digits

/-!
# `Hallmark/Signature/Reason.lean` — why a database line is refused

Every way in which a line of a signature database can be wrong, and its wording.
-/

set_option autoImplicit false

namespace Hallmark.Signature

/-- What is wrong with a line. Tokens are kept as they were written. -/
inductive Reason where
  | orphanDirective
  | missingMime
  | missingStrength
  | invalidStrength (argument : String)
  | invalidStrengthOperator (operator : Char)
  | missingOffset
  | missingType
  | missingTest
  | indirectOffset
  | relativeAtTop
  | invalidOffset (token : String)
  | invalidMask (mask : String)
  | numberWithModifiers (type : String)
  | textWithMask (type : String)
  | invalidRange (part : String)
  | unknownFlag (flag : Char)
  | searchWithoutRange
  | unknownType (type : String)
  | invalidNumberTest (token : String)
  | trailingBackslash
  | emptyHexEscape
  | emptyPattern
  | noParent (level : Nat)
  | invalidText
  /-- A reason worded by the caller. -/
  | stated (wording : String)
deriving DecidableEq, Repr

def Reason.message : Reason → String
  | .orphanDirective => "directive before any entry"
  | .missingMime => "missing MIME type"
  | .missingStrength => "missing strength adjustment"
  | .invalidStrength argument => s!"invalid strength '{argument}'"
  | .invalidStrengthOperator operator =>
    "invalid strength operator '" ++ String.singleton operator ++ "'"
  | .missingOffset => "missing offset"
  | .missingType => "missing type"
  | .missingTest => "missing test"
  | .indirectOffset => "indirect offsets are not supported"
  | .relativeAtTop => "relative offset on a top-level entry"
  | .invalidOffset token => s!"invalid offset '{token}'"
  | .invalidMask mask => s!"invalid mask '{mask}'"
  | .numberWithModifiers type => s!"numeric type '{type}' takes no modifiers"
  | .textWithMask type => s!"type '{type}' does not take a mask"
  | .invalidRange part => s!"invalid range '{part}'"
  | .unknownFlag flag => "unknown string flag '" ++ String.singleton flag ++ "'"
  | .searchWithoutRange => "search requires a range, e.g. search/256"
  | .unknownType type => s!"unknown type '{type}'"
  | .invalidNumberTest token => s!"invalid numeric test '{token}'"
  | .trailingBackslash => "trailing backslash in pattern"
  | .emptyHexEscape => "\\x without hex digits"
  | .emptyPattern => "empty string pattern"
  | .noParent level => "level " ++ Number.decimalText level ++ " entry has no parent"
  | .invalidText => "invalid UTF-8"
  | .stated wording => wording

end Hallmark.Signature
