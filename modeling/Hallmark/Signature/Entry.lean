/-!
# `Hallmark/Signature/Entry.lean` — signature entries

One entry says where to read in a buffer, how to read there, what to compare, and what to say on a
match. Entries stand in forests: an entry of level 0 is a signature of its own, and an entry one level
deeper than the last refines it.
-/

set_option autoImplicit false

namespace Hallmark.Signature

/-- The order of the bytes of a number. -/
inductive ByteOrder where
  | little
  | big
deriving DecidableEq, Repr

/-- Where an entry reads: from the start of the buffer, or from the end of its parent's match. -/
inductive Offset where
  | absolute (position : UInt64)
  | relative (delta : Int64)
deriving DecidableEq, Repr

structure PatternFlags where
  /-- ASCII letters are equal in either case. -/
  ignoreCase : Bool := false
  /-- A space in the pattern stands for one or more blanks. -/
  compactBlanks : Bool := false
  /-- A space in the pattern stands for any number of blanks, also for none. -/
  optionalBlanks : Bool := false
deriving DecidableEq, Repr

/-- A fixed number of bytes read as one number. -/
structure NumberFormat where
  width : Nat
  order : ByteOrder
  /-- Whether ordering compares two's complement. -/
  isSigned : Bool
  /-- Bits kept before comparing; `none` keeps all. -/
  mask : Option UInt64
deriving DecidableEq, Repr

/-- How the bytes at the offset are read. -/
inductive ValueType where
  /-- A number of fixed width. -/
  | number (format : NumberFormat)
  /-- A pattern, compared at the offset. -/
  | text (flags : PatternFlags)
  /-- A pattern, looked for at `range` positions from the offset on. -/
  | search (range : UInt64) (flags : PatternFlags)
deriving DecidableEq, Repr

inductive NumberOp where
  | equal
  | notEqual
  | less
  | greater
  /-- Every bit of the test value is set. -/
  | allSet
  /-- Some bit of the test value is clear. -/
  | notAllSet
  | any
deriving DecidableEq, Repr

inductive TextOp where
  | equal
  | notEqual
  | less
  | greater
  | any
deriving DecidableEq, Repr

inductive Test where
  | number (op : NumberOp) (value : UInt64)
  | text (op : TextOp) (pattern : List UInt8)
deriving DecidableEq, Repr

inductive Adjustment where
  | add (amount : Int64)
  | sub (amount : Int64)
  | mul (amount : Int64)
  | div (amount : Int64)
deriving DecidableEq, Repr

structure Entry where
  /-- How deep the entry stands: the number of `>` before its offset. -/
  level : Nat
  /-- The line it was read from, counted from 1. -/
  line : Nat
  offset : Offset
  type : ValueType
  test : Test
  /-- The template of what a match adds to the description. -/
  message : String
  /-- The MIME type that a match declares. -/
  mime : Option String
  adjustment : Option Adjustment
deriving DecidableEq, Repr

end Hallmark.Signature
