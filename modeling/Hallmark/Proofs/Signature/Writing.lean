import Hallmark.Number.Digits
import Hallmark.Proofs.Number.Decimal
import Hallmark.Proofs.Signature.Reading
import Hallmark.Proofs.Signature.Spelling
import Hallmark.Proofs.Text.Splitting

/-!
# `Hallmark/Proofs/Signature/Writing.lean` — writing the parts of an entry line

Each part of an entry has one written form: numbers in decimal, every byte of a pattern as a
hexadecimal escape. Such a form is one token (`Token.IsToken`), and the reader of its part gives the part
back: `Offset.read_written`, `ValueType.read_written`, `Test.read_written`. What cannot be written is
left out by `ValueType.IsNamed` and `Test.Suits`.
-/

set_option autoImplicit false

namespace Hallmark.Signature

/-! ## Offsets -/

/-- An offset in decimal, after an ampersand if it is relative. -/
def Offset.written : Offset → List Char
  | .absolute position => Number.digits 10 position.toNat
  | .relative delta => '&' :: Number.decimal delta.toInt

/-- Only below the top level is there a match that an offset can be relative to. -/
def Offset.StandsAt (level : Nat) : Offset → Prop
  | .absolute _ => True
  | .relative _ => level ≠ 0

instance (level : Nat) (offset : Offset) : Decidable (offset.StandsAt level) :=
  match offset with
  | .absolute _ => inferInstanceAs (Decidable True)
  | .relative _ => inferInstanceAs (Decidable (level ≠ 0))

theorem isDigit_or_of_mem_decimal {n : Int} {c : Char} (h : c ∈ Number.decimal n) :
    c.isDigit = true ∨ c = '-' := by
  cases n with
  | ofNat n => exact .inl (Number.isDigit_of_mem_digits h)
  | negSucc n =>
    rcases List.mem_cons.1 h with rfl | h
    · exact .inr rfl
    · exact .inl (Number.isDigit_of_mem_digits h)

theorem isPlain_of_mem_decimal {n : Int} {c : Char} (h : c ∈ Number.decimal n) :
    Token.isPlain c = true := by
  rcases isDigit_or_of_mem_decimal h with h | rfl
  · exact Token.isPlain_of_isDigit h
  · rfl

theorem Offset.of_mem_written {offset : Offset} {c : Char} (h : c ∈ offset.written) :
    c.isDigit = true ∨ c = '-' ∨ c = '&' := by
  cases offset with
  | absolute position => exact .inl (Number.isDigit_of_mem_digits h)
  | relative delta =>
    rcases List.mem_cons.1 h with rfl | h
    · exact .inr (.inr rfl)
    · rcases isDigit_or_of_mem_decimal h with h | h
      · exact .inl h
      · exact .inr (.inl h)

theorem Offset.isToken_written (offset : Offset) : Token.IsToken offset.written := by
  apply Token.isToken_of_isPlain
  · cases offset with
    | absolute position => exact Number.digits_ne_nil 10 _
    | relative delta => exact List.cons_ne_nil _ _
  · intro c hc
    rcases Offset.of_mem_written hc with h | rfl | rfl
    · exact Token.isPlain_of_isDigit h
    · rfl
    · rfl

theorem Offset.read_written (number : Nat) {offset : Offset} {level : Nat} (h : offset.StandsAt level) :
    Offset.read number level offset.written = .ok offset := by
  cases offset with
  | absolute position =>
    have hliteral := Number.literal?_digits position
    have hdigit := @Number.isDigit_of_mem_digits position.toNat
    rw [Offset.written]
    cases hcs : Number.digits 10 position.toNat with
    | nil => exact absurd hcs (Number.digits_ne_nil 10 _)
    | cons c cs =>
      -- A digit starts neither an indirect nor a relative offset.
      have hc := hdigit (hcs ▸ List.mem_cons_self)
      have hparen : c ≠ '(' := by rintro rfl; exact absurd hc (by decide)
      have hamp : c ≠ '&' := by rintro rfl; exact absurd hc (by decide)
      rw [hcs] at hliteral
      simp [Offset.read, hparen, hamp, hliteral, orElse, Except.map]
  | relative delta =>
    have hlevel : level ≠ 0 := h
    simp [Offset.written, Offset.read, hlevel, Number.literal?_decimal, orElse, Except.map]

/-! ## Types -/

/-- The width and byte order of a number have a name. A single byte has no order and counts as little. -/
def NumberFormat.IsNamed (format : NumberFormat) : Prop :=
  format.width = 1 ∧ format.order = .little ∨
    format.width = 2 ∨ format.width = 4 ∨ format.width = 8

instance (format : NumberFormat) : Decidable format.IsNamed :=
  inferInstanceAs (Decidable (_ ∧ _ ∨ _))

def numberName (width : Nat) (order : ByteOrder) : List Char :=
  match width, order with
  | 1, _ => "byte".toList
  | 2, .little => "leshort".toList
  | 2, .big => "beshort".toList
  | 4, .little => "lelong".toList
  | 4, .big => "belong".toList
  | _, .little => "lequad".toList
  | _, .big => "bequad".toList

/-- The name of a numeric type, with one more `u` in front if it is unsigned. -/
def NumberFormat.name (format : NumberFormat) : List Char :=
  if format.isSigned then numberName format.width format.order
  else 'u' :: numberName format.width format.order

/-- The letters of flags, as one part if there are any. -/
def PatternFlags.parts (flags : PatternFlags) : List (List Char) :=
  if flags = {} then []
  else
    [(if flags.ignoreCase then ['c'] else []) ++ (if flags.compactBlanks then ['W'] else []) ++
      (if flags.optionalBlanks then ['w'] else [])]

namespace ValueType

/-- A numeric type has a name; every other type has one. -/
def IsNamed : ValueType → Prop
  | number format => format.IsNamed
  | text _ | search _ _ => True

instance (type : ValueType) : Decidable type.IsNamed :=
  match type with
  | number format => inferInstanceAs (Decidable format.IsNamed)
  | text _ | search _ _ => inferInstanceAs (Decidable True)

def name : ValueType → List Char
  | number format => format.name
  | text _ => "string".toList
  | search _ _ => "search".toList

/-- What is written after the name, each part after a slash. -/
def parts : ValueType → List (List Char)
  | number _ => []
  | text flags => flags.parts
  | search range flags => Number.digits 10 range.toNat :: flags.parts

def mask? : ValueType → Option UInt64
  | number format => format.mask
  | text _ | search _ _ => none

/-- A type: its name, its parts, and after an ampersand its mask in decimal. -/
def written (type : ValueType) : List Char :=
  type.name ++ type.parts.flatMap ('/' :: ·) ++
    type.mask?.elim [] fun mask => '&' :: Number.digits 10 mask.toNat

end ValueType

/-- A name is one of seven, and none of them starts like that of an unsigned type. -/
theorem numberType?_numberName {format : NumberFormat} (h : format.IsNamed) :
    numberType? (numberName format.width format.order) = some (format.width, format.order) ∧
      (numberName format.width format.order).head? ≠ some 'u' := by
  rcases h with ⟨hw, ho⟩ | hw | hw | hw
  · rw [hw, ho]
    decide +kernel
  · rw [hw]
    cases format.order <;> decide +kernel
  · rw [hw]
    cases format.order <;> decide +kernel
  · rw [hw]
    cases format.order <;> decide +kernel

theorem NumberFormat.isAlphanum_of_mem_name {format : NumberFormat} :
    ∀ c ∈ format.name, c.isAlphanum = true := by
  have hname : (numberName format.width format.order).all Char.isAlphanum = true := by
    unfold numberName
    split <;> decide +kernel
  apply List.all_eq_true.1
  rw [name]
  split
  · exact hname
  · exact hname

theorem NumberFormat.name_ne_nil (format : NumberFormat) : format.name ≠ [] := by
  have hname : numberName format.width format.order ≠ [] := by
    unfold numberName
    split <;> decide +kernel
  unfold name
  split
  · exact hname
  · exact List.cons_ne_nil _ _

theorem NumberFormat.named?_name {format : NumberFormat} (h : format.IsNamed) :
    NumberFormat.named? format.name format.mask = some format := by
  obtain ⟨htype, hhead⟩ := numberType?_numberName h
  rw [name]
  cases hs : format.isSigned with
  | false =>
    simp only [named?, htype, Bool.false_eq_true, if_false]
    rw [← hs]
  | true =>
    rw [if_pos rfl]
    unfold named?
    split
    · next rest he => exact absurd (by rw [he]; rfl) hhead
    · rw [htype, Option.map_some, ← hs]

theorem PatternFlags.isAlphanum_of_mem_parts {flags : PatternFlags} :
    ∀ part ∈ flags.parts, ∀ c ∈ part, c.isAlphanum = true := by
  have hall : flags.parts.all (·.all Char.isAlphanum) = true := by
    obtain ⟨ignoreCase, compactBlanks, optionalBlanks⟩ := flags
    cases ignoreCase <;> cases compactBlanks <;> cases optionalBlanks <;> decide +kernel
  intro part hp
  exact List.all_eq_true.1 (List.all_eq_true.1 hall part hp)

theorem PatternFlags.foldlM_parts (number : Nat) (flags : PatternFlags) (range : Option UInt64) :
    flags.parts.foldlM (Modifiers.addPart number) { range := range } =
      .ok { flags := flags, range := range } := by
  obtain ⟨ignoreCase, compactBlanks, optionalBlanks⟩ := flags
  cases ignoreCase <;> cases compactBlanks <;> cases optionalBlanks <;> rfl

namespace ValueType

theorem isAlphanum_of_mem_name {type : ValueType} : ∀ c ∈ type.name, c.isAlphanum = true := by
  cases type with
  | number format => exact NumberFormat.isAlphanum_of_mem_name
  | text => exact List.all_eq_true.1 (by decide +kernel : "string".toList.all Char.isAlphanum = true)
  | search => exact List.all_eq_true.1 (by decide +kernel : "search".toList.all Char.isAlphanum = true)

theorem name_ne_nil (type : ValueType) : type.name ≠ [] := by
  cases type with
  | number format => exact format.name_ne_nil
  | text => exact (by decide +kernel : "string".toList ≠ [])
  | search => exact (by decide +kernel : "search".toList ≠ [])

theorem isAlphanum_of_mem_parts {type : ValueType} :
    ∀ part ∈ type.parts, ∀ c ∈ part, c.isAlphanum = true := by
  cases type with
  | number => simp [parts]
  | text => exact PatternFlags.isAlphanum_of_mem_parts
  | search range flags =>
    intro part hp c hc
    rcases List.mem_cons.1 hp with rfl | hp
    · exact Token.isAlphanum_of_isDigit (Number.isDigit_of_mem_digits hc)
    · exact PatternFlags.isAlphanum_of_mem_parts part hp c hc

/-- The digits of a range are not taken for flags. -/
theorem addPart_digits (number : Nat) (modifiers : Modifiers) (range : UInt64) :
    modifiers.addPart number (Number.digits 10 range.toNat) =
      .ok { modifiers with range := some range } := by
  have hne : (Number.digits 10 range.toNat).isEmpty = false := by
    simp [Number.digits_ne_nil]
  have hrange : isRange (Number.digits 10 range.toNat) = true := by
    rw [isRange, Bool.or_eq_true, List.all_eq_true]
    exact .inl fun c => Number.isDigit_of_mem_digits
  rw [Modifiers.addPart, hne, hrange, Number.literal?_digits]
  rfl

theorem named_parts (line : Nat) {type : ValueType} (h : type.IsNamed) :
    named line type.name type.parts type.mask? = .ok type := by
  cases type with
  | number format =>
    rw [named, name, mask?, NumberFormat.named?_name h]
    rfl
  | text flags =>
    have hname : NumberFormat.named? "string".toList none = none := by decide +kernel
    have hparts := PatternFlags.foldlM_parts line flags none
    simp only [named, name, parts, mask?, hname, ofText, hparts, String.ofList_toList]
    rfl
  | search range flags =>
    have hname : NumberFormat.named? "search".toList none = none := by decide +kernel
    have hparts := PatternFlags.foldlM_parts line flags (some range)
    have hrange := addPart_digits line {} range
    simp only [named, name, parts, mask?, hname, ofText, List.foldlM_cons, hrange, bind, Except.bind,
      hparts, String.ofList_toList]
    rfl

theorem of_mem_front {type : ValueType} {c : Char}
    (h : c ∈ type.name ++ type.parts.flatMap ('/' :: ·)) : c.isAlphanum = true ∨ c = '/' := by
  rcases List.mem_append.1 h with h | h
  · exact .inl (isAlphanum_of_mem_name c h)
  · obtain ⟨part, hp, hc⟩ := List.mem_flatMap.1 h
    rcases List.mem_cons.1 hc with rfl | hc
    · exact .inr rfl
    · exact .inl (isAlphanum_of_mem_parts part hp c hc)

theorem read_written (line : Nat) {type : ValueType} (h : type.IsNamed) :
    read line type.written = .ok type := by
  have hslash : ∀ cs : List Char, (∀ c ∈ cs, c.isAlphanum = true) → '/' ∉ cs :=
    fun cs hcs hm => absurd (hcs '/' hm) (by decide)
  have hamp : '&' ∉ type.name ++ type.parts.flatMap ('/' :: ·) := by
    intro hm
    rcases of_mem_front hm with h | h
    · exact absurd h (by decide)
    · exact absurd h (by decide)
  have hpieces : Text.pieces '/' (type.name ++ type.parts.flatMap ('/' :: ·)) =
      type.name :: type.parts :=
    Text.pieces_join (hslash _ isAlphanum_of_mem_name)
      fun part hp => hslash part (isAlphanum_of_mem_parts part hp)
  rw [read, written]
  cases hmask : type.mask? with
  | none =>
    rw [Option.elim_none, List.append_nil, Text.splitAt?_eq_none hamp]
    simp only [bind, Except.bind, hpieces]
    rw [← hmask, named_parts line h]
  | some mask =>
    rw [Option.elim_some, Text.splitAt?_append _ hamp]
    simp only [bind, Except.bind, Number.literal?_digits, orElse, Except.map, hpieces]
    rw [← hmask, named_parts line h]

theorem isToken_written (type : ValueType) : Token.IsToken type.written := by
  apply Token.isToken_of_isPlain
  · simp [written, name_ne_nil]
  · intro c hc
    rcases List.mem_append.1 hc with hc | hc
    · rcases of_mem_front hc with h | rfl
      · exact Token.isPlain_of_isAlphanum h
      · rfl
    · cases hmask : type.mask? with
      | none => simp [hmask] at hc
      | some mask =>
        rw [hmask, Option.elim_some] at hc
        rcases List.mem_cons.1 hc with rfl | hc
        · rfl
        · exact Token.isPlain_of_isDigit (Number.isDigit_of_mem_digits hc)

end ValueType

/-! ## Tests -/

def NumberOp.sign : NumberOp → Char
  | equal => '='
  | notEqual => '!'
  | less => '<'
  | greater => '>'
  | allSet => '&'
  | notAllSet => '^'
  | any => 'x'

def TextOp.sign : TextOp → Char
  | equal => '='
  | notEqual => '!'
  | less => '<'
  | greater => '>'
  | any => 'x'

/-- A byte as a hexadecimal escape. -/
def Escape.escaped (byte : UInt8) : List Char :=
  ['\\', 'x', Nat.digitChar (byte.toNat / 16), Nat.digitChar (byte.toNat % 16)]

namespace Test

/-- A test that can be written for a type: it compares what the type reads, and has nothing to compare
with exactly if anything passes. -/
def Suits : Test → ValueType → Prop
  | number op value, .number format => value.toNat < 256 ^ format.width ∧ (op = .any → value = 0)
  | text op pattern, .text _ | text op pattern, .search _ _ => op = .any ↔ pattern = []
  | _, _ => False

instance (test : Test) (type : ValueType) : Decidable (test.Suits type) :=
  match test, type with
  | number op value, .number format =>
    inferInstanceAs (Decidable (value.toNat < 256 ^ format.width ∧ (op = .any → value = 0)))
  | text op pattern, .text _ | text op pattern, .search _ _ =>
    inferInstanceAs (Decidable (op = .any ↔ pattern = []))
  | number _ _, .text _ | number _ _, .search _ _ | text _ _, .number _ =>
    inferInstanceAs (Decidable False)

/-- A test: its sign, and what is compared with. -/
def written : Test → List Char
  | number op value => op.sign :: if op = .any then [] else Number.digits 10 value.toNat
  | text op pattern => op.sign :: if op = .any then [] else pattern.flatMap Escape.escaped

end Test

/-- Escapes of two digits spell the bytes that they were made of. -/
theorem Escape.spells_escaped (pattern : List UInt8) : Spells (pattern.flatMap escaped) pattern := by
  induction pattern with
  | nil => exact .nil
  | cons byte rest ih =>
    have hhigh := Number.digit?_sixteen_digitChar (byte.toNat / 16) (by have := byte.toNat_lt; omega)
    have hlow := Number.digit?_sixteen_digitChar (byte.toNat % 16) (Nat.mod_lt _ (by decide))
    have hdigits : Number.Spells 16
        [Nat.digitChar (byte.toNat / 16), Nat.digitChar (byte.toNat % 16)] byte.toNat := by
      rw [Number.spells_iff (by decide)]
      simp [Number.digits?, hhigh, hlow, Nat.div_add_mod']
    exact .cons (.hexadecimal rfl hdigits) ih

theorem truncate_eq_self {value : UInt64} {width : Nat} (h : value.toNat < 256 ^ width) :
    Number.truncate value width = value := by
  rw [Number.truncate]
  split
  · rfl
  · rw [Nat.pow_eq, Nat.mod_eq_of_lt h, UInt64.ofNat_toNat]

namespace Test

theorem readNumber_sign (line : Nat) {op : NumberOp} (hop : op ≠ .any) (width : Nat) (value : UInt64) :
    readNumber line width (op.sign :: Number.digits 10 value.toNat) =
      .ok (.number op (Number.truncate value width)) := by
  have hliteral := Number.literal?_digits value
  cases op with
  | any => exact absurd rfl hop
  | _ => simp [readNumber, NumberOp.leading, NumberOp.sign, hliteral, orElse, Except.map]

theorem readText_sign (line : Nat) {op : TextOp} (hop : op ≠ .any) {pattern : List UInt8}
    (hne : pattern ≠ []) :
    readText line (op.sign :: pattern.flatMap Escape.escaped) = .ok (.text op pattern) := by
  have hresolve : (Escape.resolve (pattern.flatMap Escape.escaped)).mapError (DatabaseError.line line) =
      .ok pattern := by
    rw [(Escape.spells_escaped pattern).resolve_eq]
    rfl
  cases op with
  | any => exact absurd rfl hop
  | _ => simp [readText, TextOp.leading, TextOp.sign, hresolve, bind, Except.bind]

theorem readText_written (line : Nat) {op : TextOp} {pattern : List UInt8}
    (h : op = .any ↔ pattern = []) :
    readText line (written (.text op pattern)) = .ok (.text op pattern) := by
  by_cases hop : op = .any
  · obtain rfl := h.1 hop
    subst hop
    rfl
  · rw [written, if_neg hop]
    exact readText_sign line hop fun e => hop (h.2 e)

theorem read_written (line : Nat) {test : Test} {type : ValueType} (h : test.Suits type) :
    read line type test.written = .ok test := by
  cases test with
  | number op value =>
    cases type with
    | number format =>
      obtain ⟨hlt, hany⟩ := h
      by_cases hop : op = .any
      · obtain rfl := hany hop
        subst hop
        rfl
      · rw [written, if_neg hop, read, readNumber_sign line hop, truncate_eq_self hlt]
    | text | search => exact absurd h id
  | text op pattern =>
    cases type with
    | number => exact absurd h id
    | text | search => exact readText_written line h

theorem feed_not_mem_escaped (pattern : List UInt8) : '\n' ∉ pattern.flatMap Escape.escaped := by
  simp [Escape.escaped]

theorem isToken_written (test : Test) : Token.IsToken test.written := by
  cases test with
  | number op value =>
    have hsign : Token.isPlain op.sign = true := by cases op <;> rfl
    have hdigit : ∀ c ∈ Number.digits 10 value.toNat, Token.isPlain c = true :=
      fun c hc => Token.isPlain_of_isDigit (Number.isDigit_of_mem_digits hc)
    rw [written]
    split
    · exact Token.isToken_cons hsign .nil (List.not_mem_nil)
    · exact Token.isToken_of_isPlain (List.cons_ne_nil _ _) (List.forall_mem_cons.2 ⟨hsign, hdigit⟩)
  | text op pattern =>
    have hsign : Token.isPlain op.sign = true := by cases op <;> rfl
    rw [written]
    split
    · exact Token.isToken_cons hsign .nil (List.not_mem_nil)
    · exact Token.isToken_cons hsign (Escape.spells_escaped pattern).passes
        (feed_not_mem_escaped pattern)

end Test

end Hallmark.Signature
