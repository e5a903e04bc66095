import Hallmark.Proofs.Number.Spelling
import Hallmark.Proofs.Signature.Token
import Hallmark.Proofs.Text.Utf8
import Hallmark.Signature.Escape

/-!
# `Hallmark/Proofs/Signature/Spelling.lean` — how patterns are spelt

A byte of a pattern can be written as an escape in four ways, and a character that is neither a backslash
nor a blank can stand for its own bytes (`Escape.Denotes`). Two readers go over such a text, each with a
rule of its own for where an escape ends: one resolves the escapes, one looks for the end of the token. On
a text that is spelt so (`Escape.Spells`) both step from one spelling to the next, whatever follows
(`Denotes.resolve_append`, `Denotes.passes`). Main statement: `spelling_read`.
-/

set_option autoImplicit false

namespace Hallmark.Signature.Escape

/-! ## Spellings -/

/-- The letters that stand for control bytes after a backslash. -/
def letters : List (Char × UInt8) :=
  [('a', 0x07), ('b', 0x08), ('t', 0x09), ('n', 0x0A), ('v', 0x0B), ('f', 0x0C), ('r', 0x0D)]

/-- The characters that do not stand for themselves after a backslash. -/
def reserved : List Char :=
  ['a', 'b', 'f', 'n', 'r', 't', 'v', 'x', '0', '1', '2', '3', '4', '5', '6', '7']

/-- A spelling of one byte, or of the bytes of one character. -/
inductive Denotes : List Char → List UInt8 → Prop
  | hexadecimal {ds : List Char} {byte : UInt8} (two : ds.length = 2)
      (h : Number.Spells 16 ds byte.toNat) : Denotes ('\\' :: 'x' :: ds) [byte]
  | octal {ds : List Char} {byte : UInt8} (three : ds.length = 3)
      (h : Number.Spells 8 ds byte.toNat) : Denotes ('\\' :: ds) [byte]
  | letter {c : Char} {byte : UInt8} (h : (c, byte) ∈ letters) : Denotes ['\\', c] [byte]
  | itself {c : Char} (ascii : c.toNat < 0x80) (h : c ∉ reserved) :
      Denotes ['\\', c] [UInt8.ofNat c.toNat]
  | raw {c : Char} (escape : c ≠ '\\') (blank : Text.isAsciiBlank c = false) :
      Denotes [c] (String.utf8EncodeChar c)

/-- A text spells the bytes that its parts stand for, in order. -/
inductive Spells : List Char → List UInt8 → Prop
  | nil : Spells [] []
  | cons {part cs : List Char} {bytes bs : List UInt8} (hpart : Denotes part bytes) (h : Spells cs bs) :
      Spells (part ++ cs) (bytes ++ bs)

/-! ## Digits -/

section Digits

variable {base acc n : Nat} {c : Char} {cs ds : List Char}

/-- A run of as many digits as are taken stops behind them, digit or not. -/
theorem digitRun_append (h : Number.digits? base acc ds = some n) (rest : List Char) :
    digitRun base ds.length acc (ds ++ rest) = (n, rest) := by
  induction ds generalizing acc with
  | nil =>
    cases h
    rw [List.nil_append, List.length_nil, digitRun]
  | cons d ds ih =>
    rw [Number.digits?] at h
    cases hd : Number.digit? base d with
    | none => simp [hd] at h
    | some value =>
      rw [hd] at h
      rw [List.cons_append, List.length_cons, digitRun, hd]
      exact ih h

/-- The first of some digits, and the others read after it. -/
theorem exists_digit?_of_spells (hbase : base ≤ 16) (h : Number.Spells base ds n) :
    ∃ c cs d, ds = c :: cs ∧ Number.digit? base c = some d ∧ Number.digits? base d cs = some n := by
  obtain ⟨hne, hread⟩ := (Number.spells_iff hbase).1 h
  obtain ⟨c, cs, rfl⟩ := List.exists_cons_of_ne_nil hne
  rw [Number.digits?] at hread
  cases hd : Number.digit? base c with
  | none => simp [hd] at hread
  | some d =>
    rw [hd] at hread
    exact ⟨c, cs, d, rfl, hd, by simpa using hread⟩

/-- Digits neither end a token nor escape anything. -/
theorem passes_of_digits? (h : Number.digits? base acc ds = some n) : Token.Passes ds := by
  have hnone : ∀ c ∈ ['\\', ' ', '\t', '\n', '\x0c', '\r'], Number.digit? base c = none := by
    simp [Number.digit?]
  refine Token.Passes.of_forall fun c hc => ⟨?_, ?_⟩
  · rintro rfl
    exact Number.not_mem_of_digits? (hnone '\\' (by simp)) h hc
  · rw [Bool.eq_false_iff]
    intro hblank
    have hmem : c ∈ [' ', '\t', '\n', '\x0c', '\r'] := by
      simpa [Text.isAsciiBlank, or_assoc] using hblank
    exact Number.not_mem_of_digits? (hnone c (List.mem_cons_of_mem _ hmem)) h hc

end Digits

/-! ## Escapes -/

section Escapes

variable {c : Char} {byte : UInt8} {cs part : List Char} {bytes bs : List UInt8}

theorem control?_eq_some_iff : control? c = some byte ↔ (c, byte) ∈ letters := by
  constructor
  · intro h
    unfold control? at h
    split at h <;> simp_all [letters]
  · intro h
    simp only [letters, List.mem_cons, Prod.mk.injEq, List.not_mem_nil, or_false] at h
    rcases h with ⟨rfl, rfl⟩ | ⟨rfl, rfl⟩ | ⟨rfl, rfl⟩ | ⟨rfl, rfl⟩ | ⟨rfl, rfl⟩ | ⟨rfl, rfl⟩ |
      ⟨rfl, rfl⟩ <;> rfl

theorem mem_reserved_of_control? (h : control? c = some byte) : c ∈ reserved := by
  have hmem := control?_eq_some_iff.1 h
  have hall : ∀ p ∈ letters, p.1 ∈ reserved := by decide
  exact hall _ hmem

theorem mem_reserved_of_digit? {d : Nat} (h : Number.digit? 8 c = some d) : c ∈ reserved := by
  obtain ⟨hd, hc⟩ := (Number.digit?_eq_some_iff (by decide)).1 h
  have hall : ∀ d < 8, Nat.digitChar d ∈ reserved ∧ (Nat.digitChar d).toUpper ∈ reserved := by decide
  rcases hc with rfl | rfl
  · exact (hall d hd).1
  · exact (hall d hd).2

/-- An octal digit after a backslash is no letter. -/
theorem control?_of_digit? {d : Nat} (h : Number.digit? 8 c = some d) : control? c = none := by
  cases hc : control? c with
  | none => rfl
  | some byte =>
    have hall : ∀ p ∈ letters, Number.digit? 8 p.1 = none := by decide
    have hnone := hall _ (control?_eq_some_iff.1 hc)
    rw [h] at hnone
    cases hnone

theorem resolve_letter (h : control? c = some byte) (rest : List Char) :
    resolve ('\\' :: c :: rest) = (resolve rest).map (byte :: ·) := by
  cases rest <;> simp [resolve, h]

theorem resolve_octal {d : Nat} (h : Number.digit? 8 c = some d) (rest : List Char) :
    resolve ('\\' :: c :: rest) =
      (resolve (digitRun 8 2 d rest).2).map (UInt8.ofNat (digitRun 8 2 d rest).1 :: ·) := by
  have hx : c ≠ 'x' := by
    rintro rfl
    cases h
  cases rest <;> simp [resolve, control?_of_digit? h, hx, h]

theorem resolve_itself (h : c ∉ reserved) (rest : List Char) :
    resolve ('\\' :: c :: rest) = (resolve rest).map (String.utf8EncodeChar c ++ ·) := by
  have hcontrol : control? c = none :=
    Option.eq_none_iff_forall_not_mem.2 fun byte hb => h (mem_reserved_of_control? hb)
  have hdigit : Number.digit? 8 c = none :=
    Option.eq_none_iff_forall_not_mem.2 fun d hd => h (mem_reserved_of_digit? hd)
  have hx : c ≠ 'x' := by
    rintro rfl
    exact h (by decide)
  cases rest <;> simp [resolve, hcontrol, hx, hdigit]

theorem resolve_raw (h : c ≠ '\\') (rest : List Char) :
    resolve (c :: rest) = (resolve rest).map (String.utf8EncodeChar c ++ ·) := by
  rw [resolve]
  · exact fun e => absurd e h
  · exact fun d ds e => absurd e h

/-- The bytes of a spelling come first, and its end is where reading goes on. -/
theorem Denotes.resolve_append (h : Denotes part bytes) (rest : List Char) :
    resolve (part ++ rest) = (resolve rest).map (bytes ++ ·) := by
  cases h with
  | @hexadecimal ds byte two h =>
    obtain ⟨c, cs, d, rfl, hd, hcs⟩ := exists_digit?_of_spells (by decide) h
    have hrun := digitRun_append hcs rest
    rw [Nat.succ.inj two] at hrun
    simp [resolve, control?, hd, hrun]
  | @octal ds byte three h =>
    obtain ⟨c, cs, d, rfl, hd, hcs⟩ := exists_digit?_of_spells (by decide) h
    have hrun := digitRun_append hcs rest
    rw [Nat.succ.inj three] at hrun
    simp [resolve_octal hd, hrun]
  | letter h => exact resolve_letter (control?_eq_some_iff.2 h) rest
  | @itself c ascii h =>
    have hbytes : String.utf8EncodeChar c = [UInt8.ofNat c.toNat] := by
      have hascii := Text.Utf8.utf8EncodeChar_ofNat (v := c.toNat) c.valid
      rwa [Char.ofNat_toNat, if_pos (Nat.le_of_lt_succ ascii)] at hascii
    rw [← hbytes]
    exact resolve_itself h rest
  | raw escape blank => exact resolve_raw escape rest

/-- No spelling ends a token, and none escapes what follows it. -/
theorem Denotes.passes (h : Denotes part bytes) : Token.Passes part := by
  cases h with
  | hexadecimal two h =>
    obtain ⟨-, hread⟩ := (Number.spells_iff (by decide)).1 h
    exact (Token.Passes.escape 'x').append (passes_of_digits? hread)
  | octal three h =>
    obtain ⟨c, cs, d, rfl, -, hcs⟩ := exists_digit?_of_spells (by decide) h
    exact (Token.Passes.escape c).append (passes_of_digits? hcs)
  | letter h => exact .escape _
  | itself ascii h => exact .escape _
  | raw escape blank => exact .char escape blank

end Escapes

/-! ## Spelt texts -/

section Texts

variable {cs cs' : List Char} {bs bs' : List UInt8}

theorem Spells.append (h : Spells cs bs) (h' : Spells cs' bs') : Spells (cs ++ cs') (bs ++ bs') := by
  induction h with
  | nil => exact h'
  | cons hpart _ ih =>
    rw [List.append_assoc, List.append_assoc]
    exact .cons hpart ih

/-- A spelt text is never refused, and means what it spells. -/
theorem Spells.resolve_eq (h : Spells cs bs) : resolve cs = .ok bs := by
  induction h with
  | nil => rw [resolve]
  | cons hpart _ ih =>
    rw [hpart.resolve_append, ih]
    rfl

theorem Spells.passes (h : Spells cs bs) : Token.Passes cs := by
  induction h with
  | nil => exact .nil
  | cons hpart _ ih => exact hpart.passes.append ih

/-- **Both readers go from spelling to spelling.** The escapes of a spelt text are resolved to the bytes
that it spells, before any further spelt text, and a token that starts with it runs up to the tab behind
it, unless it starts with a blank. -/
theorem spelling_read (h : Spells cs bs) :
    resolve cs = .ok bs ∧
    (∀ (cs' : List Char) (bs' : List UInt8), Spells cs' bs' →
      resolve cs' = .ok bs' ∧ resolve (cs ++ cs') = .ok (bs ++ bs')) ∧
    (cs ≠ [] → (∀ c ∈ cs.head?, Text.isBlank c = false) → ∀ message : List Char,
      Token.next? (cs ++ '\t' :: message) = some (cs, '\t' :: message)) := by
  refine ⟨h.resolve_eq, ?_, ?_⟩
  · intro cs' bs' h'
    exact ⟨h'.resolve_eq, (h.append h').resolve_eq⟩
  · intro hne hfirst message
    exact Token.next?_of_stops hne hfirst h.passes.stops message

/-- A byte in base sixteen and one in base eight, a letter, an escaped blank and an escaped backslash, and
a character of two bytes. -/
theorem spelling_read_mixed :
    ∃ (cs : List Char) (bs : List UInt8), cs = "\\x8F\\377\\n\\ \\\\é".toList ∧
      bs = [0x8F, 0xFF, 0x0A, 0x20, 0x5C, 0xC3, 0xA9] ∧ Spells cs bs ∧ resolve cs = .ok bs ∧
      Token.next? (cs ++ ['\t', 'm']) = some (cs, ['\t', 'm']) := by
  have hsixteen : Denotes ['\\', 'x', '8', 'F'] [0x8F] :=
    .hexadecimal rfl ((Number.spells_iff (by decide)).2 (by decide))
  have height : Denotes ['\\', '3', '7', '7'] [0xFF] :=
    .octal rfl ((Number.spells_iff (by decide)).2 (by decide))
  have hletter : Denotes ['\\', 'n'] [0x0A] := .letter (by decide)
  have hblank : Denotes ['\\', ' '] [0x20] := .itself (by decide) (by decide)
  have hbackslash : Denotes ['\\', '\\'] [0x5C] := .itself (by decide) (by decide)
  have hraw : Denotes ['é'] [0xC3, 0xA9] := .raw (by decide) (by decide)
  have hspells := Spells.cons hsixteen <| .cons height <| .cons hletter <| .cons hblank <|
    .cons hbackslash <| .cons hraw .nil
  obtain ⟨hresolve, -, hnext⟩ := spelling_read hspells
  have hfirst : ∀ c ∈ some '\\', Text.isBlank c = false := by
    rintro c ⟨⟩
    decide
  exact ⟨_, _, by decide +kernel, rfl, hspells, hresolve, hnext (List.cons_ne_nil _ _) hfirst ['m']⟩

end Texts

end Hallmark.Signature.Escape
