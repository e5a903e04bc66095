import Hallmark.Content.Kind
import Hallmark.Proofs.Content.LineBreaks
import Hallmark.Proofs.Text.Cut

/-!
# `Hallmark/Proofs/Content/Classification.lean` — what is text

A buffer is ASCII text if all its bytes are plain (`IsAscii`), and UTF-8 text if it is a text up to a start
of one more character, with no control characters but the six that text may hold (`IsTextChar`). Neither
depends on how the buffer is read. Main statement: `classify_exact`.
-/

set_option autoImplicit false

namespace Hallmark.Content

open Text.Utf8 (IsCutText IsStart encode)

/-- The control characters that text may hold: tab, line feed, carriage return, form feed, escape and
backspace. -/
def textControls : List Nat := [0x09, 0x0A, 0x0D, 0x0C, 0x1B, 0x08]

/-- Printable ASCII, or one of the control characters of text. -/
def IsPlain (b : UInt8) : Prop := (0x20 ≤ b.toNat ∧ b.toNat ≤ 0x7E) ∨ b.toNat ∈ textControls

/-- Each byte is plain. -/
def IsAscii (bs : List UInt8) : Prop := ∀ b ∈ bs, IsPlain b

/-- A character that text may hold: if it is in one of the two control blocks, it is one of the control
characters of text. -/
def IsTextChar (c : Char) : Prop :=
  c.toNat < 0x20 ∨ (0x7F ≤ c.toNat ∧ c.toNat ≤ 0x9F) → c.toNat ∈ textControls

variable {buffer : List UInt8}

/-! ## Bytes and characters -/

theorem isTextByte_iff {b : UInt8} : isTextByte b = true ↔ IsPlain b := by
  simp only [isTextByte, IsPlain, textControls, Bool.or_eq_true, Bool.and_eq_true, decide_eq_true_eq,
    beq_iff_eq, ← UInt8.toNat_inj, UInt8.le_iff_toNat_le, UInt8.reduceToNat, List.mem_cons,
    List.not_mem_nil, or_false]
  omega

theorem isTextChar_iff {c : Char} : isTextChar c = true ↔ IsTextChar c := by
  have hbyte : c.toNat < 0x80 → (UInt8.ofNat c.toNat).toNat = c.toNat :=
    fun h => Text.Utf8.toNat_ofNat_of_lt (by omega)
  simp only [isTextChar, isControl, IsTextChar, Bool.or_eq_true, Bool.and_eq_true,
    Bool.not_eq_true', Bool.or_eq_false_iff, Bool.and_eq_false_iff, decide_eq_true_eq,
    decide_eq_false_iff_not, isTextByte_iff, IsPlain, textControls, List.mem_cons, List.not_mem_nil,
    or_false]
  omega

theorem all_isTextByte_iff : buffer.all isTextByte = true ↔ IsAscii buffer := by
  simp only [IsAscii, List.all_eq_true, isTextByte_iff]

theorem isUtf8Text_iff : isUtf8Text buffer = true ↔ IsCutText IsTextChar buffer := by
  rw [Text.Utf8.isCutText_iff]
  simp only [isUtf8Text, Bool.and_eq_true, Bool.or_eq_true, List.isEmpty_iff, List.all_eq_true,
    Text.Utf8.isCutShort_iff, isTextChar_iff]

/-! ## Labels -/

/-- A buffer that is not empty is ASCII text, other text, or no text. -/
theorem classify_cases (hne : buffer ≠ []) :
    (IsAscii buffer ∧
      classify buffer = ⟨"ASCII text" ++ (LineBreaks.of buffer).remark, some "text/plain"⟩) ∨
    ((¬ IsAscii buffer ∧ IsCutText IsTextChar buffer) ∧
      classify buffer = ⟨"UTF-8 Unicode text" ++ (LineBreaks.of buffer).remark, some "text/plain"⟩) ∨
    ((¬ IsAscii buffer ∧ ¬ IsCutText IsTextChar buffer) ∧
      classify buffer = ⟨"data", some "application/octet-stream"⟩) := by
  have hempty : buffer.isEmpty = false := List.isEmpty_eq_false_iff.2 hne
  simp only [classify, Kind.of, hempty, ← all_isTextByte_iff, ← isUtf8Text_iff]
  cases buffer.all isTextByte <;> cases isUtf8Text buffer <;> simp

/-- **What is text, and what its label says.** -/
theorem classify_exact (hne : buffer ≠ []) :
    ∃ suffix, ∃ kinds : List LineBreak,
      (classify buffer = ⟨"ASCII text" ++ suffix, some "text/plain"⟩ ↔ IsAscii buffer) ∧
      (classify buffer = ⟨"UTF-8 Unicode text" ++ suffix, some "text/plain"⟩ ↔
        ¬ IsAscii buffer ∧ IsCutText IsTextChar buffer) ∧
      (classify buffer = ⟨"data", some "application/octet-stream"⟩ ↔
        ¬ IsAscii buffer ∧ ¬ IsCutText IsTextChar buffer) ∧
      -- The suffix names the kinds of line breaks that occur, in this order.
      kinds.Sublist [.crlf, .cr, .lf] ∧ (∀ kind, kind ∈ kinds ↔ kind.Occurs buffer) ∧
      (suffix = ", with no line terminators" ↔ ∀ kind : LineBreak, ¬ kind.Occurs buffer) ∧
      (suffix = "" ↔ ∀ kind : LineBreak, kind.Occurs buffer ↔ kind = .lf) ∧
      (kinds ≠ [] → kinds ≠ [.lf] → suffix =
        ", with " ++ ", ".intercalate (kinds.map LineBreak.name) ++ " line terminators") := by
  have hsuffix : ∀ kind, kind ∈ (LineBreaks.of buffer).kinds ↔ kind.Occurs buffer := by
    intro kind
    rw [LineBreaks.mem_kinds_iff, LineBreaks.has_of_iff]
  refine ⟨(LineBreaks.of buffer).remark, (LineBreaks.of buffer).kinds, ?ascii, ?utf8, ?data,
    LineBreaks.kinds_sublist _, hsuffix, ?none, ?silent, ?named⟩
  case none => simp only [LineBreaks.remark_eq_none_iff, LineBreaks.has_of_iff]
  case silent => simp only [LineBreaks.remark_eq_empty_iff, LineBreaks.has_of_iff]
  case named =>
    intro hsome hmore
    rw [LineBreaks.remark_eq, remarkOn, if_neg hsome, if_neg hmore]
  all_goals
    rcases classify_cases hne with ⟨hascii, hlabel⟩ | ⟨hutf8, hlabel⟩ | ⟨hdata, hlabel⟩
    · simp [hlabel, hascii]
    · simp [hlabel, hutf8]
    · simp [hlabel, hdata]

/-- A letter with an accent, two carriage returns, two line feeds and the first two bytes of a euro sign:
the second return and the first line feed are a pair, and each of the others is a break of its own. -/
theorem classify_exact_mixed :
    ∃ buffer suffix, ∃ kinds : List LineBreak,
      buffer = [0xC3, 0xA9, 0x0D, 0x0D, 0x0A, 0x0A, 0xE2, 0x82] ∧ buffer ≠ [] ∧
      ¬ IsAscii buffer ∧ IsCutText IsTextChar buffer ∧ kinds = [.crlf, .cr, .lf] ∧
      suffix = ", with CRLF, CR, LF line terminators" ∧
      classify buffer = ⟨"UTF-8 Unicode text" ++ suffix, some "text/plain"⟩ := by
  let buffer : List UInt8 := [0xC3, 0xA9, 0x0D, 0x0D, 0x0A, 0x0A, 0xE2, 0x82]
  have hne : buffer ≠ [] := List.cons_ne_nil _ _
  have hascii : ¬ IsAscii buffer := by
    intro h
    have hlead := h 0xC3 List.mem_cons_self
    simp [IsPlain, textControls] at hlead
  have hutf8 : IsCutText IsTextChar buffer := by
    refine ⟨['\u00e9', '\r', '\r', '\n', '\n'], [0xE2, 0x82], rfl, .inr ⟨'\u20ac', 2, ?_⟩, ?_⟩
    · decide
    · simp [IsTextChar, textControls]
  have hcrlf : LineBreak.crlf.Occurs buffer := ⟨3, rfl, rfl⟩
  have hcr : LineBreak.cr.Occurs buffer := ⟨2, rfl, by decide⟩
  have hlf : LineBreak.lf.Occurs buffer := ⟨5, rfl, by simp [buffer]⟩
  obtain ⟨suffix, kinds, -, hlabel, -, hordered, hmem, -, -, hnamed⟩ := classify_exact hne
  have hkinds : kinds = [.crlf, .cr, .lf] := by
    have hall : ∀ some ∈ List.sublists [LineBreak.crlf, .cr, .lf],
        .crlf ∈ some → .cr ∈ some → .lf ∈ some → some = [.crlf, .cr, .lf] := by decide
    exact hall kinds (List.mem_sublists.2 hordered) ((hmem _).2 hcrlf) ((hmem _).2 hcr)
      ((hmem _).2 hlf)
  subst hkinds
  exact ⟨buffer, suffix, _, rfl, hne, hascii, hutf8, rfl, hnamed (by decide) (by decide),
    hlabel.2 ⟨hascii, hutf8⟩⟩

end Hallmark.Content
