import Hallmark.Proofs.Content.Classification

/-!
# `Hallmark/Proofs/Content/Truncation.lean` — the start of a text

A file is identified by its start, which can end anywhere: inside a character, or inside a line break. The
start of a text is a text all the same (`text_of_start`), since both kinds of text can be cut. Of the kinds
of line breaks the start shows no others than the whole, unless it ends between a carriage return and its
line feed, in which case the return counts as a break of its own (`breaks_of_start`).
-/

set_option autoImplicit false

namespace Hallmark.Content

open Text.Utf8 (IsCutText encode)

variable {buffer start rest : List UInt8} {kind : LineBreak}

/-! ## What the labels tell -/

theorem ne_nil_of_text (h : (classify buffer).mime = some "text/plain") : buffer ≠ [] := by
  rintro rfl
  exact absurd (Option.some.inj h) (by decide)

/-- The MIME type is that of text just for the two kinds of text. -/
theorem mime_classify_iff (hne : buffer ≠ []) :
    (classify buffer).mime = some "text/plain" ↔ IsAscii buffer ∨ IsCutText IsTextChar buffer := by
  rcases classify_cases hne with ⟨hascii, hlabel⟩ | ⟨hutf8, hlabel⟩ | ⟨hdata, hlabel⟩
  · simp [hlabel, hascii]
  · simp [hlabel, hutf8]
  · simp [hlabel, hdata]

/-- The label of a text is one of two, with what there is to say about line breaks. -/
theorem description_of_text (h : (classify buffer).mime = some "text/plain") :
    ∃ front ∈ textLabels, (classify buffer).description = front ++ (LineBreaks.of buffer).remark := by
  rcases classify_cases (ne_nil_of_text h) with ⟨-, hlabel⟩ | ⟨-, hlabel⟩ | ⟨-, hlabel⟩
  · exact ⟨"ASCII text", List.mem_cons_self, by rw [hlabel]⟩
  · exact ⟨"UTF-8 Unicode text", List.mem_cons_of_mem _ List.mem_cons_self, by rw [hlabel]⟩
  · rw [hlabel] at h
    exact absurd (Option.some.inj h) (by decide)

theorem description_ne_data (h : (classify buffer).mime = some "text/plain") :
    (classify buffer).description ≠ "data" := by
  obtain ⟨front, hfront, hlabel⟩ := description_of_text h
  rw [hlabel]
  intro hdata
  have hfirst := congrArg (fun label => label.toList.head?) hdata
  simp only [textLabels, List.mem_cons, List.not_mem_nil, or_false] at hfront
  obtain rfl | rfl := hfront
  all_goals
    rw [String.toList_append] at hfirst
    cases hfirst

/-- A label begins with the words for ASCII text just for such text. -/
theorem begins_ascii_iff (hne : buffer ≠ []) :
    "ASCII text".toList <+: (classify buffer).description.toList ↔ IsAscii buffer := by
  rcases classify_cases hne with ⟨hascii, hlabel⟩ | ⟨hutf8, hlabel⟩ | ⟨hdata, hlabel⟩
  · rw [hlabel, String.toList_append]
    exact iff_of_true (List.prefix_append _ _) hascii
  · refine iff_of_false ?_ hutf8.1
    intro ⟨behind, hbehind⟩
    rw [hlabel, String.toList_append] at hbehind
    cases congrArg List.head? hbehind
  · refine iff_of_false ?_ hdata.1
    intro ⟨behind, hbehind⟩
    rw [hlabel] at hbehind
    cases congrArg List.head? hbehind

/-- The label of a text stands for the kinds of line breaks that occur in it. -/
theorem standsFor_classify_iff (h : (classify buffer).mime = some "text/plain") :
    StandsFor (classify buffer).description kind ↔ kind.Occurs buffer := by
  obtain ⟨front, hfront, hlabel⟩ := description_of_text h
  rw [hlabel, standsFor_iff hfront, LineBreaks.has_of_iff]

/-! ## The kind of a start -/

theorem IsAscii.of_prefix (h : IsAscii buffer) (hstart : start <+: buffer) : IsAscii start := by
  intro b hb
  exact h b (hstart.subset hb)

theorem mime_of_start (htext : (classify buffer).mime = some "text/plain") (hstart : start <+: buffer)
    (hne : start ≠ []) : (classify start).mime = some "text/plain" := by
  rw [mime_classify_iff (ne_nil_of_text htext)] at htext
  rw [mime_classify_iff hne]
  rcases htext with hascii | hutf8
  · exact .inl (hascii.of_prefix hstart)
  · right
    rw [List.prefix_iff_eq_take.1 hstart]
    exact hutf8.take start.length

/-- **The start of a text is a text, wherever it ends, and that of an ASCII text an ASCII text.** -/
theorem text_of_start (htext : (classify buffer).mime = some "text/plain") (hstart : start <+: buffer)
    (hne : start ≠ []) :
    (classify start).mime = some "text/plain" ∧ (classify start).description ≠ "data" ∧
      ("ASCII text".toList <+: (classify buffer).description.toList →
        "ASCII text".toList <+: (classify start).description.toList) := by
  have hmime := mime_of_start htext hstart hne
  refine ⟨hmime, description_ne_data hmime, ?_⟩
  intro hbegins
  rw [begins_ascii_iff (ne_nil_of_text htext)] at hbegins
  rw [begins_ascii_iff hne]
  exact hbegins.of_prefix hstart

/-- Two bytes of a euro sign are cut down to one, and no complete character is left. -/
theorem text_of_start_lead :
    ∃ buffer start : List UInt8, buffer = [0xE2, 0x82] ∧ start = [0xE2] ∧
      (classify buffer).mime = some "text/plain" ∧ start <+: buffer ∧ start ≠ [] ∧
      (classify start).mime = some "text/plain" ∧ (classify start).description ≠ "data" := by
  have htext : (classify [0xE2, 0x82]).mime = some "text/plain" := by decide +kernel
  have hstart : [0xE2] <+: [(0xE2 : UInt8), 0x82] := ⟨[0x82], rfl⟩
  obtain ⟨hmime, hlabel, -⟩ := text_of_start htext hstart (List.cons_ne_nil _ _)
  exact ⟨_, _, rfl, rfl, htext, hstart, List.cons_ne_nil _ _, hmime, hlabel⟩

/-! ## The line breaks of a start -/

/-- **The label of a start stands for no kind of line break that the whole does not have, unless the start
ends inside a pair: its carriage return then counts as a break of its own, and that is a kind that the
whole does not have if none stands anywhere else.** -/
theorem breaks_of_start (htext : (classify (start ++ rest)).mime = some "text/plain")
    (hne : start ≠ []) :
    (∀ kind, StandsFor (classify start).description kind →
      kind.Occurs (start ++ rest) ∨ kind = .cr ∧ LineBreak.PartsPair start rest) ∧
    ((∃ kind, StandsFor (classify start).description kind ∧ ¬ kind.Occurs (start ++ rest)) ↔
      LineBreak.PartsPair start rest ∧ ¬ LineBreak.cr.Occurs (start ++ rest)) := by
  have hmime := mime_of_start htext (List.prefix_append start rest) hne
  have hshown : ∀ kind, StandsFor (classify start).description kind →
      kind.Occurs (start ++ rest) ∨ kind = .cr ∧ LineBreak.PartsPair start rest := by
    intro kind hkind
    exact ((standsFor_classify_iff hmime).1 hkind).of_append
  refine ⟨hshown, ?_, ?_⟩
  · intro ⟨kind, hkind, hnot⟩
    obtain ⟨rfl, hparts⟩ := (hshown kind hkind).resolve_left hnot
    exact ⟨hparts, hnot⟩
  · intro ⟨hparts, hnot⟩
    exact ⟨.cr, (standsFor_classify_iff hmime).2 (LineBreak.occurs_cr_of_getLast? hparts.1), hnot⟩

/-- A cut through a pair makes no new kind where a carriage return stands alone anyway. -/
theorem breaks_of_start_alone :
    ∃ start rest : List UInt8, start = [0x0D, 0x61, 0x0D] ∧ rest = [0x0A] ∧
      (classify (start ++ rest)).mime = some "text/plain" ∧ start ≠ [] ∧
      LineBreak.PartsPair start rest ∧
      ∀ kind, StandsFor (classify start).description kind → kind.Occurs (start ++ rest) := by
  let start : List UInt8 := [0x0D, 0x61, 0x0D]
  have htext : (classify (start ++ [0x0A])).mime = some "text/plain" := by decide +kernel
  have halone : LineBreak.cr.Occurs (start ++ [0x0A]) := ⟨0, rfl, by decide⟩
  obtain ⟨-, hnew⟩ := breaks_of_start htext (List.cons_ne_nil _ _)
  refine ⟨start, [0x0A], rfl, rfl, htext, List.cons_ne_nil _ _, ⟨rfl, rfl⟩, ?_⟩
  intro kind hkind
  by_contra hnot
  exact (hnew.1 ⟨kind, hkind, hnot⟩).2 halone

/-- All line breaks of the whole are pairs, and the label of its start names a carriage return. -/
theorem breaks_of_start_parted :
    ∃ start rest : List UInt8, start = [0x61, 0x0D, 0x0A, 0x62, 0x0D] ∧ rest = [0x0A] ∧
      classify (start ++ rest) =
        ⟨"ASCII text, with CRLF line terminators", some "text/plain"⟩ ∧ start ≠ [] ∧
      classify start = ⟨"ASCII text, with CRLF, CR line terminators", some "text/plain"⟩ ∧
      StandsFor (classify start).description .cr ∧ ¬ LineBreak.cr.Occurs (start ++ rest) := by
  let start : List UInt8 := [0x61, 0x0D, 0x0A, 0x62, 0x0D]
  have hwhole : classify (start ++ [0x0A]) =
      ⟨"ASCII text, with CRLF line terminators", some "text/plain"⟩ := by decide +kernel
  have hstart : classify start =
      ⟨"ASCII text, with CRLF, CR line terminators", some "text/plain"⟩ := by decide +kernel
  have hmime : (classify start).mime = some "text/plain" := by rw [hstart]
  refine ⟨start, [0x0A], rfl, rfl, hwhole, List.cons_ne_nil _ _, hstart, ?_, ?_⟩
  · exact (standsFor_classify_iff hmime).2 (LineBreak.occurs_cr_of_getLast? rfl)
  · rw [← LineBreaks.has_of_iff]
    decide

end Hallmark.Content
