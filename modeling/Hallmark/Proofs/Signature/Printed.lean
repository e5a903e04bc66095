import Hallmark.Proofs.Signature.Bounds
import Hallmark.Proofs.Signature.Comparison
import Hallmark.Proofs.Signature.Numeral

/-!
# `Hallmark/Proofs/Signature/Printed.lean` — the number that was tested and the one that is printed

A match of a numeric entry hands on the number that the test compared, but not the sign of its type. The
orders compare the integer that the type takes the number for; a signed decimal takes every number for its
two's complement, and an unsigned one for itself. Main statement: `plain_decimal_prints_signed`.
-/

set_option autoImplicit false

namespace Hallmark.Signature

open Template (Cuts Span)

variable {entry : Entry} {format : NumberFormat} {value word : UInt64} {buffer : List UInt8}
  {parentStop offset : Nat}

/-- The orders compare the integers of the type. -/
theorem Entry.passesWith_order_iff (htype : entry.type = .number format)
    (hoffset : entry.offset.resolve parentStop = some offset) (hpos : 0 < format.width)
    (hle : format.width ≤ 8) (hroom : offset + format.width ≤ buffer.length)
    (hvalue : value.toNat < 256 ^ format.width) :
    (entry.PassesWith value buffer parentStop .less ↔
      format.integer (format.number ((buffer.drop offset).take format.width)) <
        format.integer value.toNat) ∧
    (entry.PassesWith value buffer parentStop .greater ↔
      format.integer value.toNat <
        format.integer (format.number ((buffer.drop offset).take format.width))) := by
  have hlength : ((buffer.drop offset).take format.width).length = format.width := by
    rw [List.length_take, List.length_drop]
    omega
  have hagree := NumberOp.holds_agree hpos hle (format.toNat_word_lt hlength) hvalue
  rw [format.toNat_word hle hlength] at hagree
  constructor
  · rw [Entry.passesWith_iff htype hoffset, and_iff_right hroom]
    exact hagree.compares.less_iff
  · rw [Entry.passesWith_iff htype hoffset, and_iff_right hroom]
    exact hagree.compares.greater_iff

/-- A match of a numeric entry hands on the number that was read. -/
theorem Entry.value_of_probe {found : Match} (htype : entry.type = .number format)
    (h : entry.probe buffer parentStop = some found) :
    ∃ offset, entry.offset.resolve parentStop = some offset ∧
      offset + format.width ≤ buffer.length ∧
      found.value = .number (format.word ((buffer.drop offset).take format.width)) format.width := by
  obtain ⟨offset, hoffset, -⟩ := Entry.liesIn_probe h
  refine ⟨offset, hoffset, ?_⟩
  cases htest : entry.test with
  | text op pattern => simp [Entry.probe, hoffset, htype, htest] at h
  | number op value =>
    rw [Entry.probe_number hoffset htype htest, probeNumber, Option.ite_none_right_eq_some] at h
    obtain ⟨hroom, h⟩ := h
    obtain ⟨-, hmatch⟩ := Option.ite_none_right_eq_some.1 h
    rw [← Option.some.inj hmatch]
    exact ⟨hroom, rfl⟩

/-- What no adornment pads is printed as it is. -/
theorem shown_bare {form : Char} {width : Nat} {body : List Char}
    (h : numberForm? (Template.Adornment.layout {}) form word width = some (body, true)) :
    (Span.conversion {} form).shown (.number word width) = body := by
  rw [shown_of_numberForm h, Layout.pad_right rfl rfl]
  show List.replicate (0 - body.length) ' ' ++ body = body
  rw [Nat.zero_sub, List.replicate_zero, List.nil_append]

theorem render_conversion {template : List Char} {before after : List Span}
    {a : Template.Adornment} {form : Char}
    (h : Cuts template (before ++ .conversion a form :: after)) (value : MatchValue) :
    Template.render template value = before.flatMap (Span.shown value) ++
      (Span.conversion a form).shown value ++ after.flatMap (Span.shown value) := by
  rw [h.render_eq, List.flatMap_append, List.flatMap_cons, List.append_assoc]

/-- Two's complement leaves just the numbers of the lower half as they are. -/
theorem NumberFormat.twosComplement_eq_integer_iff (format : NumberFormat) {n : Nat}
    (h : n < 256 ^ format.width) :
    Number.twosComplement format.width n = format.integer n ↔
      format.isSigned = true ∨ 2 * n < 256 ^ format.width := by
  unfold NumberFormat.integer
  cases format.isSigned with
  | true => simp
  | false =>
    unfold Number.twosComplement
    generalize 256 ^ format.width = modulus at h ⊢
    split <;> simp <;> omega

/-- **A plain signed decimal prints the two's complement of the number that was tested, whatever the type.**
The orders compare that integer if the type is signed; if it is unsigned, they compare the number itself,
which an unsigned decimal prints, and a signed one only if its highest bit is clear. -/
theorem plain_decimal_prints_signed {text : List Char} {database : Database} {found : Match}
    (hdatabase : Database.read text = .ok database) (hentry : entry ∈ database.entries)
    (htype : entry.type = .number format) (hfound : entry.probe buffer parentStop = some found) :
    ∃ offset op value n, entry.offset.resolve parentStop = some offset ∧
      entry.test = .number op value ∧
      n = format.number ((buffer.drop offset).take format.width) ∧ n < 256 ^ format.width ∧
      (entry.PassesWith value buffer parentStop .less ↔ format.integer n < format.integer value.toNat) ∧
      (entry.PassesWith value buffer parentStop .greater ↔
        format.integer value.toNat < format.integer n) ∧
      (∀ template before after, Cuts template (before ++ .conversion {} 'd' :: after) →
        Template.render template found.value = before.flatMap (Span.shown found.value) ++
          Number.decimal (Number.twosComplement format.width n) ++
            after.flatMap (Span.shown found.value)) ∧
      (∀ template before after, Cuts template (before ++ .conversion {} 'u' :: after) →
        Template.render template found.value = before.flatMap (Span.shown found.value) ++
          Number.decimal n ++ after.flatMap (Span.shown found.value)) ∧
      (Number.twosComplement format.width n = format.integer n ↔
        format.isSigned = true ∨ 2 * n < 256 ^ format.width) := by
  obtain ⟨forest, hforest, -⟩ := map_eq_ok_iff.1 hdatabase
  have hsound := isSound_of_readForest hforest entry ((mem_entries_iff hforest hdatabase entry).1 hentry)
  obtain ⟨hwidth, op, value, htest, hvalue⟩ := hsound.number htype
  have hpos : 0 < format.width := by omega
  have hle : format.width ≤ 8 := by omega
  obtain ⟨offset, hoffset, hroom, hnumber⟩ := Entry.value_of_probe htype hfound
  have hlength : ((buffer.drop offset).take format.width).length = format.width := by
    rw [List.length_take, List.length_drop]
    omega
  have hlt := format.toNat_word_lt hlength
  have hword := format.toNat_word hle hlength
  obtain ⟨hless, hgreater⟩ := Entry.passesWith_order_iff htype hoffset hpos hle hroom hvalue
  refine ⟨offset, op, value, _, hoffset, htest, rfl, hword ▸ hlt, hless, hgreater, ?_, ?_, ?_⟩
  · intro template before after hcuts
    rw [render_conversion hcuts, hnumber, shown_bare rfl, Number.signed_eq hpos hle hlt, hword]
  · intro template before after hcuts
    rw [render_conversion hcuts, hnumber, shown_bare rfl, hword]
    rfl
  · exact format.twosComplement_eq_integer_iff (hword ▸ hlt)

/-- A signed number that a mask keeps negative is printed as it was compared. -/
theorem plain_decimal_prints_signed_masked :
    ∃ database entry format, Database.read "0 beshort&0xFFF0 <-1 n=%d.\n".toList = .ok database ∧
      entry ∈ database.entries ∧ entry.type = .number format ∧
      entry.probe [0xFF, 0xD6] 0 = some ⟨2, .number 0xFFD0 2⟩ ∧
      Template.render "n=%d.".toList (.number 0xFFD0 2) = "n=-48.".toList ∧
      format.integer 0xFFD0 = -48 := by
  let format : NumberFormat := ⟨2, .big, true, some 0xFFF0⟩
  let entry : Entry :=
    { level := 0, line := 1, offset := .absolute 0, type := .number format,
      test := .number .less 0xFFFF, message := "n=%d.", mime := none, adjustment := none }
  have hentries : (Database.read "0 beshort&0xFFF0 <-1 n=%d.\n".toList).map Database.entries =
      .ok [entry] := by decide +kernel
  obtain ⟨database, hdatabase, hentries⟩ := map_eq_ok_iff.1 hentries
  have hentry : entry ∈ database.entries := by
    rw [hentries]
    exact List.mem_singleton_self entry
  have hfound : entry.probe [0xFF, 0xD6] 0 = some ⟨2, .number 0xFFD0 2⟩ := by decide
  have hcuts : Cuts "n=%d.".toList ([.plain 'n', .plain '='] ++ .conversion {} 'd' :: [.plain '.']) :=
    .plain (by decide) <| .plain (by decide) <| .conversion (a := {}) (by decide) (by decide) <|
      .plain (by decide) .nothing
  obtain ⟨offset, -, -, n, hoffset, -, hn, -, -, -, hsigned, -, hinteger⟩ :=
    plain_decimal_prints_signed hdatabase hentry rfl hfound
  cases hoffset
  have hnumber : n = 0xFFD0 := hn.trans (by decide)
  subst hnumber
  have hcompared : format.integer 0xFFD0 = -48 := by decide
  refine ⟨database, entry, format, hdatabase, hentry, rfl, hfound, ?_, hcompared⟩
  rw [hsigned _ _ _ hcuts, hinteger.2 (.inl rfl), hcompared]
  decide

/-- An unsigned number with its highest bit set is compared as it is and printed as a negative one. -/
theorem plain_decimal_prints_signed_unsigned :
    ∃ database entry format, Database.read "0 ubyte >127 value %d\n".toList = .ok database ∧
      entry ∈ database.entries ∧ entry.type = .number format ∧ format.isSigned = false ∧
      entry.message = "value %d" ∧ entry.probe [0xFF] 0 = some ⟨1, .number 0xFF 1⟩ ∧
      format.integer 0xFF = 255 ∧ (Span.conversion {} 'd').shown (.number 0xFF 1) = "-1".toList ∧
      database.identify [0xFF] = ⟨"value -1", none⟩ := by
  let format : NumberFormat := ⟨1, .little, false, none⟩
  let entry : Entry :=
    { level := 0, line := 1, offset := .absolute 0, type := .number format,
      test := .number .greater 127, message := "value %d", mime := none, adjustment := none }
  have hread : (Database.read "0 ubyte >127 value %d\n".toList).map
      (fun database => (database.entries, database.identify [0xFF])) =
        .ok ([entry], ⟨"value -1", none⟩) := by decide +kernel
  obtain ⟨database, hdatabase, hboth⟩ := map_eq_ok_iff.1 hread
  obtain ⟨hentries, hidentify⟩ := Prod.mk.inj hboth
  have hentry : entry ∈ database.entries := by
    rw [hentries]
    exact List.mem_singleton_self entry
  exact ⟨database, entry, format, hdatabase, hentry, rfl, rfl, rfl, by decide, by decide, by decide,
    hidentify⟩

end Hallmark.Signature
