import Hallmark.Proofs.Number.Spelling
import Hallmark.Proofs.Signature.Annotation
import Hallmark.Proofs.Signature.Refusal

/-!
# `Hallmark/Proofs/Signature/Places.lean` — the numbers of a database line

Numbers stand in five places: an offset, a mask, a range, the value of a test, and the amount of an
adjustment (`Holds`). One reader reads them all, so a line is refused wherever it holds a text that is no
literal, and with the line every database that has it. Main statement: `literal_grammar`.
-/

set_option autoImplicit false

namespace Hallmark.Signature

/-! ## Places -/

/-- What is left of an entry line behind its level. -/
def behindLevel (line : List Char) : List Char := line.drop (line.takeWhile (· == '>')).length

/-- A raw line is an entry line, and these are its first three tokens. -/
def HasTokens (raw offset type test : List Char) : Prop :=
  isEntryLine raw = true ∧
    ∃ rest₁ rest₂ rest₃,
      Token.next? (behindLevel (Text.trimStart raw)) = some (offset, rest₁) ∧
      Token.next? rest₁ = some (type, rest₂) ∧ Token.next? rest₂ = some (test, rest₃)

/-- A raw line holds a text in a place where a number must stand. -/
inductive Holds (raw : List Char) : List Char → Prop
  | position {offset type test : List Char} (line : HasTokens raw offset type test)
      (absolute : offset.head? ≠ some '&') : Holds raw offset
  | distance {distance type test : List Char} (line : HasTokens raw ('&' :: distance) type test) :
      Holds raw distance
  | mask {offset base mask test : List Char} (line : HasTokens raw offset (base ++ '&' :: mask) test)
      (first : '&' ∉ base) : Holds raw mask
  | range {offset type base part test : List Char} (line : HasTokens raw offset type test)
      (unmasked : type = base ∨ ∃ mask, type = base ++ '&' :: mask) (first : '&' ∉ base)
      (behind : part ∈ (Text.pieces '/' base).tail) (nonempty : part ≠ []) (range : isRange part) :
      Holds raw part
  | value {offset type test : List Char} {format : NumberFormat} {number : Nat}
      (line : HasTokens raw offset type test)
      (numeric : ValueType.read number type = .ok (.number format)) (tested : test ≠ ['x']) :
      Holds raw (NumberOp.leading test).2
  | amount {directive rest : List Char} {operator : Char} (line : directiveOf? raw = some directive)
      (strength : argumentOf? "strength" directive = some (operator :: rest)) :
      Holds raw (Text.trim rest)

/-! ## Readers that read a literal -/

section Readers

variable {number level : Nat} {token : List Char}

theorem isSome_of_map_orElse {α β : Type} {answer : Option α} {error : DatabaseError} {f : α → β}
    {b : β} (h : (orElse answer error).map f = .ok b) : answer.isSome := by
  obtain ⟨a, ha, -⟩ := map_eq_ok_iff.1 h
  exact Option.isSome_of_eq_some (orElse_eq_ok_iff.1 ha)

theorem Offset.isSome_literal?_of_read {offset : Offset}
    (h : Offset.read number level token = .ok offset) (absolute : token.head? ≠ some '&') :
    (Number.literal? token).isSome := by
  unfold Offset.read at h
  split at h
  · cases h
  · exact absurd rfl absolute
  · exact isSome_of_map_orElse h

theorem Offset.isSome_distance_of_read {offset : Offset} {distance : List Char}
    (h : Offset.read number level ('&' :: distance) = .ok offset) :
    (Number.literal? distance).isSome := by
  rw [Offset.read] at h
  split at h
  · cases h
  · exact isSome_of_map_orElse h

theorem ValueType.isSome_mask_of_read {type : ValueType} {base mask : List Char} (first : '&' ∉ base)
    (h : ValueType.read number (base ++ '&' :: mask) = .ok type) : (Number.literal? mask).isSome := by
  simp only [ValueType.read, Text.splitAt?_append mask first] at h
  obtain ⟨_, hmask, -⟩ := bind_eq_ok_iff.1 h
  exact isSome_of_map_orElse hmask

/-- Of the parts of a type that are read, every range is a literal. -/
theorem Modifiers.isSome_literal?_of_addParts {parts : List (List Char)} {modifiers final : Modifiers}
    (h : parts.foldlM (Modifiers.addPart number) modifiers = .ok final) :
    ∀ part ∈ parts, part ≠ [] → isRange part → (Number.literal? part).isSome := by
  induction parts generalizing modifiers with
  | nil => exact nofun
  | cons first parts ih =>
    rw [List.foldlM_cons] at h
    obtain ⟨next, hnext, hrest⟩ := bind_eq_ok_iff.1 h
    intro part hmem hne hrange
    rcases List.mem_cons.1 hmem with rfl | hmem
    · rw [addPart, if_neg (by simpa using hne), if_pos hrange] at hnext
      exact isSome_of_map_orElse hnext
    · exact ih hrest part hmem hne hrange

theorem ValueType.isSome_range_of_named {name : List Char} {parts : List (List Char)}
    {mask : Option UInt64} {type : ValueType} (h : ValueType.named number name parts mask = .ok type) :
    ∀ part ∈ parts, part ≠ [] → isRange part → (Number.literal? part).isSome := by
  unfold ValueType.named at h
  split at h
  · split at h
    · next hparts => simp_all
    · cases h
  · split at h
    · cases h
    · obtain ⟨modifiers, hmodifiers, -⟩ := bind_eq_ok_iff.1 h
      exact Modifiers.isSome_literal?_of_addParts hmodifiers

theorem ValueType.isSome_range_of_read {type : ValueType} {base part : List Char}
    (h : ValueType.read number token = .ok type)
    (unmasked : token = base ∨ ∃ mask, token = base ++ '&' :: mask) (first : '&' ∉ base)
    (behind : part ∈ (Text.pieces '/' base).tail) (nonempty : part ≠ []) (range : isRange part) :
    (Number.literal? part).isSome := by
  have hne : Text.pieces '/' base ≠ [] := Text.pieces_ne_nil base
  obtain ⟨name, parts, hpieces⟩ := List.exists_cons_of_ne_nil hne
  have hnamed : ∃ mask, ValueType.named number name parts mask = .ok type := by
    rcases unmasked with rfl | ⟨mask, rfl⟩
    · simp only [ValueType.read, Text.splitAt?_eq_none first] at h
      obtain ⟨_, hpair, h⟩ := bind_eq_ok_iff.1 h
      cases hpair
      simp only [hpieces] at h
      exact ⟨none, h⟩
    · simp only [ValueType.read, Text.splitAt?_append mask first] at h
      obtain ⟨_, hpair, h⟩ := bind_eq_ok_iff.1 h
      obtain ⟨n, -, rfl⟩ := map_eq_ok_iff.1 hpair
      simp only [hpieces] at h
      exact ⟨some n, h⟩
  rw [hpieces, List.tail_cons] at behind
  obtain ⟨mask, hnamed⟩ := hnamed
  exact ValueType.isSome_range_of_named hnamed part behind nonempty range

theorem Test.isSome_value_of_readNumber {width : Nat} {test : Test}
    (h : Test.readNumber number width token = .ok test) (tested : token ≠ ['x']) :
    (Number.literal? (NumberOp.leading token).2).isSome := by
  rw [readNumber, if_neg tested] at h
  exact isSome_of_map_orElse h

theorem Adjustment.isSome_amount_of_read {operator : Char} {rest : List Char} {adjustment : Adjustment}
    (h : Adjustment.read number (operator :: rest) = .ok adjustment) :
    (Number.literal? (Text.trim rest)).isSome := by
  obtain ⟨amount, hamount, -⟩ := bind_eq_ok_iff.1 h
  exact Option.isSome_of_eq_some (orElse_eq_ok_iff.1 hamount)

end Readers

/-! ## Lines -/

section Lines

variable {raw cs : List Char} {number : Nat}

theorem HasTokens.of_read {offset type test : List Char} {entry : Entry}
    (h : HasTokens raw offset type test)
    (hread : Entry.read number (Text.trimStart raw) = .ok entry) :
    Offset.read number entry.level offset = .ok entry.offset ∧
      ValueType.read number type = .ok entry.type ∧
      Test.read number entry.type test = .ok entry.test := by
  obtain ⟨-, rest₁, rest₂, rest₃, h₁, h₂, h₃⟩ := h
  obtain ⟨offset', type', test', rest₁', rest₂', rest₃', h₁', h₂', h₃', hoffset, htype, htest, hlevel, -⟩ :=
    Entry.read_eq_ok_iff.1 hread
  obtain ⟨rfl, rfl⟩ := Prod.mk.inj (Option.some.inj (h₁.symm.trans h₁'))
  obtain ⟨rfl, rfl⟩ := Prod.mk.inj (Option.some.inj (h₂.symm.trans h₂'))
  obtain ⟨rfl, -⟩ := Prod.mk.inj (Option.some.inj (h₃.symm.trans h₃'))
  exact ⟨hlevel ▸ hoffset, htype, htest⟩

/-- An entry line is only read if its tokens are. -/
theorem HasTokens.exists_read {offset type test : List Char} {draft next : Draft}
    (h : HasTokens raw offset type test) (hline : draft.addLine number raw = .ok next) :
    ∃ entry : Entry, Offset.read number entry.level offset = .ok entry.offset ∧
      ValueType.read number type = .ok entry.type ∧
      Test.read number entry.type test = .ok entry.test := by
  rw [Draft.addLine_entry draft number h.1] at hline
  obtain ⟨entry, hread, -⟩ := bind_eq_ok_iff.1 hline
  exact ⟨entry, h.of_read hread⟩

/-- **A line is only read if every text that it holds in the place of a number is a literal.** -/
theorem Holds.isSome_of_addLine {draft next : Draft} (h : Holds raw cs)
    (hline : draft.addLine number raw = .ok next) : (Number.literal? cs).isSome := by
  cases h with
  | position line absolute =>
    obtain ⟨entry, hoffset, -, -⟩ := line.exists_read hline
    exact Offset.isSome_literal?_of_read hoffset absolute
  | distance line =>
    obtain ⟨entry, hoffset, -, -⟩ := line.exists_read hline
    exact Offset.isSome_distance_of_read hoffset
  | mask line first =>
    obtain ⟨entry, -, htype, -⟩ := line.exists_read hline
    exact ValueType.isSome_mask_of_read first htype
  | range line unmasked first behind nonempty range =>
    obtain ⟨entry, -, htype, -⟩ := line.exists_read hline
    exact ValueType.isSome_range_of_read htype unmasked first behind nonempty range
  | value line numeric tested =>
    obtain ⟨entry, -, htype, htest⟩ := line.exists_read hline
    -- The type is that of a number on whichever line it stands.
    have hsame := (ValueType.read_namesLine _).eq_ok numeric number
    rw [← Except.ok.inj (hsame.symm.trans htype)] at htest
    exact Test.isSome_value_of_readNumber htest tested
  | amount line strength =>
    rw [Draft.addLine_directive draft number line] at hline
    split at hline
    · cases hline
    · split at hline
      · cases hline
      · obtain ⟨directive, hread, -⟩ := map_eq_ok_iff.1 hline
        cases Directive.says_of_read hread with
        | mime _ other => exact absurd (strength.symm.trans other) (Option.some_ne_none _)
        | strength named _ hr =>
          rw [Option.some.inj (named.symm.trans strength)] at hr
          exact Adjustment.isSome_amount_of_read (hr number)
        | unreported _ notStrength => exact absurd (strength.symm.trans notStrength) (Option.some_ne_none _)

/-- A text is only read if every number of its lines is a literal. -/
theorem Holds.isSome_of_read {text : List Char} {database : Database} (h : Holds raw cs)
    (hraw : raw ∈ Text.lines text) (hread : Database.read text = .ok database) :
    (Number.literal? cs).isSome := by
  obtain ⟨draft, hdraft⟩ := Database.exists_read_iff.1 ⟨database, hread⟩
  obtain ⟨before, after, hlines⟩ := List.append_of_mem hraw
  rw [hlines, Draft.addLines_append] at hdraft
  obtain ⟨middle, -, hrest⟩ := bind_eq_ok_iff.1 hdraft
  rw [Draft.addLines] at hrest
  split at hrest
  · next next hline => exact h.isSome_of_addLine hline
  · cases hrest

end Lines

/-! ## Main statement -/

/-- **Numbers are literals, wherever they stand.** A text is read as a number if and only if it is one sign
at most and a magnitude below the word limit, or that with one plus sign too many, and the word is the
residue of the integer. A text without the plus sign too many has one integer only. A line that holds any
other text in the place of a number is refused, and with it every database. -/
theorem literal_grammar (cs : List Char) :
    (∀ word, Number.literal? cs = some word ↔
      ∃ z, (Number.IsLiteral cs z ∨ Number.IsSurplusLiteral cs z) ∧ z.natAbs < Number.wordLimit ∧
        (word.toNat : Int) = z % Number.wordLimit) ∧
    (∀ z, Number.IsLiteral cs z →
      (∀ y, Number.IsLiteral cs y → y = z) ∧ ∀ y, ¬ Number.IsSurplusLiteral cs y) ∧
    ((∀ z, z.natAbs < Number.wordLimit →
        ¬ Number.IsLiteral cs z ∧ ¬ Number.IsSurplusLiteral cs z) →
      Number.literal? cs = none ∧
      ∀ raw, Holds raw cs →
        (∀ (draft : Draft) number, ∃ reason,
          draft.addLine number raw = .error (.line number reason)) ∧
        ∀ text, raw ∈ Text.lines text → ∃ error, Database.read text = .error error) := by
  refine ⟨fun word => Number.literal?_eq_some_iff, ?_, ?_⟩
  · intro z hz
    exact ⟨fun y hy => hy.unique hz, fun y => hz.not_surplus⟩
  · intro hother
    have hnone : Number.literal? cs = none := Number.literal?_eq_none_iff.2 hother
    refine ⟨hnone, fun raw hraw => ⟨fun draft number => ?_, fun text hmem => ?_⟩⟩
    · cases hline : draft.addLine number raw with
      | error error =>
        obtain ⟨reason, rfl⟩ := Draft.eq_line_of_addLine hline
        exact ⟨reason, rfl⟩
      | ok next =>
        have hsome := hraw.isSome_of_addLine hline
        simp [hnone] at hsome
    · cases hread : Database.read text with
      | error error => exact ⟨error, rfl⟩
      | ok database =>
        have hsome := hraw.isSome_of_read hmem hread
        simp [hnone] at hsome

/-- A minus sign behind the start of the base, in the value of a test below a line that is read. -/
theorem literal_grammar_minus :
    Number.literal? "0x-1f".toList = none ∧
    (∀ (draft : Draft) number,
      ∃ reason, draft.addLine number ">1 byte >0x-1f found".toList = .error (.line number reason)) ∧
    ∃ error, Database.read "0 byte 1 a\n>1 byte >0x-1f found".toList = .error error := by
  have hother : ∀ z, z.natAbs < Number.wordLimit →
      ¬ Number.IsLiteral "0x-1f".toList z ∧ ¬ Number.IsSurplusLiteral "0x-1f".toList z :=
    Number.literal?_eq_none_iff.1 (by decide)
  obtain ⟨hnone, hlines⟩ := (literal_grammar "0x-1f".toList).2.2 hother
  have hline : HasTokens ">1 byte >0x-1f found".toList "1".toList "byte".toList ">0x-1f".toList :=
    ⟨rfl, _, _, _, rfl, rfl, rfl⟩
  have hnumeric : ValueType.read 2 "byte".toList = .ok (.number ⟨1, .little, true, none⟩) := rfl
  have hholds : Holds ">1 byte >0x-1f found".toList "0x-1f".toList :=
    .value hline hnumeric (by decide)
  obtain ⟨hrefused, htext⟩ := hlines _ hholds
  exact ⟨hnone, hrefused, htext _ (by decide +kernel)⟩

/-- A plus sign behind the start of the base, which is not refused. -/
theorem literal_surplus_plus :
    Number.literal? "0x+1f".toList = some 31 ∧ (∀ z, ¬ Number.IsLiteral "0x+1f".toList z) ∧
    ∃ database, Database.read "0 byte 0x+1f found\n".toList = .ok database ∧
      database.identify [0x1F] = ⟨"found", none⟩ := by
  have hdigits : Number.Spells 16 ['1', 'f'] 31 :=
    ⟨[1, 15], by decide, .cons ⟨by decide, .inl rfl⟩ (.cons ⟨by decide, .inl rfl⟩ .nil), rfl⟩
  have hsurplus : Number.IsSurplusLiteral "0x+1f".toList (31 : Nat) :=
    .bare (by simp) (.hexadecimal (.inl rfl) hdigits)
  exact ⟨by decide, fun z h => h.not_surplus hsurplus, _, rfl, by decide +kernel⟩

end Hallmark.Signature
