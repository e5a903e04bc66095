import Mathlib.Data.List.Chain
import Mathlib.Data.List.Forall2
import Hallmark.Proofs.Except
import Hallmark.Signature.Probe
import Hallmark.Signature.Reader

/-!
# `Hallmark/Proofs/Signature/Pieces.lean` — what a pattern stands for

A pattern stands for the texts that can be cut into pieces, one for each of its bytes (`CutsInto`): a
flexible blank stands for a run of blanks, any other byte for itself. A comparison never looks back: a
flexible blank takes all the blanks it finds, and if the next byte of the pattern needs one of them, it
starves (`Starves`). A pattern in which a byte starves matches nothing at all, not even itself; any other
pattern matches just where a prefix can be cut. Main statement: `text_matches_iff`.
-/

set_option autoImplicit false

namespace Hallmark.Signature

open Text (isBlankByte)

variable {flags : PatternFlags} {p q b : UInt8} {pattern data piece : List UInt8}

/-! ## Pieces -/

/-- The second byte is the small form of the first, an ASCII capital. -/
def IsSmallOf (capital small : UInt8) : Prop :=
  0x41 ≤ capital.toNat ∧ capital.toNat ≤ 0x5A ∧ small.toNat = capital.toNat + 0x20

/-- The two bytes are the two forms of an ASCII letter. -/
def OtherCase (p b : UInt8) : Prop := IsSmallOf p b ∨ IsSmallOf b p

namespace PatternFlags

/-- The byte is a flexible blank. -/
def IsFlexible (flags : PatternFlags) (p : UInt8) : Prop :=
  flags.hasFlexibleBlanks = true ∧ p = 0x20

/-- The pieces that a byte of a pattern stands for. -/
inductive StandsFor (flags : PatternFlags) : UInt8 → List UInt8 → Prop where
  | anyBlanks {piece : List UInt8} (hw : flags.optionalBlanks = true)
      (hb : ∀ b ∈ piece, isBlankByte b = true) : StandsFor flags 0x20 piece
  | someBlanks {piece : List UInt8} (hW : flags.compactBlanks = true)
      (hw : flags.optionalBlanks = false) (hne : piece ≠ [])
      (hb : ∀ b ∈ piece, isBlankByte b = true) : StandsFor flags 0x20 piece
  | itself {p : UInt8} (hp : ¬ flags.IsFlexible p) : StandsFor flags p [p]
  | letter {p b : UInt8} (hc : flags.ignoreCase = true) (hp : OtherCase p b) : StandsFor flags p [b]

/-- The next byte of a pattern needs a blank, and a flexible blank has taken them all. -/
def Starves (flags : PatternFlags) (p q : UInt8) : Prop :=
  flags.IsFlexible p ∧ isBlankByte q = true ∧ ¬ (flags.optionalBlanks = true ∧ q = 0x20)

/-- No byte of the pattern starves. -/
def Spares (flags : PatternFlags) (pattern : List UInt8) : Prop :=
  pattern.IsChain fun p q => ¬ flags.Starves p q

end PatternFlags

/-- Some prefix of the data can be cut into pieces, one for each byte of the pattern. -/
def CutsInto (flags : PatternFlags) (pattern data : List UInt8) : Prop :=
  ∃ pieces, List.Forall₂ flags.StandsFor pattern pieces ∧ pieces.flatten <+: data

theorem cutsInto_nil : CutsInto flags [] data := ⟨[], .nil, List.nil_prefix⟩

theorem cutsInto_cons_iff : CutsInto flags (p :: pattern) data ↔
    ∃ piece rest, data = piece ++ rest ∧ flags.StandsFor p piece ∧ CutsInto flags pattern rest := by
  constructor
  · rintro ⟨pieces, hpieces, hprefix⟩
    obtain ⟨piece, others, hp, hothers, rfl⟩ := List.forall₂_cons_left_iff.1 hpieces
    obtain ⟨rest, rfl⟩ := hprefix
    rw [List.flatten_cons, List.append_assoc]
    exact ⟨piece, _, rfl, hp, others, hothers, rest, rfl⟩
  · rintro ⟨piece, rest, rfl, hp, others, hothers, hprefix⟩
    refine ⟨piece :: others, .cons hp hothers, ?_⟩
    rw [List.flatten_cons]
    exact (List.prefix_append_right_inj piece).2 hprefix

/-! ## Bytes -/

theorem toNat_le_of_isBlankByte (h : isBlankByte b = true) : b.toNat ≤ 0x20 := by
  simp only [isBlankByte, Bool.or_eq_true, beq_iff_eq] at h
  rcases h with (((rfl | rfl) | rfl) | rfl) | rfl <;> decide

theorem OtherCase.not_blank (h : OtherCase p b) : ¬ isBlankByte p = true ∧ ¬ isBlankByte b = true := by
  have hletters : 0x41 ≤ p.toNat ∧ 0x41 ≤ b.toNat := by
    rcases h with ⟨hl, -, hs⟩ | ⟨hl, -, hs⟩ <;> omega
  constructor
  · intro hp
    have := toNat_le_of_isBlankByte hp
    omega
  · intro hb
    have := toNat_le_of_isBlankByte hb
    omega

theorem toNat_lowerByte :
    (lowerByte b).toNat = if 0x41 ≤ b.toNat ∧ b.toNat ≤ 0x5A then b.toNat + 0x20 else b.toNat := by
  have hcapital : (decide (0x41 ≤ b) && decide (b ≤ 0x5A)) = true ↔
      0x41 ≤ b.toNat ∧ b.toNat ≤ 0x5A := by
    simp [UInt8.le_iff_toNat_le]
  unfold lowerByte
  by_cases h : 0x41 ≤ b.toNat ∧ b.toNat ≤ 0x5A
  · rw [if_pos (hcapital.2 h), if_pos h, UInt8.toNat_add]
    have : (0x20 : UInt8).toNat = 0x20 := rfl
    omega
  · rw [if_neg (mt hcapital.1 h), if_neg h]

/-- Two bytes have one lower case if they are the same, or one letter. -/
theorem lowerByte_eq_iff : lowerByte b = lowerByte p ↔ b = p ∨ OtherCase p b := by
  rw [← UInt8.toNat_inj, ← UInt8.toNat_inj, toNat_lowerByte, toNat_lowerByte]
  unfold OtherCase IsSmallOf
  split <;> split <;> omega

theorem sameByte_iff : flags.sameByte p b = true ↔ b = p ∨ flags.ignoreCase = true ∧ OtherCase p b := by
  unfold PatternFlags.sameByte
  split
  · next hc => simp [lowerByte_eq_iff, hc]
  · next hc => simp [hc]

namespace PatternFlags

/-- A flexible blank stands for a run of blanks, which can be empty if blanks are optional. -/
theorem standsFor_blank_iff (h : flags.hasFlexibleBlanks = true) : flags.StandsFor 0x20 piece ↔
    (∀ b ∈ piece, isBlankByte b = true) ∧ (flags.optionalBlanks = true ∨ piece ≠ []) := by
  constructor
  · intro hstands
    cases hstands with
    | anyBlanks hw hb => exact ⟨hb, .inl hw⟩
    | someBlanks hW hw hne hb => exact ⟨hb, .inr hne⟩
    | itself hp => exact absurd ⟨h, rfl⟩ hp
    | letter hc hp => exact absurd (by decide) hp.not_blank.1
  · rintro ⟨hb, hne⟩
    by_cases hw : flags.optionalBlanks = true
    · exact .anyBlanks hw hb
    · refine .someBlanks ?_ (by simpa using hw) (hne.resolve_left hw) hb
      simpa [hasFlexibleBlanks, hw] using h

/-- Any other byte stands for the bytes that it is compared equal to. -/
theorem standsFor_byte_iff (h : ¬ flags.IsFlexible p) :
    flags.StandsFor p piece ↔ ∃ b, piece = [b] ∧ flags.sameByte p b = true := by
  constructor
  · intro hstands
    cases hstands with
    | anyBlanks hw hb => exact absurd ⟨by simp [hasFlexibleBlanks, hw], rfl⟩ h
    | someBlanks hW hw hne hb => exact absurd ⟨by simp [hasFlexibleBlanks, hW], rfl⟩ h
    | itself hp => exact ⟨p, rfl, sameByte_iff.2 (.inl rfl)⟩
    | letter hc hp => exact ⟨_, rfl, sameByte_iff.2 (.inr ⟨hc, hp⟩)⟩
  · rintro ⟨b, rfl, hsame⟩
    rcases sameByte_iff.1 hsame with rfl | ⟨hc, hp⟩
    · exact .itself h
    · exact .letter hc hp

/-- A pattern byte stands for itself, among others. -/
theorem standsFor_self (flags : PatternFlags) (p : UInt8) : flags.StandsFor p [p] := by
  by_cases h : flags.IsFlexible p
  · obtain ⟨hf, rfl⟩ := h
    exact (standsFor_blank_iff hf).2 ⟨List.forall_mem_singleton.2 rfl, .inr (List.cons_ne_nil _ _)⟩
  · exact .itself h

theorem spares_of_not_flexible (h : flags.hasFlexibleBlanks = false) (pattern : List UInt8) :
    flags.Spares pattern := by
  rw [Spares, List.isChain_iff_getElem]
  rintro i hi ⟨⟨hf, -⟩, -⟩
  simp [h] at hf

/-- Bytes that are compared equal are both blanks, or none of them is. -/
theorem isBlankByte_of_sameByte (h : flags.sameByte p b = true) :
    isBlankByte b = isBlankByte p := by
  rcases sameByte_iff.1 h with rfl | ⟨-, hp⟩
  · rfl
  · simp [hp.not_blank]

end PatternFlags

/-- A text that starts with the pattern can be cut into its bytes. -/
theorem cutsInto_self (h : pattern <+: data) : CutsInto flags pattern data := by
  obtain ⟨rest, rfl⟩ := h
  induction pattern with
  | nil => exact cutsInto_nil
  | cons p pattern ih => exact cutsInto_cons_iff.2 ⟨[p], _, rfl, flags.standsFor_self p, ih⟩

/-! ## Comparing -/

theorem drop_length_takeWhile (data : List UInt8) :
    data.drop (data.takeWhile isBlankByte).length = data.dropWhile isBlankByte := by
  have h : data.takeWhile isBlankByte ++ data.dropWhile isBlankByte = data :=
    List.takeWhile_append_dropWhile
  calc data.drop (data.takeWhile isBlankByte).length
      = (data.takeWhile isBlankByte ++ data.dropWhile isBlankByte).drop
          (data.takeWhile isBlankByte).length := by rw [h]
    _ = data.dropWhile isBlankByte := List.drop_left

namespace Pattern

/-- A flexible blank takes all the blanks that it finds. -/
theorem isSome_match?_blank_iff (h : flags.hasFlexibleBlanks = true) :
    (match? flags (0x20 :: pattern) data).isSome ↔
      (flags.optionalBlanks = true ∨ ∃ b rest, data = b :: rest ∧ isBlankByte b = true) ∧
        (match? flags pattern (data.dropWhile isBlankByte)).isSome := by
  have hflexible : (flags.hasFlexibleBlanks && (0x20 : UInt8) == 0x20) = true := by simp [h]
  have hrun : data.takeWhile isBlankByte ≠ [] ↔ ∃ b rest, data = b :: rest ∧ isBlankByte b = true := by
    cases data with
    | nil => simp
    | cons b rest => by_cases hb : isBlankByte b = true <;> simp [hb]
  rw [match?.eq_def, ← hrun]
  simp only [hflexible, if_true, drop_length_takeWhile]
  by_cases hw : flags.optionalBlanks = true
  · simp [hw]
  · by_cases hnone : data.takeWhile isBlankByte = [] <;> simp [hw, hnone]

/-- Any other byte takes one byte. -/
theorem isSome_match?_byte_iff (h : ¬ flags.IsFlexible p) :
    (match? flags (p :: pattern) data).isSome ↔
      ∃ b rest, data = b :: rest ∧ flags.sameByte p b = true ∧
        (match? flags pattern rest).isSome := by
  have hrigid : (flags.hasFlexibleBlanks && p == 0x20) = false := by
    simpa [PatternFlags.IsFlexible] using h
  rw [match?.eq_def]
  cases data with
  | nil => simp [hrigid]
  | cons b rest => by_cases hsame : flags.sameByte p b = true <;> simp [hrigid, hsame]

/-- What a pattern takes can be cut into its pieces. -/
theorem cutsInto_of_isSome (h : (match? flags pattern data).isSome) : CutsInto flags pattern data := by
  induction pattern generalizing data with
  | nil => exact cutsInto_nil
  | cons p pattern ih =>
    by_cases hp : flags.IsFlexible p
    · obtain ⟨hf, rfl⟩ := hp
      obtain ⟨hne, hrest⟩ := (isSome_match?_blank_iff hf).1 h
      refine cutsInto_cons_iff.2 ⟨data.takeWhile isBlankByte, _,
        List.takeWhile_append_dropWhile.symm, (PatternFlags.standsFor_blank_iff hf).2 ⟨?_, ?_⟩, ih hrest⟩
      · exact List.all_eq_true.1 List.all_takeWhile
      · refine hne.imp_right ?_
        rintro ⟨b, rest, rfl, hb⟩
        simp [hb]
    · obtain ⟨b, rest, rfl, hsame, hrest⟩ := (isSome_match?_byte_iff hp).1 h
      exact cutsInto_cons_iff.2
        ⟨[b], rest, rfl, (PatternFlags.standsFor_byte_iff hp).2 ⟨b, rfl, hsame⟩, ih hrest⟩

/-- What starves finds no blank. -/
theorem not_isSome_match?_of_starves (h : flags.Starves p q) :
    ¬ (match? flags (q :: pattern) (data.dropWhile isBlankByte)).isSome := by
  obtain ⟨hp, hblank, hneeds⟩ := h
  have hfront : ∀ b rest, data.dropWhile isBlankByte = b :: rest → ¬ isBlankByte b = true := by
    intro b rest hdata
    have hhead := List.head?_dropWhile_not isBlankByte data
    simpa [hdata] using hhead
  intro hsome
  by_cases hq : flags.IsFlexible q
  · obtain ⟨hf, rfl⟩ := hq
    obtain ⟨hw | ⟨b, rest, hdata, hb⟩, -⟩ := (isSome_match?_blank_iff hf).1 hsome
    · exact hneeds ⟨hw, rfl⟩
    · exact hfront b rest hdata hb
  · obtain ⟨b, rest, hdata, hsame, -⟩ := (isSome_match?_byte_iff hq).1 hsome
    exact hfront b rest hdata ((PatternFlags.isBlankByte_of_sameByte hsame).trans hblank)

/-- In a pattern that matches somewhere nothing starves. -/
theorem spares_of_isSome (h : (match? flags pattern data).isSome) : flags.Spares pattern := by
  induction pattern generalizing data with
  | nil => exact List.isChain_nil
  | cons p pattern ih =>
    by_cases hp : flags.IsFlexible p
    · obtain ⟨hf, rfl⟩ := hp
      obtain ⟨-, hrest⟩ := (isSome_match?_blank_iff hf).1 h
      refine List.isChain_cons.2 ⟨?_, ih hrest⟩
      intro q hq hstarves
      obtain ⟨behind, rfl⟩ := List.head?_eq_some_iff.1 hq
      exact not_isSome_match?_of_starves hstarves hrest
    · obtain ⟨b, rest, rfl, hsame, hrest⟩ := (isSome_match?_byte_iff hp).1 h
      exact List.isChain_cons.2 ⟨fun q _ hstarves => hp hstarves.1, ih hrest⟩

end Pattern

/-- What can be cut behind some of the blanks can be cut behind all of them, if nothing starves. -/
theorem CutsInto.dropWhile (h : CutsInto flags pattern data) (hf : flags.hasFlexibleBlanks = true)
    (hs : flags.Spares (0x20 :: pattern)) :
    CutsInto flags pattern (data.dropWhile isBlankByte) := by
  induction pattern generalizing data with
  | nil => exact cutsInto_nil
  | cons q pattern ih =>
    obtain ⟨hspares, hrest⟩ := List.isChain_cons_cons.1 hs
    obtain ⟨piece, rest, rfl, hpiece, hcuts⟩ := cutsInto_cons_iff.1 h
    by_cases hblank : isBlankByte q = true
    · -- A blank does not starve behind a flexible one only if it needs none.
      obtain ⟨hw, rfl⟩ : flags.optionalBlanks = true ∧ q = 0x20 :=
        not_not.1 fun hneeds => hspares ⟨⟨hf, rfl⟩, hblank, hneeds⟩
      rw [List.dropWhile_append_of_pos ((PatternFlags.standsFor_blank_iff hf).1 hpiece).1]
      exact cutsInto_cons_iff.2
        ⟨[], _, rfl, .anyBlanks hw (List.forall_mem_nil _), ih hcuts hrest⟩
    · have hq : ¬ flags.IsFlexible q := by
        rintro ⟨-, rfl⟩
        exact hblank rfl
      obtain ⟨b, rfl, hsame⟩ := (PatternFlags.standsFor_byte_iff hq).1 hpiece
      have hb : ¬ isBlankByte b = true := by
        rwa [PatternFlags.isBlankByte_of_sameByte hsame]
      rw [List.singleton_append, List.dropWhile_cons_of_neg hb]
      exact h

/-- Where a prefix can be cut, a pattern in which nothing starves matches. -/
theorem Pattern.isSome_of_cutsInto (hs : flags.Spares pattern) (h : CutsInto flags pattern data) :
    (match? flags pattern data).isSome := by
  induction pattern generalizing data with
  | nil => rw [match?.eq_def]; rfl
  | cons p pattern ih =>
    obtain ⟨piece, rest, rfl, hpiece, hcuts⟩ := cutsInto_cons_iff.1 h
    by_cases hp : flags.IsFlexible p
    · obtain ⟨hf, rfl⟩ := hp
      obtain ⟨hblanks, hne⟩ := (PatternFlags.standsFor_blank_iff hf).1 hpiece
      rw [isSome_match?_blank_iff hf, List.dropWhile_append_of_pos hblanks]
      refine ⟨hne.imp_right fun hne => ?_, ih hs.tail (hcuts.dropWhile hf hs)⟩
      obtain ⟨b, others, rfl⟩ := List.exists_cons_of_ne_nil hne
      exact ⟨b, others ++ rest, rfl, hblanks b List.mem_cons_self⟩
    · obtain ⟨b, rfl, hsame⟩ := (PatternFlags.standsFor_byte_iff hp).1 hpiece
      exact (isSome_match?_byte_iff hp).2 ⟨b, rest, rfl, hsame, ih hs.tail hcuts⟩

/-- **A pattern matches where a prefix can be cut into its pieces, if none of its bytes starves.** -/
theorem Pattern.isSome_match?_iff :
    (match? flags pattern data).isSome ↔ flags.Spares pattern ∧ CutsInto flags pattern data :=
  ⟨fun h => ⟨spares_of_isSome h, cutsInto_of_isSome h⟩, fun h => isSome_of_cutsInto h.1 h.2⟩

/-! ## Entries that compare -/

section Entries

variable {entry : Entry} {buffer : List UInt8} {parentStop offset : Nat}

theorem isSome_probeText_equal (h : offset ≤ buffer.length) :
    (probeText flags .equal pattern buffer offset).isSome ↔
      (Pattern.match? flags pattern (buffer.drop offset)).isSome := by
  simp only [probeText, if_neg (Nat.not_lt_of_le h), Option.isSome_map]

/-- **An entry matches at an offset in the buffer if nothing in its pattern starves and a prefix of what
stands there can be cut into the pieces of the pattern.** So it matches its own pattern only if nothing
starves, and nothing does without flexible blanks. -/
theorem text_matches_iff (hoffset : entry.offset.resolve parentStop = some offset)
    (htype : entry.type = .text flags) (htest : entry.test = .text .equal pattern)
    (hinside : offset ≤ buffer.length) :
    ((entry.probe buffer parentStop).isSome ↔
      flags.Spares pattern ∧ CutsInto flags pattern (buffer.drop offset)) ∧
    (pattern <+: buffer.drop offset → CutsInto flags pattern (buffer.drop offset) ∧
      ((entry.probe buffer parentStop).isSome ↔ flags.Spares pattern)) ∧
    (flags.hasFlexibleBlanks = false → flags.Spares pattern) := by
  have hmatches : (entry.probe buffer parentStop).isSome ↔
      flags.Spares pattern ∧ CutsInto flags pattern (buffer.drop offset) := by
    rw [Entry.probe_text hoffset htype htest, isSome_probeText_equal hinside]
    exact Pattern.isSome_match?_iff
  refine ⟨hmatches, ?_, ?_⟩
  · intro hprefix
    have hcuts : CutsInto flags pattern (buffer.drop offset) := cutsInto_self hprefix
    exact ⟨hcuts, hmatches.trans (and_iff_left hcuts)⟩
  · exact fun hrigid => PatternFlags.spares_of_not_flexible hrigid pattern

/-- Of two optional blanks the second finds nothing left, and needs nothing. -/
theorem text_matches_iff_optional :
    ∃ (entry : Entry) (buffer : List UInt8), entry.offset.resolve 3 = some 1 ∧
      entry.type = .text { ignoreCase := true, optionalBlanks := true } ∧
      entry.test = .text .equal [0x23, 0x20, 0x20, 0x41] ∧ buffer = [0x00, 0x23, 0x09, 0x61] ∧
      1 ≤ buffer.length ∧ (entry.probe buffer 3).isSome ∧
      PatternFlags.Spares { ignoreCase := true, optionalBlanks := true } [0x23, 0x20, 0x20, 0x41] ∧
      CutsInto { ignoreCase := true, optionalBlanks := true } [0x23, 0x20, 0x20, 0x41]
        (buffer.drop 1) := by
  let entry : Entry :=
    { level := 1, line := 2, offset := .relative (-2),
      type := .text { ignoreCase := true, optionalBlanks := true },
      test := .text .equal [0x23, 0x20, 0x20, 0x41], message := "", mime := none, adjustment := none }
  let buffer : List UInt8 := [0x00, 0x23, 0x09, 0x61]
  have hoffset : entry.offset.resolve 3 = some 1 := by decide
  have hinside : 1 ≤ buffer.length := by decide
  have hsome : (entry.probe buffer 3).isSome := by decide
  obtain ⟨hspares, hcuts⟩ := (text_matches_iff hoffset rfl rfl hinside).1.1 hsome
  exact ⟨entry, buffer, hoffset, rfl, rfl, rfl, hinside, hsome, hspares, hcuts⟩

/-- Where one blank or more are asked for twice, the second blank of the pattern starves. -/
theorem text_matches_iff_starved :
    ∃ forest, readForest "0 string/W a\\ \\ b found\n".toList = .ok forest ∧
      forest.preorder.map (fun entry =>
          (entry.type, entry.test, entry.probe [0x61, 0x20, 0x20, 0x62] 0)) =
        [(.text { compactBlanks := true }, .text .equal [0x61, 0x20, 0x20, 0x62], none)] ∧
      CutsInto { compactBlanks := true } [0x61, 0x20, 0x20, 0x62] [0x61, 0x20, 0x20, 0x62] := by
  obtain ⟨forest, hforest, hprobes⟩ := map_eq_ok_iff.1
    (show (readForest "0 string/W a\\ \\ b found\n".toList).map (fun forest =>
      forest.preorder.map fun entry =>
        (entry.type, entry.test, entry.probe [0x61, 0x20, 0x20, 0x62] 0)) =
        .ok [(.text { compactBlanks := true }, .text .equal [0x61, 0x20, 0x20, 0x62], none)] by
      decide +kernel)
  exact ⟨forest, hforest, hprobes, cutsInto_self List.prefix_rfl⟩

end Entries

end Hallmark.Signature
