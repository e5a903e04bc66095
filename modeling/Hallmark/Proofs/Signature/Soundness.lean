import Hallmark.Proofs.Number.Width
import Hallmark.Proofs.Signature.Annotation
import Hallmark.Proofs.Signature.Writing
import Hallmark.Signature.Database

/-!
# `Hallmark/Proofs/Signature/Soundness.lean` — what is true of every entry that was read

The readers of an offset, a type and a test give only what can stand on an entry line: a number has a
width with a name and is compared with a value of that width, a byte string with a pattern that is empty
only if anything passes. Directives keep this, so it holds of every entry of a database
(`Entry.IsSound`), and testing such an entry never meets a type of one kind with a test of the other,
nor compares numbers that are wider than the type (`Entry.Probes`). Main statement: `read_sound`.
-/

set_option autoImplicit false

namespace Hallmark.Signature

open Forest

/-! ## What the readers of an entry line give -/

theorem Offset.standsAt_of_read {number level : Nat} {token : List Char} {offset : Offset}
    (h : Offset.read number level token = .ok offset) : offset.StandsAt level := by
  unfold Offset.read at h
  split at h
  · simp at h
  · split at h
    · simp at h
    · next hlevel =>
      obtain ⟨n, -, rfl⟩ := map_eq_ok_iff.1 h
      exact hlevel
  · obtain ⟨n, -, rfl⟩ := map_eq_ok_iff.1 h
    trivial

theorem numberType?_width {name : List Char} {width : Nat} {order : ByteOrder}
    (h : numberType? name = some (width, order)) (isSigned : Bool) (mask : Option UInt64) :
    NumberFormat.IsNamed ⟨width, order, isSigned, mask⟩ := by
  unfold numberType? at h
  split at h <;> simp_all [NumberFormat.IsNamed]

theorem NumberFormat.isNamed_of_named? {name : List Char} {mask : Option UInt64}
    {format : NumberFormat} (h : NumberFormat.named? name mask = some format) : format.IsNamed := by
  have signed : ∀ {name : List Char}, (numberType? name).map
      (fun p => (⟨p.1, p.2, true, mask⟩ : NumberFormat)) = some format → format.IsNamed := by
    intro name hm
    obtain ⟨p, hp, rfl⟩ := Option.map_eq_some_iff.1 hm
    exact numberType?_width hp true mask
  unfold NumberFormat.named? at h
  split at h
  · split at h
    · next p hp =>
      cases h
      exact numberType?_width hp false mask
    · exact signed h
  · exact signed h

theorem ValueType.isNamed_of_named {line : Nat} {name : List Char} {parts : List (List Char)}
    {mask : Option UInt64} {type : ValueType} (h : ValueType.named line name parts mask = .ok type) :
    type.IsNamed := by
  unfold ValueType.named at h
  split at h
  · next format hformat =>
    split at h
    · cases h
      exact NumberFormat.isNamed_of_named? hformat
    · simp at h
  · split at h
    · simp at h
    · obtain ⟨modifiers, -, h⟩ := bind_eq_ok_iff.1 h
      split at h
      · cases h
        trivial
      · obtain ⟨range, -, rfl⟩ := map_eq_ok_iff.1 h
        trivial
      · simp at h

theorem ValueType.isNamed_of_read {line : Nat} {token : List Char} {type : ValueType}
    (h : ValueType.read line token = .ok type) : type.IsNamed := by
  unfold ValueType.read at h
  split at h
  · obtain ⟨⟨base, mask⟩, -, h⟩ := bind_eq_ok_iff.1 h
    dsimp only at h
    split at h <;> exact isNamed_of_named h
  · obtain ⟨⟨base, mask⟩, -, h⟩ := bind_eq_ok_iff.1 h
    dsimp only at h
    split at h <;> exact isNamed_of_named h

theorem NumberOp.leading_ne_any (token : List Char) : (NumberOp.leading token).1 ≠ .any := by
  unfold NumberOp.leading
  split <;> simp

theorem TextOp.leading_ne_any (token : List Char) : (TextOp.leading token).1 ≠ .any := by
  unfold TextOp.leading
  split <;> simp

/-- A value is cut to the width of its type. -/
theorem Test.suits_of_readNumber {line : Nat} {format : NumberFormat} {token : List Char} {test : Test}
    (h : Test.readNumber line format.width token = .ok test) : test.Suits (.number format) := by
  unfold Test.readNumber at h
  split at h
  · cases h
    exact ⟨Nat.pow_pos (by decide), fun _ => rfl⟩
  · obtain ⟨n, -, rfl⟩ := map_eq_ok_iff.1 h
    exact ⟨Number.toNat_truncate_lt n format.width,
      fun hany => absurd hany (NumberOp.leading_ne_any token)⟩

/-- Only a test that anything passes has an empty pattern. -/
theorem Test.eq_text_of_readText {line : Nat} {token : List Char} {test : Test}
    (h : Test.readText line token = .ok test) :
    ∃ op pattern, test = .text op pattern ∧ (op = .any ↔ pattern = []) := by
  unfold Test.readText at h
  split at h
  · cases h
    exact ⟨.any, [], rfl, by simp⟩
  · obtain ⟨pattern, -, h⟩ := bind_eq_ok_iff.1 h
    split at h
    · simp at h
    · next hne =>
      cases h
      exact ⟨_, pattern, rfl, fun hany => absurd hany (TextOp.leading_ne_any token),
        fun hnil => absurd hnil hne⟩

theorem Test.suits_of_read {line : Nat} {type : ValueType} {token : List Char} {test : Test}
    (h : Test.read line type token = .ok test) : test.Suits type := by
  cases type with
  | number format => exact suits_of_readNumber h
  | text | search =>
    obtain ⟨op, pattern, rfl, hany⟩ := eq_text_of_readText h
    exact hany

/-! ## Entries -/

/-- The parts of an entry fit together, and what it says is neither blank at its ends nor an empty
type. -/
structure Entry.IsSound (entry : Entry) : Prop where
  offset : entry.offset.StandsAt entry.level
  type : entry.type.IsNamed
  test : entry.test.Suits entry.type
  message : Text.IsTrimmed entry.message.toList
  mime : entry.mime ≠ some ""

theorem Entry.isSound_of_read {number : Nat} {line : List Char} {entry : Entry}
    (h : Entry.read number line = .ok entry) : entry.IsSound := by
  obtain ⟨offsetToken, typeToken, testToken, rest₁, rest₂, rest₃, -, -, -, hoffset, htype, htest,
    hlevel, -, hmessage, hmime, -⟩ := Entry.read_eq_ok_iff.1 h
  refine ⟨?_, ValueType.isNamed_of_read htype, Test.suits_of_read htest, ?_, ?_⟩
  · rw [hlevel]
    exact Offset.standsAt_of_read hoffset
  · rw [hmessage, String.toList_ofList]
    exact Text.isTrimmed_trim rest₃
  · rw [hmime]
    simp

theorem Entry.IsSound.apply {entry : Entry} {text : List Char} {directive : Directive}
    (h : entry.IsSound) (hs : directive.Says text) : (directive.apply entry).IsSound := by
  cases hs with
  | @mime argument _ _ hne =>
    refine ⟨h.offset, h.type, h.test, h.message, ?_⟩
    intro hempty
    have hargument : String.ofList argument = "" := Option.some.inj hempty
    exact hne (by simpa using congrArg String.toList hargument)
  | strength => exact ⟨h.offset, h.type, h.test, h.message, h.mime⟩
  | unreported => exact h

theorem forall_entries_of_step {P : Entry → Prop}
    (hread : ∀ {number : Nat} {line : List Char} {entry : Entry},
      Entry.read number line = .ok entry → P entry)
    (happly : ∀ {entry : Entry} {text : List Char} {directive : Directive},
      P entry → directive.Says text → P (directive.apply entry))
    {number : Nat} {raw : List Char} {draft next : Draft}
    (h : ∀ entry ∈ draft.forest.preorder, P entry) (hs : Draft.Step number raw draft next) :
    ∀ entry ∈ next.forest.preorder, P entry := by
  cases hs with
  | silent => exact h
  | directive forest last directive hle hd hr =>
    rw [preorder_graft_leaf last hle, List.forall_mem_append, List.forall_mem_singleton] at h
    rw [preorder_graft_leaf (directive.apply last) hle, List.forall_mem_append,
      List.forall_mem_singleton]
    exact ⟨h.1, happly h.2 (Directive.says_of_read hr)⟩
  | entry draft entry he hr hle =>
    rw [preorder_graft_leaf entry hle, List.forall_mem_append, List.forall_mem_singleton]
    exact ⟨h, hread hr⟩

/-- What is true of every entry that is read from a line, and kept by the directives, is true of every
entry of a forest. -/
theorem forall_entries_of_readForest {P : Entry → Prop}
    (hread : ∀ {number : Nat} {line : List Char} {entry : Entry},
      Entry.read number line = .ok entry → P entry)
    (happly : ∀ {entry : Entry} {text : List Char} {directive : Directive},
      P entry → directive.Says text → P (directive.apply entry))
    {text : List Char} {forest : Forest Entry} (h : readForest text = .ok forest) :
    ∀ entry ∈ forest.preorder, P entry := by
  obtain ⟨draft, hdraft, rfl⟩ := map_eq_ok_iff.1 h
  exact Draft.addLines_invariant (P := fun _ draft => ∀ entry ∈ draft.forest.preorder, P entry)
    (by simp [preorder]) (fun _ _ _ _ hp _ hs => forall_entries_of_step hread happly hp hs) hdraft

theorem isSound_of_readForest {text : List Char} {forest : Forest Entry}
    (h : readForest text = .ok forest) : ∀ entry ∈ forest.preorder, entry.IsSound :=
  forall_entries_of_readForest Entry.isSound_of_read Entry.IsSound.apply h

theorem flatMap_preorder_trees {α : Type} (f : Forest α) :
    f.trees.flatMap Tree.preorder = f.preorder := by
  induction f with
  | empty => rfl
  | grow root below after _ iha => simp [trees, preorder, Tree.preorder, iha]

/-- The entries of a database are those of its forest, in the order of the ranking. -/
theorem mem_entries_iff {text : List Char} {forest : Forest Entry} {database : Database}
    (hforest : readForest text = .ok forest) (h : Database.read text = .ok database) (entry : Entry) :
    entry ∈ database.entries ↔ entry ∈ forest.preorder := by
  rw [Database.read, hforest] at h
  cases h
  rw [Database.entries, ((rank_perm forest.trees).flatMap_right Tree.preorder).mem_iff,
    flatMap_preorder_trees]

/-! ## Testing -/

/-- A word is no wider than the bytes it was read from; a mask makes it no wider. -/
theorem NumberFormat.toNat_word_lt (format : NumberFormat) {bytes : List UInt8}
    (h : bytes.length = format.width) : (format.word bytes).toNat < 256 ^ format.width := by
  have hread : ∀ n : Nat, n < 256 ^ bytes.length → (UInt64.ofNat n).toNat < 256 ^ format.width := by
    intro n hn
    rw [UInt64.toNat_ofNat', ← h]
    exact Nat.lt_of_le_of_lt (Nat.mod_le _ _) hn
  have hmask : ∀ (word mask : UInt64), word.toNat < 256 ^ format.width →
      (word &&& mask).toNat < 256 ^ format.width := by
    intro word mask hword
    rw [UInt64.toNat_and]
    exact Nat.lt_of_le_of_lt Nat.and_le_left hword
  have hlittle := hread _ (Number.ofLittleEndian_lt bytes)
  have hbig := hread _ (Number.ofBigEndian_lt bytes)
  unfold NumberFormat.word
  cases format.order with
  | little =>
    cases format.mask with
    | none => exact hlittle
    | some mask => exact hmask _ mask hlittle
  | big =>
    cases format.mask with
    | none => exact hbig
    | some mask => exact hmask _ mask hbig

/-- The ways in which testing an entry can go, and what each of them finds. A type of one kind is never
tested with a test of the other, and the two numbers that are compared have the width of the type. -/
inductive Entry.Probes (entry : Entry) (buffer : List UInt8) (parentStop : Nat) :
    Option Match → Prop where
  | nowhere (h : entry.offset.resolve parentStop = none) : Probes entry buffer parentStop none
  | cutShort {offset : Nat} {format : NumberFormat} {op : NumberOp} {expected : UInt64}
      (hoffset : entry.offset.resolve parentStop = some offset) (htype : entry.type = .number format)
      (htest : entry.test = .number op expected) (hlength : buffer.length < offset + format.width) :
      Probes entry buffer parentStop none
  | compared {offset : Nat} {format : NumberFormat} {op : NumberOp} {actual expected : UInt64}
      (hoffset : entry.offset.resolve parentStop = some offset) (htype : entry.type = .number format)
      (htest : entry.test = .number op expected) (hlength : offset + format.width ≤ buffer.length)
      (hactual : actual = format.word ((buffer.drop offset).take format.width))
      (actual_lt : actual.toNat < 256 ^ format.width)
      (expected_lt : expected.toNat < 256 ^ format.width) :
      Probes entry buffer parentStop
        (if op.holds actual expected format.width format.isSigned then
          some ⟨offset + format.width, .number actual format.width⟩ else none)
  | text {offset : Nat} {flags : PatternFlags} {op : TextOp} {pattern : List UInt8}
      (hoffset : entry.offset.resolve parentStop = some offset) (htype : entry.type = .text flags)
      (htest : entry.test = .text op pattern) :
      Probes entry buffer parentStop (probeText flags op pattern buffer offset)
  | anywhere {offset : Nat} {range : UInt64} {flags : PatternFlags} {pattern : List UInt8}
      (hoffset : entry.offset.resolve parentStop = some offset)
      (htype : entry.type = .search range flags) (htest : entry.test = .text .any pattern) :
      Probes entry buffer parentStop (probeText flags .any pattern buffer offset)
  | search {offset : Nat} {range : UInt64} {flags : PatternFlags} {op : TextOp} {pattern : List UInt8}
      (hoffset : entry.offset.resolve parentStop = some offset)
      (htype : entry.type = .search range flags) (htest : entry.test = .text op pattern)
      (hop : op ≠ .any) :
      Probes entry buffer parentStop
        (findText flags pattern range.toNat (buffer.drop offset) offset)

theorem Entry.IsSound.probes {entry : Entry} (h : entry.IsSound) (buffer : List UInt8)
    (parentStop : Nat) : entry.Probes buffer parentStop (entry.probe buffer parentStop) := by
  have hsuits := h.test
  unfold Entry.probe
  cases hoffset : entry.offset.resolve parentStop with
  | none => exact .nowhere hoffset
  | some offset =>
    cases htype : entry.type with
    | number format =>
      cases htest : entry.test with
      | text => simp [htype, htest, Test.Suits] at hsuits
      | number op expected =>
        rw [htype, htest] at hsuits
        simp only [probeNumber]
        split
        · next hlength =>
          refine .compared hoffset htype htest hlength rfl (format.toNat_word_lt ?_) hsuits.1
          rw [List.length_take, List.length_drop]
          omega
        · next hlength => exact .cutShort hoffset htype htest (Nat.lt_of_not_le hlength)
    | text flags =>
      cases htest : entry.test with
      | number => simp [htype, htest, Test.Suits] at hsuits
      | text op pattern => exact .text hoffset htype htest
    | search range flags =>
      cases htest : entry.test with
      | number => simp [htype, htest, Test.Suits] at hsuits
      | text op pattern =>
        by_cases hop : op = .any
        · subst hop
          exact .anywhere hoffset htype htest
        · have hfind := @Probes.search entry buffer parentStop offset range flags op pattern
            hoffset htype htest hop
          cases op with
          | any => exact absurd rfl hop
          | equal | notEqual | less | greater => exact hfind

/-! ## Databases -/

theorem Entry.IsSound.number {entry : Entry} (h : entry.IsSound) {format : NumberFormat}
    (htype : entry.type = .number format) :
    (format.width = 1 ∨ format.width = 2 ∨ format.width = 4 ∨ format.width = 8) ∧
      ∃ op value, entry.test = .number op value ∧ value.toNat < 256 ^ format.width := by
  have hnamed := h.type
  have hsuits := h.test
  rw [htype] at hnamed hsuits
  refine ⟨Or.imp_left And.left hnamed, ?_⟩
  cases htest : entry.test with
  | text => simp [htest, Test.Suits] at hsuits
  | number op value =>
    rw [htest] at hsuits
    exact ⟨op, value, rfl, hsuits.1⟩

theorem Entry.IsSound.pattern {entry : Entry} (h : entry.IsSound)
    (htype : ∀ format, entry.type ≠ .number format) :
    ∃ op pattern, entry.test = .text op pattern ∧ (pattern = [] ↔ op = .any) := by
  have hsuits := h.test
  cases htest : entry.test with
  | number op value =>
    cases ht : entry.type with
    | number format => exact absurd ht (htype format)
    | text | search => simp [htest, ht, Test.Suits] at hsuits
  | text op pattern =>
    refine ⟨op, pattern, rfl, ?_⟩
    cases ht : entry.type with
    | number format => exact absurd ht (htype format)
    | text | search =>
      rw [htest, ht] at hsuits
      exact hsuits.symm

/-- **Every entry of a database has a type with a name, a test of the kind of its type, an offset that
can stand at its level and a strength of at least 1, and testing it never meets a type with a test of
the other kind, nor compares numbers wider than the type.** -/
theorem read_sound {text : List Char} {database : Database}
    (h : Database.read text = .ok database) :
    ∀ entry ∈ database.entries,
      (∀ format, entry.type = .number format →
        (format.width = 1 ∨ format.width = 2 ∨ format.width = 4 ∨ format.width = 8) ∧
          ∃ op value, entry.test = .number op value ∧ value.toNat < 256 ^ format.width) ∧
      (∀ flags, (entry.type = .text flags ∨ ∃ range, entry.type = .search range flags) →
        ∃ op pattern, entry.test = .text op pattern ∧ (pattern = [] ↔ op = .any)) ∧
      (∀ delta, entry.offset = .relative delta → 1 ≤ entry.level) ∧
      Text.IsTrimmed entry.message.toList ∧ entry.mime ≠ some "" ∧ 1 ≤ entry.strength ∧
      ∀ buffer parentStop, entry.Probes buffer parentStop (entry.probe buffer parentStop) := by
  obtain ⟨forest, hforest, -⟩ := map_eq_ok_iff.1 h
  intro entry hm
  have hsound := isSound_of_readForest hforest entry ((mem_entries_iff hforest h entry).1 hm)
  refine ⟨fun format htype => hsound.number htype, ?_, ?_, hsound.message, hsound.mime,
    entry.one_le_strength, hsound.probes⟩
  · rintro flags (htype | ⟨range, htype⟩)
    · exact hsound.pattern (by simp [htype])
    · exact hsound.pattern (by simp [htype])
  · intro delta hoffset
    have hstands := hsound.offset
    rw [hoffset] at hstands
    exact Nat.one_le_iff_ne_zero.2 hstands

/-- A negative value is cut to the width of the type, below it stand a relative entry that anything
passes and a search for an escaped pattern. -/
theorem read_sound_masked :
    ∃ database,
      Database.read ("0 ubelong&0xFFFF >-2 masked\n>&-2 string x tail \n" ++
        "!:mime text/plain\n>0 search/8/c \\x41B found\n").toList = .ok database ∧
      database.entries.map Entry.test =
        [.number .greater 0xFFFFFFFE, .text .any [], .text .equal [0x41, 0x42]] ∧
      ∀ entry ∈ database.entries, Text.IsTrimmed entry.message.toList ∧ entry.mime ≠ some "" ∧
        ∀ buffer parentStop, entry.Probes buffer parentStop (entry.probe buffer parentStop) := by
  have htests : (Database.read ("0 ubelong&0xFFFF >-2 masked\n>&-2 string x tail \n" ++
      "!:mime text/plain\n>0 search/8/c \\x41B found\n").toList).map
        (fun d => d.entries.map Entry.test) =
      .ok [.number .greater 0xFFFFFFFE, .text .any [], .text .equal [0x41, 0x42]] := by
    decide +kernel
  obtain ⟨database, hdatabase, htests⟩ := map_eq_ok_iff.1 htests
  refine ⟨database, hdatabase, htests, ?_⟩
  intro entry hm
  obtain ⟨-, -, -, hmessage, hmime, -, hprobes⟩ := read_sound hdatabase entry hm
  exact ⟨hmessage, hmime, hprobes⟩

end Hallmark.Signature
