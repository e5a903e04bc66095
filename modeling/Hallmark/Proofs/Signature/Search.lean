import Mathlib.Data.List.Basic
import Hallmark.Proofs.Except
import Hallmark.Signature.Probe
import Hallmark.Signature.Reader

/-!
# `Hallmark/Proofs/Signature/Search.lean` — looking for a pattern

A search tries the positions inside the buffer among as many as its range, from the offset on (`Tried`),
and takes the first at which the pattern stands (`FirstAt`). More positions can therefore only find a
pattern that fewer did not find. It compares for equality whatever the test says, so that a test for
difference, which a type without a range negates, is met by just the buffers it should refuse. Main
statements: `search_finds_first`, `search_ignores_comparison`.
-/

set_option autoImplicit false

namespace Hallmark.Signature

variable {flags : PatternFlags} {pattern buffer : List UInt8}

/-! ## Positions -/

/-- A position that a search tries. -/
structure Tried (buffer : List UInt8) (offset range start : Nat) : Prop where
  offset_le : offset ≤ start
  lt_range : start < offset + range
  inside : start < buffer.length

/-- The first position that a search tries at which the pattern stands, and how many bytes it takes. -/
structure FirstAt (flags : PatternFlags) (pattern buffer : List UInt8)
    (offset range start count : Nat) : Prop where
  tried : Tried buffer offset range start
  stands : Pattern.match? flags pattern (buffer.drop start) = some count
  first : ∀ earlier, Tried buffer offset range earlier → earlier < start →
    Pattern.match? flags pattern (buffer.drop earlier) = none

theorem Tried.widen {offset range wider start : Nat} (h : Tried buffer offset range start)
    (hle : range ≤ wider) : Tried buffer offset wider start :=
  ⟨h.offset_le, Nat.lt_of_lt_of_le h.lt_range (Nat.add_le_add_left hle offset), h.inside⟩

/-- What comes first among some positions comes first among more of them. -/
theorem FirstAt.widen {offset range wider start count : Nat}
    (h : FirstAt flags pattern buffer offset range start count) (hle : range ≤ wider) :
    FirstAt flags pattern buffer offset wider start count where
  tried := h.tried.widen hle
  stands := h.stands
  first earlier htried hlt :=
    h.first earlier ⟨htried.offset_le, Nat.lt_trans hlt h.tried.lt_range, htried.inside⟩ hlt

/-- Only one position comes first. -/
theorem FirstAt.unique {offset range start count other next : Nat}
    (h : FirstAt flags pattern buffer offset range start count)
    (h' : FirstAt flags pattern buffer offset range other next) : start = other ∧ count = next := by
  rcases Nat.lt_trichotomy start other with hlt | rfl | hgt
  · have hnone := h'.first start h.tried hlt
    simp [h.stands] at hnone
  · exact ⟨rfl, Option.some.inj (h.stands.symm.trans h'.stands)⟩
  · have hnone := h.first other h'.tried hgt
    simp [h'.stands] at hnone

/-- With one try more, the offset itself is tried, and then the positions behind it. -/
theorem tried_succ_iff {offset range start : Nat} :
    Tried buffer offset (range + 1) start ↔
      start = offset ∧ offset < buffer.length ∨ Tried buffer (offset + 1) range start := by
  constructor
  · rintro ⟨hle, hlt, hin⟩
    rcases Nat.eq_or_lt_of_le hle with rfl | hgt
    · exact .inl ⟨rfl, hin⟩
    · exact .inr ⟨hgt, by omega, hin⟩
  · rintro (⟨rfl, hin⟩ | ⟨hle, hlt, hin⟩)
    · exact ⟨Nat.le_refl _, by omega, hin⟩
    · exact ⟨by omega, by omega, hin⟩

/-! ## The search -/

/-- What a search can find. -/
inductive Finds (flags : PatternFlags) (pattern buffer : List UInt8) (offset range : Nat) :
    Option Match → Prop where
  | nothing (h : ∀ start, Tried buffer offset range start →
      Pattern.match? flags pattern (buffer.drop start) = none) :
      Finds flags pattern buffer offset range none
  | first {start count : Nat} (h : FirstAt flags pattern buffer offset range start count) :
      Finds flags pattern buffer offset range (some (.taken (buffer.drop start) start count))

/-- If the pattern does not stand at the offset, it is looked for behind it. -/
theorem Finds.behind {offset range : Nat} {result : Option Match}
    (h : Finds flags pattern buffer (offset + 1) range result)
    (hmatch : Pattern.match? flags pattern (buffer.drop offset) = none) :
    Finds flags pattern buffer offset (range + 1) result := by
  cases h with
  | nothing hnone =>
    refine .nothing fun start htried => ?_
    rcases tried_succ_iff.1 htried with ⟨rfl, -⟩ | hbehind
    · exact hmatch
    · exact hnone start hbehind
  | first hfirst =>
    refine .first ⟨tried_succ_iff.2 (.inr hfirst.tried), hfirst.stands, ?_⟩
    intro earlier htried hlt
    rcases tried_succ_iff.1 htried with ⟨rfl, -⟩ | hbehind
    · exact hmatch
    · exact hfirst.first earlier hbehind hlt

/-- Inside the buffer, the pattern is looked for at the offset first, and then behind it. -/
theorem findText_succ {offset : Nat} (h : offset < buffer.length) (range : Nat) :
    findText flags pattern (range + 1) (buffer.drop offset) offset =
      match Pattern.match? flags pattern (buffer.drop offset) with
      | some count => some (.taken (buffer.drop offset) offset count)
      | none => findText flags pattern range (buffer.drop (offset + 1)) (offset + 1) := by
  have hdrop : buffer.drop offset = buffer[offset] :: buffer.drop (offset + 1) :=
    List.drop_eq_getElem_cons h
  rw [hdrop]
  rfl

theorem finds_findText (flags : PatternFlags) (pattern buffer : List UInt8) (offset range : Nat) :
    Finds flags pattern buffer offset range
      (findText flags pattern range (buffer.drop offset) offset) := by
  induction range generalizing offset with
  | zero =>
    refine .nothing fun start h => absurd h.lt_range ?_
    have := h.offset_le
    omega
  | succ range ih =>
    rcases Nat.lt_or_ge offset buffer.length with hlt | hge
    · rw [findText_succ hlt]
      cases hmatch : Pattern.match? flags pattern (buffer.drop offset) with
      | some count =>
        refine .first ⟨tried_succ_iff.2 (.inl ⟨rfl, hlt⟩), hmatch, fun earlier h hbefore => ?_⟩
        exact absurd h.offset_le (Nat.not_le_of_lt hbefore)
      | none => exact (ih (offset + 1)).behind hmatch
    · rw [List.drop_eq_nil_of_le hge, findText]
      refine .nothing fun start h => absurd h.inside ?_
      have := h.offset_le
      omega

theorem Finds.eq_some_iff {offset range : Nat} {result : Option Match}
    (h : Finds flags pattern buffer offset range result) (found : Match) :
    result = some found ↔ ∃ start count, FirstAt flags pattern buffer offset range start count ∧
      found = .taken (buffer.drop start) start count := by
  cases h with
  | nothing hnone =>
    simp only [reduceCtorEq, false_iff]
    rintro ⟨start, count, hfirst, -⟩
    simpa [hfirst.stands] using hnone start hfirst.tried
  | @first start count hfirst =>
    simp only [Option.some.injEq]
    constructor
    · rintro rfl
      exact ⟨start, count, hfirst, rfl⟩
    · rintro ⟨other, next, hother, rfl⟩
      obtain ⟨rfl, rfl⟩ := hfirst.unique hother
      rfl

theorem Finds.isSome_iff {offset range : Nat} {result : Option Match}
    (h : Finds flags pattern buffer offset range result) :
    result.isSome ↔ ∃ start, Tried buffer offset range start ∧
      (Pattern.match? flags pattern (buffer.drop start)).isSome := by
  cases h with
  | nothing hnone =>
    simp only [Option.isSome_none, Bool.false_eq_true, false_iff]
    rintro ⟨start, htried, hstands⟩
    simp [hnone start htried] at hstands
  | first hfirst =>
    simp only [Option.isSome_some, true_iff]
    exact ⟨_, hfirst.tried, by simp [hfirst.stands]⟩

/-! ## Entries that search -/

variable {entry : Entry} {parentStop offset : Nat} {range : UInt64}

/-- Inside the buffer, one position to try is the offset. -/
theorem findText_one (h : offset < buffer.length) :
    findText flags pattern 1 (buffer.drop offset) offset =
      probeText flags .equal pattern buffer offset := by
  simp only [findText_succ h, probeText, if_neg (Nat.not_lt_of_lt h)]
  cases Pattern.match? flags pattern (buffer.drop offset) <;> rfl

/-- **A search for a pattern finds the first position in reach at which it stands.** A wider search finds
the same there, and a search that reaches no further than the offset is a comparison. -/
theorem search_finds_first (hoffset : entry.offset.resolve parentStop = some offset)
    (htype : entry.type = .search range flags) (htest : entry.test = .text .equal pattern)
    (buffer : List UInt8) :
    ((entry.probe buffer parentStop).isSome ↔ ∃ start, Tried buffer offset range.toNat start ∧
      (Pattern.match? flags pattern (buffer.drop start)).isSome) ∧
    (∀ found, entry.probe buffer parentStop = some found ↔
      ∃ start count, FirstAt flags pattern buffer offset range.toNat start count ∧
        start + count ≤ buffer.length ∧
        found = ⟨start + count, .bytes ((buffer.drop start).take count)⟩) ∧
    (∀ wider found, range ≤ wider → entry.probe buffer parentStop = some found →
      { entry with type := .search wider flags }.probe buffer parentStop = some found) ∧
    (offset < buffer.length →
      { entry with type := .search 1 flags }.probe buffer parentStop =
        { entry with type := .text flags }.probe buffer parentStop) := by
  have hprobe : ∀ range, { entry with type := .search range flags }.probe buffer parentStop =
      findText flags pattern range.toNat (buffer.drop offset) offset := fun range =>
    Entry.probe_search hoffset rfl htest TextOp.noConfusion
  have hself : entry.probe buffer parentStop = _ :=
    Entry.probe_search hoffset htype htest TextOp.noConfusion
  have hfinds := finds_findText flags pattern buffer offset range.toNat
  refine ⟨?_, ?_, ?_, ?_⟩
  · rw [hself]
    exact hfinds.isSome_iff
  · intro found
    rw [hself, hfinds.eq_some_iff]
    constructor
    · rintro ⟨start, count, hfirst, rfl⟩
      have hinside := Nat.le_of_lt hfirst.tried.inside
      exact ⟨start, count, hfirst, Pattern.add_le_of_match? hinside hfirst.stands, rfl⟩
    · rintro ⟨start, count, hfirst, -, rfl⟩
      exact ⟨start, count, hfirst, rfl⟩
  · intro wider found hle hfound
    rw [hself, hfinds.eq_some_iff] at hfound
    obtain ⟨start, count, hfirst, rfl⟩ := hfound
    rw [hprobe, (finds_findText flags pattern buffer offset wider.toNat).eq_some_iff]
    exact ⟨start, count, hfirst.widen (UInt64.le_iff_toNat_le.1 hle), rfl⟩
  · intro hinside
    have htext : { entry with type := .text flags }.probe buffer parentStop =
        probeText flags .equal pattern buffer offset := Entry.probe_text hoffset rfl htest
    rw [hprobe, htext]
    exact findText_one hinside

/-- The pattern stands twice in reach of the wider search, and once in reach of the other. -/
theorem search_finds_first_twice :
    ∃ (entry : Entry) (buffer : List UInt8), entry.offset.resolve 0 = some 1 ∧
      entry.type = .search 3 { ignoreCase := true } ∧ entry.test = .text .equal [0x61, 0x62] ∧
      buffer = [0x2E, 0x2E, 0x2E, 0x41, 0x62, 0x61, 0x62] ∧
      FirstAt { ignoreCase := true } [0x61, 0x62] buffer 1 3 3 2 ∧
      entry.probe buffer 0 = some ⟨5, .bytes [0x41, 0x62]⟩ ∧
      { entry with type := .search 200 { ignoreCase := true } }.probe buffer 0 =
        some ⟨5, .bytes [0x41, 0x62]⟩ ∧
      { entry with type := .search 1 { ignoreCase := true } }.probe buffer 0 =
        { entry with type := .text { ignoreCase := true } }.probe buffer 0 := by
  let buffer : List UInt8 := [0x2E, 0x2E, 0x2E, 0x41, 0x62, 0x61, 0x62]
  let entry : Entry :=
    { level := 1, line := 2, offset := .relative 1, type := .search 3 { ignoreCase := true },
      test := .text .equal [0x61, 0x62], message := "", mime := none, adjustment := none }
  have hoffset : entry.offset.resolve 0 = some 1 := by decide
  obtain ⟨-, hfound, hwider, hone⟩ := search_finds_first hoffset rfl rfl buffer
  have hfirst : FirstAt { ignoreCase := true } [0x61, 0x62] buffer 1 3 3 2 := by
    refine ⟨⟨by decide, by decide, by decide⟩, by decide, ?_⟩
    rintro earlier ⟨hle, -, -⟩ hlt
    obtain rfl | rfl : earlier = 1 ∨ earlier = 2 := by omega
    · decide
    · decide
  have hprobe := (hfound ⟨5, .bytes [0x41, 0x62]⟩).2 ⟨3, 2, hfirst, by decide, rfl⟩
  exact ⟨entry, buffer, hoffset, rfl, rfl, rfl, hfirst, hprobe, hwider 200 _ (by decide) hprobe,
    hone (by decide)⟩

/-- In the buffer, a comparison for difference negates one for equality. -/
theorem isSome_probeText_notEqual (h : offset ≤ buffer.length) :
    (probeText flags .notEqual pattern buffer offset).isSome ↔
      ¬ (probeText flags .equal pattern buffer offset).isSome := by
  simp only [probeText, if_neg (Nat.not_lt_of_le h)]
  cases Pattern.match? flags pattern (buffer.drop offset) <;> simp

/-- **A search compares for equality, whatever its test says.** So a test for difference is met where the
pattern stands at some position in reach and refused where it stands at none, the other way round than by
an entry that only looks at its offset. -/
theorem search_ignores_comparison (hoffset : entry.offset.resolve parentStop = some offset)
    (htype : entry.type = .search range flags) (pattern buffer : List UInt8) :
    (∀ op, op ≠ .any → { entry with test := .text op pattern }.probe buffer parentStop =
      { entry with test := .text .equal pattern }.probe buffer parentStop) ∧
    (({ entry with test := .text .notEqual pattern }.probe buffer parentStop).isSome ↔
      ∃ start, Tried buffer offset range.toNat start ∧
        (Pattern.match? flags pattern (buffer.drop start)).isSome) ∧
    ¬ (({ entry with test := .text .notEqual pattern }.probe buffer parentStop).isSome ↔
      ¬ ({ entry with test := .text .equal pattern }.probe buffer parentStop).isSome) ∧
    (offset ≤ buffer.length →
      (({ entry with type := .text flags, test := .text .notEqual pattern }.probe
          buffer parentStop).isSome ↔
        ¬ ({ entry with type := .text flags, test := .text .equal pattern }.probe
          buffer parentStop).isSome)) := by
  have hprobe : ∀ op, op ≠ .any → { entry with test := .text op pattern }.probe buffer parentStop =
      findText flags pattern range.toNat (buffer.drop offset) offset := fun op hop =>
    Entry.probe_search hoffset htype rfl hop
  have htext : ∀ op, { entry with type := .text flags, test := .text op pattern }.probe
      buffer parentStop = probeText flags op pattern buffer offset := fun op =>
    Entry.probe_text hoffset rfl rfl
  have hequal := hprobe .equal TextOp.noConfusion
  have hdifferent := hprobe .notEqual TextOp.noConfusion
  refine ⟨fun op hop => (hprobe op hop).trans hequal.symm, ?_, ?_, ?_⟩
  · rw [hdifferent]
    exact (finds_findText flags pattern buffer offset range.toNat).isSome_iff
  · rw [hdifferent, hequal]
    exact iff_not_self
  · intro hinside
    rw [htext, htext]
    exact isSome_probeText_notEqual hinside

/-- The pattern stands at the last position in reach, behind the offset. -/
theorem search_ignores_comparison_met :
    ∃ (entry : Entry) (buffer : List UInt8), entry.offset.resolve 2 = some 1 ∧
      entry.type = .search 3 {} ∧ buffer = [0x00, 0x00, 0x00, 0x4D, 0x5A] ∧
      { entry with test := .text .notEqual [0x4D, 0x5A] }.probe buffer 2 =
        some ⟨5, .bytes [0x4D, 0x5A]⟩ ∧
      { entry with test := .text .less [0x4D, 0x5A] }.probe buffer 2 =
        some ⟨5, .bytes [0x4D, 0x5A]⟩ ∧
      ({ entry with type := .text {}, test := .text .notEqual [0x4D, 0x5A] }.probe
        buffer 2).isSome := by
  let entry : Entry :=
    { level := 1, line := 2, offset := .relative (-1), type := .search 3 {},
      test := .text .equal [0x4D, 0x5A], message := "", mime := none, adjustment := none }
  let buffer : List UInt8 := [0x00, 0x00, 0x00, 0x4D, 0x5A]
  have hoffset : entry.offset.resolve 2 = some 1 := by decide
  obtain ⟨hsame, -, -, htext⟩ := search_ignores_comparison hoffset rfl [0x4D, 0x5A] buffer
  have hequal : entry.probe buffer 2 = some ⟨5, .bytes [0x4D, 0x5A]⟩ := by decide
  exact ⟨entry, buffer, hoffset, rfl, rfl, (hsame .notEqual (by decide)).trans hequal,
    (hsame .less (by decide)).trans hequal, (htext (by decide)).2 (by decide)⟩

/-- A test for difference refuses a buffer in which its pattern stands nowhere. -/
theorem search_ignores_comparison_absent :
    ∃ forest, readForest "0 search/4 !MZ not dos\n".toList = .ok forest ∧
      forest.preorder.map (fun entry => (entry.type, entry.test, entry.probe [0x45, 0x4C, 0x46] 0)) =
        [(.search 4 {}, .text .notEqual [0x4D, 0x5A], none)] ∧
      ¬ ∃ start, Tried [0x45, 0x4C, 0x46] 0 4 start ∧
        (Pattern.match? {} [0x4D, 0x5A] ([0x45, 0x4C, 0x46].drop start)).isSome := by
  obtain ⟨forest, hforest, hprobes⟩ := map_eq_ok_iff.1
    (show (readForest "0 search/4 !MZ not dos\n".toList).map (fun forest =>
      forest.preorder.map fun entry => (entry.type, entry.test, entry.probe [0x45, 0x4C, 0x46] 0)) =
        .ok [(.search 4 {}, .text .notEqual [0x4D, 0x5A], none)] by decide +kernel)
  refine ⟨forest, hforest, hprobes, ?_⟩
  rintro ⟨start, ⟨-, -, hinside⟩, hstands⟩
  simp only [List.length_cons, List.length_nil] at hinside
  obtain rfl | rfl | rfl : start = 0 ∨ start = 1 ∨ start = 2 := by omega
  · exact absurd hstands (by decide)
  · exact absurd hstands (by decide)
  · exact absurd hstands (by decide)

end Hallmark.Signature
