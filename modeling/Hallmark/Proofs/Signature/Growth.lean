import Hallmark.Proofs.Signature.Rigid

/-!
# `Hallmark/Proofs/Signature/Growth.lean` — more of a file to look at

A buffer is the front of a file, and a longer buffer keeps what was found in a shorter one. A number and a
rigid pattern are read from bytes that do not change. A flexible blank may run on into the new bytes, but
only at the end of the old ones, where nothing was left for the pattern to find. A search may now find the
pattern at an earlier position, which was cut short before; a rigid pattern was not cut short there, since
it had room further back. Only a test for difference can be lost. Main statement:
`probe_of_longer_buffer`.
-/

set_option autoImplicit false

namespace Hallmark.Signature

variable {flags : PatternFlags} {pattern data buffer extra : List UInt8} {offset range : Nat}

/-- Bytes that lie in the buffer stand in the same place of a longer one. -/
theorem take_drop_append {count : Nat} (h : offset + count ≤ buffer.length) (extra : List UInt8) :
    ((buffer ++ extra).drop offset).take count = (buffer.drop offset).take count := by
  have hoffset := Nat.le_of_add_right_le h
  rw [List.drop_append_of_le_length hoffset,
    List.take_append_of_le_length ((le_length_drop_iff hoffset count).2 h)]

/-! ## Patterns -/

theorem CutsInto.append (h : CutsInto flags pattern data) (extra : List UInt8) :
    CutsInto flags pattern (data ++ extra) := by
  obtain ⟨pieces, hpieces, hprefix⟩ := h
  exact ⟨pieces, hpieces, hprefix.trans (List.prefix_append data extra)⟩

/-- A pattern that matches goes on matching; what it takes may grow. -/
theorem Pattern.isSome_match?_append (h : (match? flags pattern data).isSome) (extra : List UInt8) :
    (match? flags pattern (data ++ extra)).isSome := by
  obtain ⟨hspares, hcuts⟩ := isSome_match?_iff.1 h
  exact isSome_match?_iff.2 ⟨hspares, hcuts.append extra⟩

/-- A rigid pattern that has room is not affected by what comes behind. -/
theorem Pattern.match?_append_of_rigid (h : flags.hasFlexibleBlanks = false)
    (hroom : pattern.length ≤ data.length) (extra : List UInt8) :
    match? flags pattern (data ++ extra) = match? flags pattern data := by
  have hroom' : pattern.length ≤ (data ++ extra).length := by
    rw [List.length_append]
    exact Nat.le_add_right_of_le hroom
  simp only [match?_of_rigid h, hroom, hroom', List.take_append_of_le_length hroom]

/-! ## Tests at an offset -/

theorem probeNumber_append {format : NumberFormat} {op : NumberOp} {expected : UInt64} {found : Match}
    (h : probeNumber format op expected buffer offset = some found) (extra : List UInt8) :
    probeNumber format op expected (buffer ++ extra) offset = some found := by
  unfold probeNumber at h ⊢
  obtain ⟨hroom, h⟩ := Option.ite_none_right_eq_some.1 h
  rw [List.length_append, if_pos (Nat.le_add_right_of_le hroom), take_drop_append hroom]
  exact h

theorem isSome_probeText_append {op : TextOp} (hop : op ≠ .notEqual)
    (h : (probeText flags op pattern buffer offset).isSome) (extra : List UInt8) :
    (probeText flags op pattern (buffer ++ extra) offset).isSome := by
  have longer : ∀ {n : Nat}, n ≤ buffer.length → n ≤ (buffer ++ extra).length := by
    intro n hn
    rw [List.length_append]
    exact Nat.le_add_right_of_le hn
  have hoffset : offset ≤ buffer.length :=
    Nat.le_of_not_lt fun hbehind => not_passes_of_lt hbehind op h
  cases op with
  | any => exact passes_any (longer hoffset)
  | notEqual => exact absurd rfl hop
  | equal =>
    rw [isSome_probeText_equal hoffset] at h
    rw [isSome_probeText_equal (longer hoffset), List.drop_append_of_le_length hoffset]
    exact Pattern.isSome_match?_append h extra
  | less =>
    obtain ⟨hroom, hless⟩ := passes_less_iff.1 h
    exact passes_less_iff.2 ⟨longer hroom, by rwa [take_drop_append hroom]⟩
  | greater =>
    obtain ⟨hroom, hgreater⟩ := passes_greater_iff.1 h
    exact passes_greater_iff.2 ⟨longer hroom, by rwa [take_drop_append hroom]⟩

/-! ## Searches -/

theorem Tried.append {start : Nat} (h : Tried buffer offset range start) (extra : List UInt8) :
    Tried (buffer ++ extra) offset range start := by
  refine ⟨h.offset_le, h.lt_range, ?_⟩
  rw [List.length_append]
  exact Nat.lt_add_right extra.length h.inside

theorem isSome_findText_append
    (h : (findText flags pattern range (buffer.drop offset) offset).isSome) (extra : List UInt8) :
    (findText flags pattern range ((buffer ++ extra).drop offset) offset).isSome := by
  obtain ⟨start, htried, hstands⟩ := (finds_findText flags pattern buffer offset range).isSome_iff.1 h
  rw [(finds_findText flags pattern (buffer ++ extra) offset range).isSome_iff]
  refine ⟨start, htried.append extra, ?_⟩
  rw [List.drop_append_of_le_length (Nat.le_of_lt htried.inside)]
  exact Pattern.isSome_match?_append hstands extra

/-- Where a rigid pattern stands first, it does so in a longer buffer: at an earlier position it had room
as well, so it was refused for a byte that is still there. -/
theorem FirstAt.append {start count : Nat} (hrigid : flags.hasFlexibleBlanks = false)
    (h : FirstAt flags pattern buffer offset range start count) (extra : List UInt8) :
    FirstAt flags pattern (buffer ++ extra) offset range start count := by
  have hinside := Nat.le_of_lt h.tried.inside
  have hroom : start + pattern.length ≤ buffer.length := by
    rw [← Pattern.eq_length_of_rigid hrigid h.stands]
    exact Pattern.add_le_of_match? hinside h.stands
  have hsame : ∀ position ≤ start, Pattern.match? flags pattern ((buffer ++ extra).drop position) =
      Pattern.match? flags pattern (buffer.drop position) := by
    intro position hle
    rw [List.drop_append_of_le_length (Nat.le_trans hle hinside)]
    refine Pattern.match?_append_of_rigid hrigid ?_ extra
    rw [List.length_drop]
    omega
  refine ⟨h.tried.append extra, ?_, ?_⟩
  · rw [hsame start (Nat.le_refl start)]
    exact h.stands
  · intro earlier htried hlt
    rw [hsame earlier (Nat.le_of_lt hlt)]
    exact h.first earlier ⟨htried.offset_le, htried.lt_range, Nat.lt_trans hlt h.tried.inside⟩ hlt

theorem taken_drop_append {start count : Nat} (h : start + count ≤ buffer.length)
    (extra : List UInt8) :
    Match.taken ((buffer ++ extra).drop start) start count =
      Match.taken (buffer.drop start) start count := by
  rw [Match.taken, take_drop_append h]
  rfl

theorem findText_append_of_rigid (hrigid : flags.hasFlexibleBlanks = false) {found : Match}
    (h : findText flags pattern range (buffer.drop offset) offset = some found) (extra : List UInt8) :
    findText flags pattern range ((buffer ++ extra).drop offset) offset = some found := by
  rw [(finds_findText flags pattern buffer offset range).eq_some_iff] at h
  obtain ⟨start, count, hfirst, rfl⟩ := h
  rw [(finds_findText flags pattern (buffer ++ extra) offset range).eq_some_iff]
  have hinside := Nat.le_of_lt hfirst.tried.inside
  exact ⟨start, count, hfirst.append hrigid extra,
    (taken_drop_append (Pattern.add_le_of_match? hinside hfirst.stands) extra).symm⟩

theorem probeText_equal_append_of_rigid (hrigid : flags.hasFlexibleBlanks = false) {found : Match}
    (h : probeText flags .equal pattern buffer offset = some found) (extra : List UInt8) :
    probeText flags .equal pattern (buffer ++ extra) offset = some found := by
  rw [probeText, Option.ite_none_left_eq_some] at h
  obtain ⟨hbehind, h⟩ := h
  have hoffset := Nat.le_of_not_lt hbehind
  obtain ⟨count, hmatch, rfl⟩ := Option.map_eq_some_iff.1 h
  have hstop := Pattern.add_le_of_match? hoffset hmatch
  have hroom : pattern.length ≤ (buffer.drop offset).length := by
    rw [← Pattern.eq_length_of_rigid hrigid hmatch]
    exact Pattern.match?_le_length hmatch
  have hmatch' : Pattern.match? flags pattern ((buffer ++ extra).drop offset) = some count := by
    rw [List.drop_append_of_le_length hoffset, Pattern.match?_append_of_rigid hrigid hroom]
    exact hmatch
  rw [probeText, if_neg (by rw [List.length_append]; omega)]
  simp only [hmatch', Option.map_some, taken_drop_append hstop]

/-! ## Entries -/

/-- The entry takes what it compares with byte by byte: it reads a number, or compares a pattern without
flexible blanks for equality. -/
inductive Entry.IsExact (entry : Entry) : Prop where
  | number {format : NumberFormat} (htype : entry.type = .number format) : IsExact entry
  | text {flags : PatternFlags} {pattern : List UInt8} (htype : entry.type = .text flags)
      (htest : entry.test = .text .equal pattern) (hW : flags.compactBlanks = false)
      (hw : flags.optionalBlanks = false) : IsExact entry
  | search {range : UInt64} {flags : PatternFlags} {pattern : List UInt8}
      (htype : entry.type = .search range flags) (htest : entry.test = .text .equal pattern)
      (hW : flags.compactBlanks = false) (hw : flags.optionalBlanks = false) : IsExact entry

variable {entry : Entry} {parentStop : Nat}

theorem Entry.isSome_probe_append (hop : ∀ pattern, entry.test ≠ .text .notEqual pattern)
    (h : (entry.probe buffer parentStop).isSome) (extra : List UInt8) :
    (entry.probe (buffer ++ extra) parentStop).isSome := by
  cases hoffset : entry.offset.resolve parentStop with
  | none => simp [Entry.probe, hoffset] at h
  | some offset =>
    cases htype : entry.type with
    | number format =>
      cases htest : entry.test with
      | text => simp [Entry.probe, hoffset, htype, htest] at h
      | number op value =>
        rw [Entry.probe_number hoffset htype htest] at h ⊢
        obtain ⟨found, hfound⟩ := Option.isSome_iff_exists.1 h
        exact Option.isSome_of_eq_some (probeNumber_append hfound extra)
    | text flags =>
      cases htest : entry.test with
      | number => simp [Entry.probe, hoffset, htype, htest] at h
      | text op pattern =>
        have hne : op ≠ .notEqual := fun heq => hop pattern (heq ▸ htest)
        rw [Entry.probe_text hoffset htype htest] at h ⊢
        exact isSome_probeText_append hne h extra
    | search range flags =>
      cases htest : entry.test with
      | number => simp [Entry.probe, hoffset, htype, htest] at h
      | text op pattern =>
        by_cases hany : op = .any
        · subst hany
          simp only [Entry.probe, hoffset, htype, htest] at h ⊢
          exact isSome_probeText_append TextOp.noConfusion h extra
        · rw [Entry.probe_search hoffset htype htest hany] at h ⊢
          exact isSome_findText_append h extra

theorem Entry.IsExact.probe_append (hexact : entry.IsExact) {found : Match}
    (h : entry.probe buffer parentStop = some found) (extra : List UInt8) :
    entry.probe (buffer ++ extra) parentStop = some found := by
  cases hoffset : entry.offset.resolve parentStop with
  | none => simp [Entry.probe, hoffset] at h
  | some offset =>
    cases hexact with
    | @number format htype =>
      cases htest : entry.test with
      | text => simp [Entry.probe, hoffset, htype, htest] at h
      | number op value =>
        rw [Entry.probe_number hoffset htype htest] at h ⊢
        exact probeNumber_append h extra
    | text htype htest hW hw =>
      rw [Entry.probe_text hoffset htype htest] at h ⊢
      exact probeText_equal_append_of_rigid (PatternFlags.rigid_of hW hw) h extra
    | search htype htest hW hw =>
      rw [Entry.probe_search hoffset htype htest TextOp.noConfusion] at h ⊢
      exact findText_append_of_rigid (PatternFlags.rigid_of hW hw) h extra

/-- **A longer buffer keeps every match but that of a test for difference.** What a number or an equality
without flexible blanks found, it finds in the same place. -/
theorem probe_of_longer_buffer (hop : ∀ pattern, entry.test ≠ .text .notEqual pattern) (parentStop : Nat)
    (buffer extra : List UInt8) :
    ((entry.probe buffer parentStop).isSome → (entry.probe (buffer ++ extra) parentStop).isSome) ∧
    (entry.IsExact → ∀ found, entry.probe buffer parentStop = some found →
      entry.probe (buffer ++ extra) parentStop = some found) := by
  constructor
  · intro h
    exact Entry.isSome_probe_append hop h extra
  · intro hexact found h
    exact hexact.probe_append h extra

/-- An optional blank takes more blanks of the longer buffer; the pattern of a search stands in it twice,
and is found where it stood before. -/
theorem probe_of_longer_buffer_blanks :
    ∃ flexible exact : Entry, flexible.type = .text { optionalBlanks := true } ∧
      flexible.test = .text .equal [0x61, 0x20] ∧
      (∀ pattern, flexible.test ≠ .text .notEqual pattern) ∧
      flexible.probe [0x61, 0x20] 0 = some ⟨2, .bytes [0x61, 0x20]⟩ ∧
      (flexible.probe ([0x61, 0x20] ++ [0x20, 0x62]) 0).isSome ∧
      exact.IsExact ∧ exact.type = .search 9 { ignoreCase := true } ∧
      (∀ pattern, exact.test ≠ .text .notEqual pattern) ∧
      exact.probe [0x78, 0x61, 0x42] 0 = some ⟨3, .bytes [0x61, 0x42]⟩ ∧
      exact.probe ([0x78, 0x61, 0x42] ++ [0x61, 0x62]) 0 = some ⟨3, .bytes [0x61, 0x42]⟩ := by
  let flexible : Entry :=
    { level := 0, line := 1, offset := .absolute 0, type := .text { optionalBlanks := true },
      test := .text .equal [0x61, 0x20], message := "", mime := none, adjustment := none }
  let exact : Entry :=
    { flexible with
      type := .search 9 { ignoreCase := true }, test := .text .equal [0x61, 0x62] }
  have hflexible : ∀ pattern, flexible.test ≠ .text .notEqual pattern := nofun
  have hexact : ∀ pattern, exact.test ≠ .text .notEqual pattern := nofun
  have hmatch : flexible.probe [0x61, 0x20] 0 = some ⟨2, .bytes [0x61, 0x20]⟩ := by decide
  have hfound : exact.probe [0x78, 0x61, 0x42] 0 = some ⟨3, .bytes [0x61, 0x42]⟩ := by decide
  have hisExact : exact.IsExact := .search rfl rfl rfl rfl
  obtain ⟨hkept, -⟩ := probe_of_longer_buffer hflexible 0 [0x61, 0x20] [0x20, 0x62]
  obtain ⟨-, hsame⟩ := probe_of_longer_buffer hexact 0 [0x78, 0x61, 0x42] [0x61, 0x62]
  exact ⟨flexible, exact, rfl, rfl, hflexible, hmatch, hkept (Option.isSome_of_eq_some hmatch),
    hisExact, rfl, hexact, hfound, hsame hisExact _ hfound⟩

end Hallmark.Signature
