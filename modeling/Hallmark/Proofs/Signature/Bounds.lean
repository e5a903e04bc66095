import Hallmark.Proofs.Signature.Description
import Hallmark.Proofs.Signature.Search

/-!
# `Hallmark/Proofs/Signature/Bounds.lean` — where matches lie

A match lies in the buffer, from the offset of its entry on, and so do the bytes that it found
(`Match.LiesIn`). Each kind of test has its own reason: a number is read only where all its bytes are, a
pattern takes no more than there is, and printable text stands at the front of what is left. Whatever
stands below an entry is therefore tested from a position of the buffer. Main statements:
`Entry.liesIn_probe`, `stop_le_of_matchAlong?`.
-/

set_option autoImplicit false

namespace Hallmark.Signature

variable {flags : PatternFlags} {pattern buffer : List UInt8} {offset : Nat} {found : Match}

/-- The match, and the bytes that it found, lie in the buffer from an offset on. -/
structure Match.LiesIn (found : Match) (buffer : List UInt8) (offset : Nat) : Prop where
  offset_le : offset ≤ found.stop
  stop_le : found.stop ≤ buffer.length
  bytes : ∀ data, found.value = .bytes data → ∃ start, offset ≤ start ∧
    start + data.length = found.stop ∧ data = (buffer.drop start).take data.length

theorem liesIn_printed (h : offset ≤ buffer.length) :
    (Match.printed (buffer.drop offset) offset).LiesIn buffer offset := by
  have hprefix := printable_prefix (buffer.drop offset)
  have hle := hprefix.length_le
  rw [List.length_drop] at hle
  refine ⟨Nat.le_add_right _ _, ?_, ?_⟩
  · simp only [Match.printed]
    omega
  · rintro data hdata
    obtain rfl := MatchValue.bytes.inj hdata
    exact ⟨offset, Nat.le_refl _, rfl, List.prefix_iff_eq_take.1 hprefix⟩

theorem liesIn_taken {start count : Nat} (h : offset ≤ start)
    (hstop : start + count ≤ buffer.length) :
    (Match.taken (buffer.drop start) start count).LiesIn buffer offset := by
  have hlength : ((buffer.drop start).take count).length = count := by
    rw [List.length_take, List.length_drop]
    omega
  refine ⟨Nat.le_add_right_of_le h, hstop, ?_⟩
  rintro data hdata
  obtain rfl := MatchValue.bytes.inj hdata
  exact ⟨start, h, by rw [hlength]; rfl, by rw [hlength]⟩

theorem liesIn_probeNumber {format : NumberFormat} {op : NumberOp} {expected : UInt64}
    (h : probeNumber format op expected buffer offset = some found) :
    found.LiesIn buffer offset := by
  simp only [probeNumber, Option.ite_none_right_eq_some, Option.some.injEq] at h
  obtain ⟨hle, -, rfl⟩ := h
  exact ⟨Nat.le_add_right _ _, hle, fun data hdata => MatchValue.noConfusion hdata⟩

theorem liesIn_probeText {op : TextOp}
    (h : probeText flags op pattern buffer offset = some found) : found.LiesIn buffer offset := by
  rw [probeText, Option.ite_none_left_eq_some] at h
  obtain ⟨hle, h⟩ := h
  have hprinted := liesIn_printed (Nat.le_of_not_lt hle)
  cases op with
  | any => exact Option.some.inj h ▸ hprinted
  | equal =>
    obtain ⟨count, hmatch, rfl⟩ := Option.map_eq_some_iff.1 h
    exact liesIn_taken (Nat.le_refl _) (Pattern.add_le_of_match? (Nat.le_of_not_lt hle) hmatch)
  | notEqual | less | greater =>
    obtain ⟨-, hfound⟩ := Option.ite_none_right_eq_some.1 h
    exact Option.some.inj hfound ▸ hprinted

theorem liesIn_findText {range : Nat}
    (h : findText flags pattern range (buffer.drop offset) offset = some found) :
    found.LiesIn buffer offset := by
  obtain ⟨start, count, hfirst, rfl⟩ :=
    ((finds_findText flags pattern buffer offset range).eq_some_iff found).1 h
  have hinside := Nat.le_of_lt hfirst.tried.inside
  exact liesIn_taken hfirst.tried.offset_le (Pattern.add_le_of_match? hinside hfirst.stands)

/-- **What an entry finds lies in the buffer, from its offset on.** -/
theorem Entry.liesIn_probe {entry : Entry} {parentStop : Nat}
    (h : entry.probe buffer parentStop = some found) :
    ∃ offset, entry.offset.resolve parentStop = some offset ∧ found.LiesIn buffer offset := by
  unfold Entry.probe at h
  cases hoffset : entry.offset.resolve parentStop with
  | none => simp [hoffset] at h
  | some offset =>
    refine ⟨offset, rfl, ?_⟩
    simp only [hoffset] at h
    split at h
    · exact liesIn_probeNumber h
    · exact liesIn_probeText h
    · exact liesIn_probeText h
    · exact liesIn_findText h
    · cases h

/-- **Below other entries, however many, a match ends in the buffer.** -/
theorem stop_le_of_matchAlong? {above : List Entry} {entry : Entry}
    (h : matchAlong? buffer above entry = some found) : found.stop ≤ buffer.length := by
  have hprobe : ∃ parentStop, entry.probe buffer parentStop = some found := by
    cases above with
    | nil => exact ⟨0, h⟩
    | cons parent above =>
      obtain ⟨last, -, hlast⟩ := Option.bind_eq_some_iff.1 h
      exact ⟨last.stop, hlast⟩
  obtain ⟨parentStop, hprobe⟩ := hprobe
  obtain ⟨offset, -, hlies⟩ := entry.liesIn_probe hprobe
  exact hlies.stop_le

end Hallmark.Signature
