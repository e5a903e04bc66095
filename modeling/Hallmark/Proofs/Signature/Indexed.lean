import Hallmark.Proofs.Number.Checked
import Hallmark.Proofs.Signature.Bounds

/-!
# `Hallmark/Proofs/Signature/Indexed.lean` — testing an entry by positions

The same tests as those of `Signature/Probe.lean`, spelled out as steps on positions in the buffer: each
sum, difference and slice is one that can fault. On a buffer and patterns that fit the memory none of them
does, and the answer is the same. Main statements: `probe_eq`, `describe?_eq`.
-/

set_option autoImplicit false

namespace Hallmark.Signature.Indexed

open Checked
open Text (isBlankByte)

/-! ## Comparing a pattern -/

/-- The first position from here on at which no blank stands. -/
def skipBlanks (buffer : List UInt8) (position : Nat) : Except Fault Nat :=
  if h : position < buffer.length then
    if isBlankByte buffer[position] then do
      let _ ← add position 1
      skipBlanks buffer (position + 1)
    else .ok position
  else .ok position
termination_by buffer.length - position

/-- The position behind what a pattern takes from here on; `none` if it does not match. -/
def comparePattern (flags : PatternFlags) (buffer : List UInt8) :
    (pattern : List UInt8) → (position : Nat) → Except Fault (Option Nat)
  | [], position => .ok (some position)
  | p :: ps, position =>
    if flags.hasFlexibleBlanks && p == 0x20 then do
      let stop ← skipBlanks buffer position
      if stop == position && !flags.optionalBlanks then return none
      comparePattern flags buffer ps stop
    else
      match buffer[position]? with
      | none => .ok none
      | some b =>
        if flags.sameByte p b then do
          let next ← add position 1
          comparePattern flags buffer ps next
        else .ok none

/-- The number of bytes that a pattern takes at a position. -/
def compareAt (flags : PatternFlags) (pattern buffer : List UInt8) (start : Nat) :
    Except Fault (Option Nat) := do
  match ← comparePattern flags buffer pattern start with
  | none => return none
  | some stop => return some (← sub stop start)

section Comparing

variable {flags : PatternFlags} {buffer pattern : List UInt8} {start position : Nat}

theorem skipBlanks_eq (h : Fits buffer) : skipBlanks buffer position =
    .ok (position + ((buffer.drop position).takeWhile isBlankByte).length) := by
  induction hrest : buffer.length - position generalizing position with
  | zero =>
    have hge : buffer.length ≤ position := by omega
    rw [skipBlanks, dif_neg (Nat.not_lt_of_le hge), List.drop_eq_nil_of_le hge]
    rfl
  | succ rest ih =>
    have hlt : position < buffer.length := by omega
    rw [skipBlanks, dif_pos hlt, List.drop_eq_getElem_cons hlt]
    by_cases hb : isBlankByte buffer[position] = true
    · rw [if_pos hb, h.add_eq_of_le hlt, ok_bind, ih (by omega), List.takeWhile_cons_of_pos hb,
        List.length_cons]
      congr 1
      omega
    · rw [if_neg hb, List.takeWhile_cons_of_neg hb]
      rfl

/-- A run of blanks ends in the buffer if it starts there. -/
theorem length_run_le (buffer : List UInt8) (position : Nat) :
    position + ((buffer.drop position).takeWhile isBlankByte).length ≤
      max position buffer.length := by
  have hle : ((buffer.drop position).takeWhile isBlankByte).length ≤ (buffer.drop position).length :=
    (List.takeWhile_sublist _).length_le
  rw [List.length_drop] at hle
  omega

theorem comparePattern_eq (h : Fits buffer) (hposition : position ≤ buffer.length) :
    comparePattern flags buffer pattern position =
      .ok ((Pattern.match? flags pattern (buffer.drop position)).map (position + ·)) := by
  induction pattern generalizing position with
  | nil => rw [comparePattern, Pattern.match?.eq_def]; rfl
  | cons p pattern ih =>
    rw [comparePattern.eq_def, Pattern.match?.eq_def]
    by_cases hp : (flags.hasFlexibleBlanks && p == 0x20) = true
    · have hrun := length_run_le buffer position
      simp only [hp, if_true, skipBlanks_eq h, ok_bind]
      generalize hlength : ((buffer.drop position).takeWhile isBlankByte) = run at hrun ⊢
      have hempty : (position + run.length == position) = run.isEmpty := by
        cases run <;> simp
      rw [hempty]
      by_cases hnone : (run.isEmpty && !flags.optionalBlanks) = true
      · simp only [hnone, if_true]
        rfl
      · simp only [hnone, if_false, Bool.false_eq_true, List.drop_drop]
        rw [ih (by omega)]
        simp [Function.comp_def, Nat.add_assoc]
    · simp only [hp, if_false, Bool.false_eq_true]
      rcases Nat.lt_or_ge position buffer.length with hlt | hge
      · rw [List.getElem?_eq_getElem hlt, List.drop_eq_getElem_cons hlt]
        by_cases hsame : flags.sameByte p buffer[position] = true
        · simp only [hsame, if_true]
          rw [h.add_eq_of_le hlt, ok_bind, ih hlt]
          simp [Function.comp_def, Nat.add_assoc]
        · simp [hsame]
      · rw [List.getElem?_eq_none hge, List.drop_eq_nil_of_le hge]
        rfl

theorem compareAt_eq (h : Fits buffer) (hstart : start ≤ buffer.length) :
    compareAt flags pattern buffer start =
      .ok (Pattern.match? flags pattern (buffer.drop start)) := by
  rw [compareAt, comparePattern_eq h hstart, ok_bind]
  cases Pattern.match? flags pattern (buffer.drop start) with
  | none => rfl
  | some count =>
    simp only [Option.map_some]
    rw [sub_eq (Nat.le_add_right start count), ok_bind, Nat.add_sub_cancel_left]
    rfl

end Comparing

/-! ## Texts -/

/-- The printable text at a position, up to the end of the buffer. -/
def printed (buffer : List UInt8) (offset : Nat) : Except Fault Match := do
  let tail ← slice buffer (min offset buffer.length) buffer.length
  let text ← slice tail 0 (printable tail).length
  return ⟨← add offset text.length, .bytes text⟩

/-- The bytes that a pattern takes at a position. -/
def taken (buffer : List UInt8) (start count : Nat) : Except Fault Match := do
  let stop ← add start count
  return ⟨stop, .bytes (← slice buffer start stop)⟩

/-- What a pattern takes at a position, if it stands there. -/
def takeAt (flags : PatternFlags) (pattern buffer : List UInt8) (start : Nat) :
    Except Fault (Option Match) := do
  match ← compareAt flags pattern buffer start with
  | some count => return some (← taken buffer start count)
  | none => return none

/-- What is printable at a position, if the pattern does not stand there. -/
def differAt (flags : PatternFlags) (pattern buffer : List UInt8) (offset : Nat) :
    Except Fault (Option Match) := do
  match ← compareAt flags pattern buffer offset with
  | some _ => return none
  | none => return some (← printed buffer offset)

/-- What is printable at a position, if there are so many bytes and they are in order. -/
def orderAt (inOrder : List UInt8 → Bool) (buffer : List UInt8) (offset count : Nat) :
    Except Fault (Option Match) := do
  let stop ← add offset count
  match slice? buffer offset stop with
  | some data => if inOrder data then return some (← printed buffer offset) else return none
  | none => return none

def probeInside (flags : PatternFlags) (pattern buffer : List UInt8) (offset : Nat) :
    TextOp → Except Fault (Option Match)
  | .any => do return some (← printed buffer offset)
  | .equal => takeAt flags pattern buffer offset
  | .notEqual => differAt flags pattern buffer offset
  | .less => orderAt (fun data => flags.folded data < flags.folded pattern) buffer offset pattern.length
  | .greater => orderAt (fun data => flags.folded pattern < flags.folded data) buffer offset pattern.length

def probeText (flags : PatternFlags) (op : TextOp) (pattern buffer : List UInt8) (offset : Nat) :
    Except Fault (Option Match) :=
  if buffer.length < offset then .ok none else probeInside flags pattern buffer offset op

/-- Tries so many positions, from one on. -/
def findText (flags : PatternFlags) (pattern buffer : List UInt8) :
    (tries start : Nat) → Except Fault (Option Match)
  | 0, _ => .ok none
  | tries + 1, start => do
    match ← takeAt flags pattern buffer start with
    | some found => return some found
    | none => findText flags pattern buffer tries (start + 1)

/-- Tries the positions in reach. -/
def search (flags : PatternFlags) (range : UInt64) (pattern buffer : List UInt8) (offset : Nat) :
    Except Fault (Option Match) :=
  let last := min (addSaturating offset range.toNat) buffer.length
  findText flags pattern buffer (last - offset) offset

section Texts

variable {flags : PatternFlags} {buffer pattern : List UInt8} {offset start count : Nat}

theorem printed_eq (h : Fits buffer) (hoffset : offset ≤ buffer.length) :
    printed buffer offset = .ok (.printed (buffer.drop offset) offset) := by
  have htail : slice buffer (min offset buffer.length) buffer.length = .ok (buffer.drop offset) := by
    rw [Nat.min_eq_left hoffset, slice_eq hoffset (Nat.le_refl _), ← List.length_drop, List.take_length]
  have hprefix := printable_prefix (buffer.drop offset)
  have hle := hprefix.length_le
  have htext : slice (buffer.drop offset) 0 (printable (buffer.drop offset)).length =
      .ok (printable (buffer.drop offset)) := by
    rw [slice_eq (Nat.zero_le _) hle, List.drop_zero, Nat.sub_zero, ← List.prefix_iff_eq_take.1 hprefix]
  rw [List.length_drop] at hle
  rw [printed, htail, ok_bind, htext, ok_bind, h.add_eq_of_le (by omega), ok_bind]
  rfl

theorem taken_eq (h : Fits buffer) (hstop : start + count ≤ buffer.length) :
    taken buffer start count = .ok (.taken (buffer.drop start) start count) := by
  rw [taken, h.add_eq_of_le hstop, ok_bind, slice_eq (Nat.le_add_right start count) hstop, ok_bind,
    Nat.add_sub_cancel_left]
  rfl

theorem takeAt_eq (h : Fits buffer) (hstart : start ≤ buffer.length) :
    takeAt flags pattern buffer start =
      .ok ((Pattern.match? flags pattern (buffer.drop start)).map (.taken (buffer.drop start) start)) := by
  rw [takeAt, compareAt_eq h hstart, ok_bind]
  cases hmatch : Pattern.match? flags pattern (buffer.drop start) with
  | none => rfl
  | some count =>
    simp only [taken_eq h (Pattern.add_le_of_match? hstart hmatch), ok_bind]
    rfl

theorem differAt_eq (h : Fits buffer) (hoffset : offset ≤ buffer.length) :
    differAt flags pattern buffer offset =
      .ok (if (Pattern.match? flags pattern (buffer.drop offset)).isNone then
        some (.printed (buffer.drop offset) offset) else none) := by
  rw [differAt, compareAt_eq h hoffset, ok_bind]
  cases Pattern.match? flags pattern (buffer.drop offset) with
  | none => simp only [printed_eq h hoffset, ok_bind]; rfl
  | some count => rfl

theorem orderAt_eq (h : Fits buffer) (hpattern : Fits pattern) (hoffset : offset ≤ buffer.length)
    (inOrder : List UInt8 → Bool) :
    orderAt inOrder buffer offset pattern.length =
      .ok (if pattern.length ≤ (buffer.drop offset).length ∧
          inOrder ((buffer.drop offset).take pattern.length) then
        some (.printed (buffer.drop offset) offset) else none) := by
  have hreach : offset + pattern.length ≤ buffer.length ↔
      pattern.length ≤ (buffer.drop offset).length := by
    rw [List.length_drop]
    omega
  rw [orderAt, h.add_eq hpattern hoffset (Nat.le_refl _), ok_bind, slice?, Nat.add_sub_cancel_left]
  simp only [Nat.le_add_right, true_and, hreach]
  by_cases hlong : pattern.length ≤ (buffer.drop offset).length
  · by_cases hin : inOrder ((buffer.drop offset).take pattern.length) = true
    · simp only [hlong, hin, if_true, and_self, printed_eq h hoffset, ok_bind]
      rfl
    · simp only [hlong, hin, if_true, and_false, if_false, Bool.false_eq_true]
      rfl
  · simp only [hlong, if_false, false_and]
    rfl

theorem probeText_eq (h : Fits buffer) (hpattern : Fits pattern) (op : TextOp) :
    probeText flags op pattern buffer offset =
      .ok (Signature.probeText flags op pattern buffer offset) := by
  rw [probeText, Signature.probeText]
  rcases Nat.lt_or_ge buffer.length offset with hlt | hle
  · rw [if_pos hlt, if_pos hlt]
  · rw [if_neg (Nat.not_lt_of_le hle), if_neg (Nat.not_lt_of_le hle)]
    cases op with
    | any => rw [probeInside, printed_eq h hle, ok_bind]; rfl
    | equal => exact takeAt_eq h hle
    | notEqual => exact differAt_eq h hle
    | less =>
      rw [probeInside, orderAt_eq h hpattern hle]
      simp only [decide_eq_true_eq]
    | greater =>
      rw [probeInside, orderAt_eq h hpattern hle]
      simp only [decide_eq_true_eq]

theorem findText_eq (h : Fits buffer) {tries : Nat} (htries : start + tries ≤ buffer.length) :
    findText flags pattern buffer tries start =
      .ok (Signature.findText flags pattern tries (buffer.drop start) start) := by
  induction tries generalizing start with
  | zero => rfl
  | succ tries ih =>
    have hlt : start < buffer.length := by omega
    rw [findText, takeAt_eq h (Nat.le_of_lt hlt), ok_bind, findText_succ hlt]
    cases Pattern.match? flags pattern (buffer.drop start) with
    | some count => rfl
    | none => exact ih (by omega)

/-- No more positions are tried than there are. -/
theorem findText_min (tries : Nat) (data : List UInt8) :
    Signature.findText flags pattern (min tries data.length) data offset =
      Signature.findText flags pattern tries data offset := by
  induction tries generalizing data offset with
  | zero => rw [Nat.zero_min]
  | succ tries ih =>
    cases data with
    | nil => rfl
    | cons b rest => rw [List.length_cons, Nat.succ_min_succ, Signature.findText, Signature.findText, ih]

theorem search_eq (h : Fits buffer) (range : UInt64) :
    search flags range pattern buffer offset =
      .ok (Signature.findText flags pattern range.toNat (buffer.drop offset) offset) := by
  have hlast : min (addSaturating offset range.toNat) buffer.length - offset =
      min range.toNat (buffer.drop offset).length := by
    unfold Fits Number.signedLimit at h
    unfold addSaturating Number.wordLimit
    rw [List.length_drop]
    omega
  rw [search, hlast]
  rcases Nat.lt_or_ge buffer.length offset with hlt | hle
  · rw [List.drop_eq_nil_of_le (Nat.le_of_lt hlt), ← findText_min, List.length_nil, Nat.min_zero]
    rfl
  · rw [findText_eq h (by rw [List.length_drop]; omega), findText_min]

end Texts

/-! ## Numbers -/

/-- How two words are ordered: widened by the sign first, if the type is signed. -/
def orderOf (actual expected : UInt64) (width : Nat) (isSigned : Bool) : Except Fault Ordering :=
  if isSigned then do
    return compare (← signExtend actual width).toInt (← signExtend expected width).toInt
  else .ok (compare actual.toNat expected.toNat)

/-- Compares two words. Their order is found out whether it is asked for or not. -/
def holds (op : NumberOp) (actual expected : UInt64) (width : Nat) (isSigned : Bool) :
    Except Fault Bool := do
  let order ← orderOf actual expected width isSigned
  return match op with
    | .equal => actual == expected
    | .notEqual => actual != expected
    | .less => order.isLT
    | .greater => order.isGT
    | .allSet => (actual &&& expected) == expected
    | .notAllSet => (actual &&& expected) != expected
    | .any => true

def probeNumber (format : NumberFormat) (op : NumberOp) (expected : UInt64) (buffer : List UInt8)
    (offset : Nat) : Except Fault (Option Match) :=
  match (add? offset format.width).bind (slice? buffer offset) with
  | none => .ok none
  | some bytes => do
    let actual := format.word bytes
    let isMatch ← holds op actual expected format.width format.isSigned
    let stop ← add offset format.width
    return if isMatch then some ⟨stop, .number actual format.width⟩ else none

section Numbers

variable {buffer : List UInt8} {offset : Nat}

theorem orderOf_eq (actual expected : UInt64) (width : Nat) (isSigned : Bool) :
    orderOf actual expected width isSigned =
      .ok (compare (ordered actual width isSigned) (ordered expected width isSigned)) := by
  unfold orderOf ordered
  cases isSigned with
  | true =>
    obtain ⟨a, ha, hactual⟩ := signExtend_eq actual width
    obtain ⟨e, he, hexpected⟩ := signExtend_eq expected width
    simp only [if_true, ha, he, ok_bind, hactual, hexpected]
    rfl
  | false =>
    have hwords : compare (actual.toNat : Int) expected.toNat = compare actual.toNat expected.toNat := by
      simp only [compare, compareOfLessAndEq, Int.ofNat_lt, Int.natCast_inj]
    simp only [Bool.false_eq_true, if_false, hwords]

theorem holds_eq (op : NumberOp) (actual expected : UInt64) (width : Nat) (isSigned : Bool) :
    holds op actual expected width isSigned = .ok (op.holds actual expected width isSigned) := by
  rw [holds, orderOf_eq, ok_bind]
  cases op with
  | equal | notEqual | allSet | notAllSet | any => rfl
  | less =>
    have hless : ∀ a b : Int, (compare a b).isLT = decide (a < b) := fun a b => by
      rw [Bool.eq_iff_iff, Ordering.isLT_iff_eq_lt, Int.compare_eq_lt, decide_eq_true_eq]
    simp only [NumberOp.holds, hless]
    rfl
  | greater =>
    have hgreater : ∀ a b : Int, (compare a b).isGT = decide (b < a) := fun a b => by
      rw [Bool.eq_iff_iff, Ordering.isGT_iff_eq_gt, Int.compare_eq_gt, decide_eq_true_eq]
    simp only [NumberOp.holds, hgreater]
    rfl

theorem probeNumber_eq (h : Fits buffer) (format : NumberFormat) (op : NumberOp) (expected : UInt64) :
    probeNumber format op expected buffer offset =
      .ok (Signature.probeNumber format op expected buffer offset) := by
  have hread : (add? offset format.width).bind (slice? buffer offset) =
      if offset + format.width ≤ buffer.length then
        some ((buffer.drop offset).take format.width) else none := by
    unfold Fits Number.signedLimit at h
    unfold add? slice? Number.wordLimit
    by_cases hle : offset + format.width ≤ buffer.length
    · rw [if_pos (by omega), Option.bind_some, if_pos ⟨Nat.le_add_right _ _, hle⟩, if_pos hle,
        Nat.add_sub_cancel_left]
    · rw [if_neg hle]
      split
      · rw [Option.bind_some, if_neg (fun hboth => hle hboth.2)]
      · rfl
  rw [probeNumber, Signature.probeNumber, hread]
  by_cases hle : offset + format.width ≤ buffer.length
  · simp only [if_pos hle, holds_eq, ok_bind, h.add_eq_of_le hle]
    rfl
  · simp only [if_neg hle]

end Numbers

/-! ## Entries -/

/-- The pattern of the test fits the memory, if there is one. -/
def TestFits : Test → Prop
  | .number _ _ => True
  | .text _ pattern => Fits pattern

instance : (test : Test) → Decidable (TestFits test)
  | .number _ _ => inferInstanceAs (Decidable True)
  | .text _ pattern => inferInstanceAs (Decidable (Fits pattern))

def probe (entry : Entry) (buffer : List UInt8) (parentStop : Nat) : Except Fault (Option Match) :=
  match entry.offset.resolve parentStop with
  | none => .ok none
  | some offset =>
    match entry.type, entry.test with
    | .number format, .number op value => probeNumber format op value buffer offset
    | .text flags, .text op pattern => probeText flags op pattern buffer offset
    | .search _ flags, .text .any pattern => probeText flags .any pattern buffer offset
    | .search range flags, .text _ pattern => search flags range pattern buffer offset
    | _, _ => .ok none

def walk (buffer : List UInt8) :
    Forest Entry → (parentStop : Nat) → Description → Except Fault Description
  | .empty, _, description => .ok description
  | .grow root below after, parentStop, description => do
    match ← probe root buffer parentStop with
    | some found =>
      let inside ← walk buffer below found.stop (description.add root found.value)
      walk buffer after parentStop inside
    | none => walk buffer after parentStop description

def describe? (tree : Tree Entry) (buffer : List UInt8) : Except Fault (Option Description) := do
  match ← probe tree.root buffer 0 with
  | some found =>
    return some (← walk buffer tree.below found.stop (Description.add {} tree.root found.value))
  | none => return none

section Entries

variable {buffer : List UInt8}

/-- Testing an entry by positions never faults, and gives the same. -/
theorem probe_eq (h : Fits buffer) {entry : Entry} (htest : TestFits entry.test) (parentStop : Nat) :
    probe entry buffer parentStop = .ok (entry.probe buffer parentStop) := by
  unfold probe Entry.probe
  cases entry.offset.resolve parentStop with
  | none => rfl
  | some offset =>
    cases entry.type with
    | number format =>
      cases ht : entry.test with
      | number op value => exact probeNumber_eq h format op value
      | text op pattern => rfl
    | text flags =>
      cases ht : entry.test with
      | number op value => rfl
      | text op pattern =>
        rw [ht] at htest
        exact probeText_eq h htest op
    | search range flags =>
      cases ht : entry.test with
      | number op value => rfl
      | text op pattern =>
        rw [ht] at htest
        cases op with
        | any => exact probeText_eq h htest .any
        | equal | notEqual | less | greater => exact search_eq h range

/-- The walk below a match never faults, and adds the same. -/
theorem walk_eq (h : Fits buffer) {f : Forest Entry}
    (htests : ∀ entry ∈ f.preorder, TestFits entry.test) (parentStop : Nat) (description : Description) :
    walk buffer f parentStop description = .ok (Description.walk buffer f parentStop description) := by
  induction f generalizing parentStop description with
  | empty => rfl
  | grow root below after ihb iha =>
    simp only [Forest.preorder, List.forall_mem_cons, List.forall_mem_append] at htests
    obtain ⟨hroot, hbelow, hafter⟩ := htests
    rw [walk, Description.walk, probe_eq h hroot, ok_bind]
    cases root.probe buffer parentStop with
    | none => exact iha hafter parentStop description
    | some found =>
      simp only [ihb hbelow, ok_bind]
      exact iha hafter parentStop _

theorem describe?_eq (h : Fits buffer) {tree : Tree Entry}
    (htests : ∀ entry ∈ tree.preorder, TestFits entry.test) :
    describe? tree buffer = .ok (Signature.describe? tree buffer) := by
  rw [Tree.preorder, List.forall_mem_cons] at htests
  rw [describe?, Signature.describe?, probe_eq h htests.1, ok_bind]
  cases tree.root.probe buffer 0 with
  | none => rfl
  | some found =>
    simp only [walk_eq h htests.2, ok_bind]
    rfl

end Entries

end Hallmark.Signature.Indexed

namespace Hallmark.Signature

open Checked (Fits)
open Indexed (TestFits)

/-- **Testing an entry neither leaves the buffer nor overflows a position, wherever its parent's match
ends, and what it finds lies in the buffer from its offset on.** The same holds of a whole signature:
however many entries stand above one, it is tested from a position of the buffer. -/
theorem probe_in_bounds :
    (∀ (entry : Entry) (buffer : List UInt8) (parentStop : Nat), Fits buffer → TestFits entry.test →
      Indexed.probe entry buffer parentStop = .ok (entry.probe buffer parentStop)) ∧
    (∀ (entry : Entry) (buffer : List UInt8) (parentStop : Nat) (found : Match),
      entry.probe buffer parentStop = some found →
      ∃ offset, entry.offset.resolve parentStop = some offset ∧ found.LiesIn buffer offset) ∧
    (∀ (tree : Tree Entry) (buffer : List UInt8), Fits buffer →
      (∀ entry ∈ tree.preorder, TestFits entry.test) →
      Indexed.describe? tree buffer = .ok (describe? tree buffer)) ∧
    ∀ (buffer : List UInt8) (above : List Entry) (entry : Entry) (found : Match),
      matchAlong? buffer above entry = some found → found.stop ≤ buffer.length :=
  ⟨fun _ _ parentStop hbuffer htest => Indexed.probe_eq hbuffer htest parentStop,
    fun entry _ _ _ hfound => entry.liesIn_probe hfound,
    fun _ _ hbuffer htests => Indexed.describe?_eq hbuffer htests,
    fun _ _ _ _ hfound => stop_le_of_matchAlong? hfound⟩

/-- A search of the largest range from before the end of a match, and a number at the last position. -/
theorem probe_in_bounds_extreme :
    ∃ (root child number : Entry) (buffer : List UInt8), Fits buffer ∧
      child.offset = .relative (-1) ∧ child.type = .search 0xFFFFFFFFFFFFFFFF {} ∧
      number.offset = .absolute 0xFFFFFFFFFFFFFFFF ∧
      (∀ entry ∈ [root, child, number], TestFits entry.test) ∧
      Indexed.probe child buffer 2 = .ok (some ⟨3, .bytes [0x43]⟩) ∧
      Match.LiesIn ⟨3, .bytes [0x43]⟩ buffer 1 ∧
      Indexed.probe number buffer 2 = .ok none ∧
      matchAlong? buffer [root] child = some ⟨3, .bytes [0x43]⟩ ∧ 3 ≤ buffer.length ∧
      Indexed.describe? ⟨root, .grow child (.grow number .empty .empty) .empty⟩ buffer =
        .ok (some ⟨"abC".toList, none⟩) := by
  let root : Entry :=
    { level := 0, line := 1, offset := .absolute 0, type := .text { ignoreCase := true },
      test := .text .equal [0x61, 0x62], message := "%s", mime := none, adjustment := none }
  let child : Entry :=
    { level := 1, line := 2, offset := .relative (-1), type := .search 0xFFFFFFFFFFFFFFFF {},
      test := .text .equal [0x43], message := "\\b%s", mime := none, adjustment := none }
  let number : Entry :=
    { level := 2, line := 3, offset := .absolute 0xFFFFFFFFFFFFFFFF,
      type := .number ⟨8, .big, true, none⟩, test := .number .less 0, message := "", mime := none,
      adjustment := none }
  let tree : Tree Entry := ⟨root, .grow child (.grow number .empty .empty) .empty⟩
  let buffer : List UInt8 := [0x61, 0x62, 0x43]
  obtain ⟨hprobe, hlies, hdescribe, hstop⟩ := probe_in_bounds
  have hfits : Fits buffer := by decide
  have htests : ∀ entry ∈ tree.preorder, TestFits entry.test := by decide
  have hfound : child.probe buffer 2 = some ⟨3, .bytes [0x43]⟩ := by decide +kernel
  have hnone : number.probe buffer 2 = none := by decide +kernel
  have halong : matchAlong? buffer [root] child = some ⟨3, .bytes [0x43]⟩ := by decide +kernel
  have hdescribed : describe? tree buffer = some ⟨"abC".toList, none⟩ := by decide +kernel
  obtain ⟨offset, hoffset, hinside⟩ := hlies child buffer 2 _ hfound
  obtain rfl : offset = 1 := Option.some.inj (hoffset.symm.trans (by decide))
  exact ⟨root, child, number, buffer, hfits, rfl, rfl, rfl, htests,
    hfound ▸ hprobe child buffer 2 hfits (by decide), hinside,
    hnone ▸ hprobe number buffer 2 hfits (by decide), halong, hstop buffer [root] child _ halong,
    hdescribed ▸ hdescribe tree buffer hfits htests⟩

end Hallmark.Signature
