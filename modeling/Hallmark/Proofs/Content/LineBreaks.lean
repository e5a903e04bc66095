import Mathlib.Data.List.Sublists
import Hallmark.Content.LineBreaks

/-!
# `Hallmark/Proofs/Content/LineBreaks.lean` — which line breaks occur

Where a break stands can be told from two neighbouring bytes (`LineBreak.Occurs`). Reading from the front
and past both bytes of a pair finds the same kinds (`has_of_iff`). A cut through the text loses breaks, and
there is one way for it to make a new kind (`Occurs.of_append`): it parts a pair, so that its first byte is
a break of its own. A label of text says which kinds there are (`StandsFor`), and no label can be read in
two ways (`standsFor_iff`).
-/

set_option autoImplicit false

namespace Hallmark.Content

/-- A kind of line break. -/
inductive LineBreak where
  | crlf
  | cr
  | lf
deriving DecidableEq, Repr

namespace LineBreak

variable {kind : LineBreak} {b : UInt8} {bs rest : List UInt8}

/-- How a label names the kind. -/
def name : LineBreak → String
  | crlf => "CRLF"
  | cr => "CR"
  | lf => "LF"

/-- A break of the kind stands somewhere in the bytes: a carriage return directly before a line feed is a
pair, any other is a break of its own, and so is a line feed that is not directly behind one. -/
def Occurs (kind : LineBreak) (bs : List UInt8) : Prop :=
  match kind with
  | crlf => ∃ i : Nat, bs[i]? = some 0x0D ∧ bs[i + 1]? = some 0x0A
  | cr => ∃ i : Nat, bs[i]? = some 0x0D ∧ bs[i + 1]? ≠ some 0x0A
  | lf => ∃ i : Nat, bs[i]? = some 0x0A ∧ ∀ j, j + 1 = i → bs[j]? ≠ some 0x0D

theorem forall_iff {P : LineBreak → Prop} : (∀ kind, P kind) ↔ P crlf ∧ P cr ∧ P lf := by
  constructor
  · intro h
    exact ⟨h crlf, h cr, h lf⟩
  · intro ⟨hcrlf, hcr, hlf⟩ kind
    cases kind with
    | crlf => exact hcrlf
    | cr => exact hcr
    | lf => exact hlf

/-! ## One byte more in front -/

/-- A line feed stands first, or behind a byte that is no carriage return. -/
theorem occurs_lf_iff :
    lf.Occurs bs ↔ bs[0]? = some 0x0A ∨ ∃ i : Nat, bs[i + 1]? = some 0x0A ∧ bs[i]? ≠ some 0x0D := by
  show (∃ i : Nat, _) ↔ _
  rw [← Nat.or_exists_add_one]
  simp

theorem not_occurs_nil : ¬ kind.Occurs [] := by
  cases kind <;> simp [Occurs]

/-- Both bytes of a pair are read at once. -/
theorem occurs_pair_iff : kind.Occurs (0x0D :: 0x0A :: rest) ↔ kind = crlf ∨ kind.Occurs rest := by
  cases kind with
  | crlf =>
    simp only [Occurs, true_or, iff_true]
    exact ⟨0, rfl, rfl⟩
  | cr =>
    simp only [Occurs, reduceCtorEq, false_or]
    rw [← Nat.or_exists_add_one, ← Nat.or_exists_add_one]
    simp
  | lf =>
    rw [occurs_lf_iff, occurs_lf_iff, ← Nat.or_exists_add_one, ← Nat.or_exists_add_one]
    simp

theorem occurs_return_iff (h : rest[0]? ≠ some 0x0A) :
    kind.Occurs (0x0D :: rest) ↔ kind = cr ∨ kind.Occurs rest := by
  cases kind with
  | crlf =>
    simp only [Occurs, reduceCtorEq, false_or]
    rw [← Nat.or_exists_add_one]
    simp [h]
  | cr =>
    simp only [Occurs, true_or, iff_true]
    exact ⟨0, rfl, h⟩
  | lf =>
    rw [occurs_lf_iff, occurs_lf_iff, ← Nat.or_exists_add_one]
    simp [h]

theorem occurs_feed_iff : kind.Occurs (0x0A :: rest) ↔ kind = lf ∨ kind.Occurs rest := by
  cases kind with
  | crlf | cr =>
    simp only [Occurs, reduceCtorEq, false_or]
    rw [← Nat.or_exists_add_one]
    simp
  | lf =>
    rw [occurs_lf_iff]
    simp

theorem occurs_cons_iff (hreturn : b ≠ 0x0D) (hfeed : b ≠ 0x0A) :
    kind.Occurs (b :: rest) ↔ kind.Occurs rest := by
  cases kind with
  | crlf | cr =>
    simp only [Occurs]
    rw [← Nat.or_exists_add_one]
    simp [hreturn]
  | lf =>
    rw [occurs_lf_iff, occurs_lf_iff, ← Nat.or_exists_add_one]
    simp [hreturn, hfeed]

/-! ## Cutting -/

/-- The cut between the two parts goes through a pair. -/
def PartsPair (start rest : List UInt8) : Prop :=
  start.getLast? = some 0x0D ∧ rest.head? = some 0x0A

/-- A carriage return at the end is a break of its own. -/
theorem occurs_cr_of_getLast? (h : bs.getLast? = some 0x0D) : cr.Occurs bs := by
  rw [List.getLast?_eq_getElem?] at h
  have hlt := (List.getElem?_eq_some_iff.1 h).1
  refine ⟨bs.length - 1, h, ?_⟩
  rw [List.getElem?_eq_none (by omega)]
  simp

/-- **What occurs in the first part occurs in the whole, but for a carriage return that the cut parts from
its line feed.** -/
theorem Occurs.of_append {start : List UInt8} (h : kind.Occurs start) :
    kind.Occurs (start ++ rest) ∨ kind = cr ∧ PartsPair start rest := by
  have hkeep : ∀ {i : Nat} {x : UInt8}, start[i]? = some x → (start ++ rest)[i]? = some x := by
    intro i x hi
    rw [List.getElem?_append_left (List.getElem?_eq_some_iff.1 hi).1]
    exact hi
  cases kind with
  | crlf =>
    obtain ⟨i, hreturn, hfeed⟩ := h
    exact .inl ⟨i, hkeep hreturn, hkeep hfeed⟩
  | lf =>
    obtain ⟨i, hfeed, hbefore⟩ := h
    refine .inl ⟨i, hkeep hfeed, ?_⟩
    intro j hj
    have hlt := (List.getElem?_eq_some_iff.1 hfeed).1
    rw [List.getElem?_append_left (by omega)]
    exact hbefore j hj
  | cr =>
    obtain ⟨i, hreturn, hbehind⟩ := h
    have hlt := (List.getElem?_eq_some_iff.1 hreturn).1
    by_cases hfeed : (start ++ rest)[i + 1]? = some 0x0A
    · -- The line feed is no byte of the first part, so the cut is right before it.
      have hge : start.length ≤ i + 1 := by
        refine Nat.le_of_not_lt fun hin => hbehind ?_
        rw [List.getElem?_append_left hin] at hfeed
        exact hfeed
      right
      refine ⟨rfl, ?_, ?_⟩
      · rw [List.getLast?_eq_getElem?]
        obtain rfl : i = start.length - 1 := by omega
        exact hreturn
      · rw [List.getElem?_append_right hge] at hfeed
        rw [List.head?_eq_getElem?]
        obtain hzero : i + 1 - start.length = 0 := by omega
        rw [hzero] at hfeed
        exact hfeed
    · exact .inl ⟨i, hkeep hreturn, hfeed⟩

end LineBreak

/-! ## The kinds that are found -/

def LineBreaks.has (breaks : LineBreaks) : LineBreak → Bool
  | .crlf => breaks.crlf
  | .cr => breaks.cr
  | .lf => breaks.lf

/-- **The kinds that are found are those that occur.** -/
theorem LineBreaks.has_of_iff (bs : List UInt8) (kind : LineBreak) :
    (LineBreaks.of bs).has kind = true ↔ kind.Occurs bs := by
  fun_induction LineBreaks.of bs with
  | case1 =>
    cases kind <;> simp [LineBreaks.has, LineBreak.not_occurs_nil]
  | case2 rest found ih =>
    rw [LineBreak.occurs_pair_iff, ← ih]
    cases kind <;> simp [LineBreaks.has, found]
  | case3 rest hne found ih =>
    have hrest : rest[0]? ≠ some 0x0A := by
      cases rest with
      | nil => simp
      | cons b rest => simpa using fun hb => hne rest (by rw [hb])
    rw [LineBreak.occurs_return_iff hrest, ← ih]
    cases kind <;> simp [LineBreaks.has, found]
  | case4 rest found ih =>
    rw [LineBreak.occurs_feed_iff, ← ih]
    cases kind <;> simp [LineBreaks.has, found]
  | case5 b rest hpair hreturn hfeed ih =>
    rw [LineBreak.occurs_cons_iff hreturn hfeed, ← ih]

/-! ## The kinds that a label names -/

/-- The kinds that are found, in the order in which a label names them. -/
def LineBreaks.kinds (breaks : LineBreaks) : List LineBreak := [.crlf, .cr, .lf].filter breaks.has

theorem LineBreaks.kinds_sublist (breaks : LineBreaks) :
    breaks.kinds.Sublist [.crlf, .cr, .lf] := List.filter_sublist

theorem LineBreaks.mem_kinds_iff {breaks : LineBreaks} {kind : LineBreak} :
    kind ∈ breaks.kinds ↔ breaks.has kind = true := by
  rw [LineBreaks.kinds, List.mem_filter]
  cases kind <;> simp

/-- What the label of a text says about its line breaks: nothing, if all of them are line feeds. -/
def remarkOn (kinds : List LineBreak) : String :=
  if kinds = [] then ", with no line terminators"
  else if kinds = [.lf] then ""
  else ", with " ++ ", ".intercalate (kinds.map LineBreak.name) ++ " line terminators"

theorem LineBreaks.remark_eq (breaks : LineBreaks) : breaks.remark = remarkOn breaks.kinds := by
  obtain ⟨crlf, cr, lf⟩ := breaks
  cases crlf <;> cases cr <;> cases lf <;> rfl

theorem LineBreaks.remark_eq_none_iff {breaks : LineBreaks} :
    breaks.remark = ", with no line terminators" ↔ ∀ kind, ¬ breaks.has kind = true := by
  rw [LineBreak.forall_iff]
  obtain ⟨crlf, cr, lf⟩ := breaks
  cases crlf <;> cases cr <;> cases lf <;> decide

theorem LineBreaks.remark_eq_empty_iff {breaks : LineBreaks} :
    breaks.remark = "" ↔ ∀ kind, breaks.has kind = true ↔ kind = .lf := by
  rw [LineBreak.forall_iff]
  obtain ⟨crlf, cr, lf⟩ := breaks
  cases crlf <;> cases cr <;> cases lf <;> decide

/-- The first words of the labels of text. -/
def textLabels : List String := ["ASCII text", "UTF-8 Unicode text"]

/-- The label of a text stands for the kind. -/
def StandsFor (label : String) (kind : LineBreak) : Prop :=
  ∃ front ∈ textLabels, ∃ kinds : List LineBreak, kinds.Sublist [.crlf, .cr, .lf] ∧
    label = front ++ remarkOn kinds ∧ kind ∈ kinds

/-- No label can be read in two ways. -/
theorem eq_of_label_eq : ∀ kinds ∈ List.sublists [LineBreak.crlf, .cr, .lf],
    ∀ others ∈ List.sublists [LineBreak.crlf, .cr, .lf], ∀ front ∈ textLabels,
      ∀ words ∈ textLabels, front ++ remarkOn kinds = words ++ remarkOn others → kinds = others := by
  decide

/-- **The label of a text stands for the kinds that were found, and for no others.** -/
theorem standsFor_iff {front : String} (hfront : front ∈ textLabels) {breaks : LineBreaks}
    {kind : LineBreak} : StandsFor (front ++ breaks.remark) kind ↔ breaks.has kind = true := by
  rw [LineBreaks.remark_eq, ← LineBreaks.mem_kinds_iff]
  constructor
  · intro ⟨words, hwords, kinds, hkinds, hlabel, hkind⟩
    have hsame := eq_of_label_eq breaks.kinds (List.mem_sublists.2 breaks.kinds_sublist) kinds
      (List.mem_sublists.2 hkinds) front hfront words hwords hlabel
    rw [hsame]
    exact hkind
  · intro hkind
    exact ⟨front, hfront, breaks.kinds, breaks.kinds_sublist, rfl, hkind⟩

end Hallmark.Content
