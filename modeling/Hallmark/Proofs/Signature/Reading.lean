import Hallmark.Proofs.Except
import Hallmark.Proofs.Forest.RightEdge
import Hallmark.Proofs.Signature.LineNumber
import Hallmark.Signature.Reader

/-!
# `Hallmark/Proofs/Signature/Reading.lean` — what each line does

A line is an entry line, a directive line, or says nothing, and one equation for each kind says what
reading it does (`Draft.addLine_entry`, `Draft.addLine_directive`, `Draft.addLine_silent`). What holds
at the start and is kept by every line that is read holds after the whole text
(`Draft.addLines_invariant`); a text that is refused is refused at one line
(`Draft.addLines_eq_error_iff`), and the error names it (`Draft.eq_line_of_addLine`).

Of every draft it is true that the last entry read stands at the end of the right edge (`Draft.Grown`).
That is why a directive always finds its entry, and why only the level of the last entry line decides
whether an entry finds its parent.
-/

set_option autoImplicit false

namespace Hallmark.Signature

open Forest

/-! ## The kinds of lines -/

/-- What a directive line says after `!:`. -/
def directiveOf? (raw : List Char) : Option (List Char) :=
  Text.stripStart? ['!', ':'] (Text.trimStart raw)

theorem directiveOf?_eq_some_iff {raw directive : List Char} :
    directiveOf? raw = some directive ↔ Text.trimStart raw = '!' :: ':' :: directive :=
  Text.stripStart?_eq_some_iff

/-- A line that adds an entry: apart from the blanks in front it is not empty, and neither a comment
nor a directive. -/
def isEntryLine (raw : List Char) : Bool :=
  let line := Text.trimStart raw
  !line.isEmpty && line.head? != some '#' && (directiveOf? raw).isNone

theorem isEntryLine_of_directive {raw directive : List Char}
    (h : directiveOf? raw = some directive) : isEntryLine raw = false := by
  simp [isEntryLine, h]

theorem directiveOf?_eq_none {raw : List Char} (h : isEntryLine raw = true) :
    directiveOf? raw = none := by
  simp only [isEntryLine, Bool.and_eq_true, Option.isNone_iff_eq_none] at h
  exact h.2

/-! ## The step of each kind -/

variable {draft next : Draft} {number : Nat} {raw : List Char}

theorem Draft.addLine_silent (draft : Draft) (number : Nat) (he : isEntryLine raw = false)
    (hd : directiveOf? raw = none) : draft.addLine number raw = .ok draft := by
  unfold addLine
  split
  · rfl
  · rfl
  · next directive h =>
    rw [directiveOf?_eq_some_iff.2 h] at hd
    exact absurd hd (by simp)
  · next hnil hcomment hdirective =>
    -- Whatever is none of these is an entry line.
    have hline : isEntryLine raw = true := by
      cases h : Text.trimStart raw with
      | nil => exact absurd h hnil
      | cons c cs =>
        have hc : c ≠ '#' := fun e => hcomment cs (e ▸ h)
        simp [isEntryLine, h, hd, hc]
    exact absurd hline (by simp [he])

theorem Draft.addLine_directive (draft : Draft) (number : Nat) {directive : List Char}
    (hd : directiveOf? raw = some directive) :
    draft.addLine number raw =
      match draft.lastLevel with
      | none => .error (.line number .orphanDirective)
      | some level =>
        match draft.forest.lastAt? level with
        | none => .error (.line number .orphanDirective)
        | some _ =>
          (Directive.read number directive).map fun d =>
            { draft with forest := draft.forest.mapLastAt d.apply level } := by
  rw [addLine, directiveOf?_eq_some_iff.1 hd]
  rfl

theorem Draft.addLine_entry (draft : Draft) (number : Nat) (he : isEntryLine raw = true) :
    draft.addLine number raw =
      (Entry.read number (Text.trimStart raw)).bind fun entry =>
        (orElse (draft.forest.attach? entry entry.level)
          (.line number (.noParent entry.level))).map fun forest =>
            { forest := forest, lastLevel := some entry.level } := by
  unfold addLine
  split
  · next h => simp [isEntryLine, h] at he
  · next h => simp [isEntryLine, h] at he
  · next directive h => simp [isEntryLine, directiveOf?_eq_some_iff.2 h] at he
  · rfl

/-! ## Entry lines -/

theorem orElse_eq_ok_iff {α : Type} {answer : Option α} {error : DatabaseError} {a : α} :
    orElse answer error = .ok a ↔ answer = some a := by
  cases answer <;> simp [orElse]

/-- An entry line is read if its three tokens are there and each of them is read. -/
theorem Entry.read_eq_ok_iff {line : List Char} {entry : Entry} :
    Entry.read number line = .ok entry ↔
      ∃ offsetToken typeToken testToken rest₁ rest₂ rest₃,
        Token.next? (line.drop (line.takeWhile (· == '>')).length) = some (offsetToken, rest₁) ∧
        Token.next? rest₁ = some (typeToken, rest₂) ∧
        Token.next? rest₂ = some (testToken, rest₃) ∧
        Offset.read number (line.takeWhile (· == '>')).length offsetToken = .ok entry.offset ∧
        ValueType.read number typeToken = .ok entry.type ∧
        Test.read number entry.type testToken = .ok entry.test ∧
        entry.level = (line.takeWhile (· == '>')).length ∧ entry.line = number ∧
        entry.message = String.ofList (Text.trim rest₃) ∧
        entry.mime = none ∧ entry.adjustment = none := by
  constructor
  · intro h
    obtain ⟨⟨offsetToken, rest₁⟩, h₁, h⟩ := bind_eq_ok_iff.1 h
    obtain ⟨⟨typeToken, rest₂⟩, h₂, h⟩ := bind_eq_ok_iff.1 h
    obtain ⟨⟨testToken, rest₃⟩, h₃, h⟩ := bind_eq_ok_iff.1 h
    obtain ⟨offset, hoffset, h⟩ := bind_eq_ok_iff.1 h
    obtain ⟨type, htype, h⟩ := bind_eq_ok_iff.1 h
    obtain ⟨test, htest, h⟩ := bind_eq_ok_iff.1 h
    cases h
    exact ⟨offsetToken, typeToken, testToken, rest₁, rest₂, rest₃, orElse_eq_ok_iff.1 h₁,
      orElse_eq_ok_iff.1 h₂, orElse_eq_ok_iff.1 h₃, hoffset, htype, htest, rfl, rfl, rfl, rfl, rfl⟩
  · rintro ⟨offsetToken, typeToken, testToken, rest₁, rest₂, rest₃, h₁, h₂, h₃, hoffset, htype, htest,
      hlevel, hline, hmessage, hmime, hadjustment⟩
    simp only [Entry.read, h₁, h₂, h₃, orElse, bind, Except.bind, hoffset, htype, htest]
    cases entry
    simp_all [pure, Except.pure]

/-- An entry line gives its entry the level and the number of the line, and no more than the line says. -/
theorem Entry.fields_of_read {line : List Char} {entry : Entry}
    (h : Entry.read number line = .ok entry) :
    entry.level = (line.takeWhile (· == '>')).length ∧ entry.line = number ∧ entry.mime = none ∧
      entry.adjustment = none := by
  obtain ⟨-, -, -, -, -, -, -, -, -, -, -, -, hlevel, hline, -, hmime, hadjustment⟩ :=
    Entry.read_eq_ok_iff.1 h
  exact ⟨hlevel, hline, hmime, hadjustment⟩

/-- An entry without what directives said about it. -/
def Entry.bare (entry : Entry) : Entry := { entry with mime := none, adjustment := none }

/-- What an entry line says does not hang on where it stands. -/
theorem Entry.read_numbered {line : List Char} {entry : Entry} (other : Nat)
    (h : Entry.read number line = .ok entry) : Entry.read other line = .ok (entry.numbered other) := by
  have hread := (Entry.read_namesLine line).eq_ok (map_eq_ok_iff.2 ⟨entry, h, rfl⟩) other
  obtain ⟨moved, hmoved, hsame⟩ := map_eq_ok_iff.1 hread
  -- They are the same up to the number, and each keeps the number of its own line.
  have heq : moved = entry.numbered other := by
    have hmoves := congrArg (Entry.numbered moved.line) hsame
    rw [← (Entry.fields_of_read hmoved).2.1]
    exact hmoves
  rw [hmoved, heq]

@[simp] theorem Directive.bare_apply (directive : Directive) (entry : Entry) :
    (directive.apply entry).bare = entry.bare := by
  cases directive <;> rfl

/-! ## Drafts -/

/-- Nothing has been read, or the last entry read stands at the end of the right edge. -/
inductive Draft.Grown : Draft → Prop where
  | start : Grown {}
  | entry (forest : Forest Entry) (last : Entry) (reach : last.level ≤ forest.edge.length) :
      Grown { forest := forest.graft last.level (leaf last), lastLevel := some last.level }

/-- How deep the next entry can stand: the last entry can be its parent, and so can all above it. -/
def Draft.reach (draft : Draft) : Nat := draft.lastLevel.elim 0 (· + 1)

theorem Draft.Grown.length_edge (h : draft.Grown) : draft.forest.edge.length = draft.reach := by
  cases h with
  | start => rfl
  | entry forest last hle =>
    simp only [leaf, edge_graft _ _ _ hle, List.length_append, List.length_take, Draft.reach]
    simp only [edge_grow_empty, edge_empty, List.length_singleton, Option.elim_some]
    omega

@[simp] theorem Directive.level_apply (directive : Directive) (entry : Entry) :
    (directive.apply entry).level = entry.level := by
  cases directive <;> rfl

/-- The entry of an entry line is attached where the right edge reaches its level. -/
theorem Draft.addLine_attached (he : isEntryLine raw = true) {entry : Entry}
    (hr : Entry.read number (Text.trimStart raw) = .ok entry)
    (hle : entry.level ≤ draft.forest.edge.length) :
    draft.addLine number raw =
      .ok ⟨draft.forest.graft entry.level (leaf entry), some entry.level⟩ := by
  have hattach : draft.forest.attach? entry entry.level =
      some (draft.forest.graft entry.level (leaf entry)) := attach?_eq_some_iff.2 ⟨hle, rfl⟩
  rw [Draft.addLine_entry draft number he, hr]
  simp [Except.bind, hattach, orElse, Except.map]

/-- Where an entry line finds no parent it is refused; elsewhere its entry is attached. -/
theorem Draft.Grown.addLine_entry (h : draft.Grown) (he : isEntryLine raw = true) {entry : Entry}
    (hr : Entry.read number (Text.trimStart raw) = .ok entry) :
    draft.addLine number raw =
      if entry.level ≤ draft.reach then
        .ok { forest := draft.forest.graft entry.level (leaf entry), lastLevel := some entry.level }
      else .error (.line number (.noParent entry.level)) := by
  by_cases hle : entry.level ≤ draft.reach
  · rw [if_pos hle]
    exact Draft.addLine_attached he hr (h.length_edge ▸ hle)
  · have hattach : draft.forest.attach? entry entry.level = none :=
      attach?_eq_none_iff.2 (h.length_edge ▸ Nat.lt_of_not_le hle)
    rw [if_neg hle, Draft.addLine_entry draft number he, hr]
    simp [Except.bind, hattach, orElse, Except.map]

/-- A directive changes the entry that was read last. -/
theorem Draft.addLine_directive_last {forest : Forest Entry} {last : Entry} {directive : List Char}
    (hle : last.level ≤ forest.edge.length) (hd : directiveOf? raw = some directive) :
    Draft.addLine ⟨forest.graft last.level (leaf last), some last.level⟩ number raw =
      (Directive.read number directive).map fun d =>
        ⟨forest.graft last.level (leaf (d.apply last)), some last.level⟩ := by
  rw [Draft.addLine_directive _ number hd]
  simp only [lastAt?_graft_leaf _ hle, mapLastAt_graft_leaf _ _ hle]

/-- What a line that is read does to a grown draft. -/
inductive Draft.Step (number : Nat) (raw : List Char) : Draft → Draft → Prop where
  | silent (draft : Draft) (he : isEntryLine raw = false) (hd : directiveOf? raw = none) :
      Step number raw draft draft
  | directive (forest : Forest Entry) (last : Entry) {text : List Char} (directive : Directive)
      (reach : last.level ≤ forest.edge.length) (hd : directiveOf? raw = some text)
      (hr : Directive.read number text = .ok directive) :
      Step number raw ⟨forest.graft last.level (leaf last), some last.level⟩
        ⟨forest.graft last.level (leaf (directive.apply last)), some last.level⟩
  | entry (draft : Draft) (entry : Entry) (he : isEntryLine raw = true)
      (hr : Entry.read number (Text.trimStart raw) = .ok entry)
      (reach : entry.level ≤ draft.forest.edge.length) (hle : entry.level ≤ draft.reach) :
      Step number raw draft ⟨draft.forest.graft entry.level (leaf entry), some entry.level⟩

theorem Draft.Grown.step (h : draft.Grown) (hn : draft.addLine number raw = .ok next) :
    Draft.Step number raw draft next := by
  cases hd : directiveOf? raw with
  | some text =>
    cases h with
    | start =>
      rw [Draft.addLine_directive _ number hd] at hn
      simp at hn
    | entry forest last hle =>
      rw [Draft.addLine_directive_last hle hd] at hn
      obtain ⟨d, hr, rfl⟩ := map_eq_ok_iff.1 hn
      exact .directive forest last d hle hd hr
  | none =>
    cases he : isEntryLine raw with
    | false =>
      rw [Draft.addLine_silent draft number he hd] at hn
      cases hn
      exact .silent draft he hd
    | true =>
      obtain ⟨entry, hr, -⟩ := bind_eq_ok_iff.1 ((Draft.addLine_entry draft number he).symm.trans hn)
      rw [h.addLine_entry he hr] at hn
      split at hn
      · next hle =>
        cases hn
        exact .entry draft entry he hr (h.length_edge ▸ hle) hle
      · simp at hn

theorem Draft.Step.grown (h : Draft.Step number raw draft next) (hg : draft.Grown) : next.Grown := by
  cases h with
  | silent => exact hg
  | directive forest last directive hle =>
    have := Draft.Grown.entry forest (directive.apply last) (by simpa using hle)
    simpa using this
  | entry draft entry he hr hle => exact .entry draft.forest entry hle

/-! ## Whole texts -/

/-- What holds before the first line, and is kept by every line that is read, holds after all lines. -/
theorem Draft.addLines_invariant {P : List (List Char) → Draft → Prop} (start : P [] {})
    (keep : ∀ seen draft raw next, P seen draft → draft.Grown →
      Draft.Step (seen.length + 1) raw draft next → P (seen ++ [raw]) next)
    {lines : List (List Char)} {final : Draft} (h : Draft.addLines {} 1 lines = .ok final) :
    P lines final := by
  -- Generalised over what has been read before.
  have run : ∀ rest seen draft, P seen draft → draft.Grown →
      Draft.addLines draft (seen.length + 1) rest = .ok final → P (seen ++ rest) final := by
    intro rest
    induction rest with
    | nil =>
      intro seen draft hp hg h
      cases h
      simpa using hp
    | cons raw rest ih =>
      intro seen draft hp hg h
      rw [Draft.addLines] at h
      cases hl : draft.addLine (seen.length + 1) raw with
      | error error => simp [hl] at h
      | ok next =>
        have hs := hg.step hl
        have hp' := keep seen draft raw next hp hg hs
        have := ih (seen ++ [raw]) next hp' (hs.grown hg) (by simpa [hl] using h)
        simpa using this
  simpa using run lines [] {} start .start h

/-- A change of drafts that goes along with a change of lines, line by line, goes along with the change of
all lines. -/
theorem Draft.addLines_transport {change : Draft → Draft} {rewrite : List Char → List Char}
    {distance : Nat}
    (step : ∀ {number raw draft next}, Draft.Step number raw draft next →
      (change draft).addLine (number + distance) (rewrite raw) = .ok (change next))
    {lines : List (List Char)} {final : Draft} (h : Draft.addLines {} 1 lines = .ok final) :
    (change {}).addLines (1 + distance) (lines.map rewrite) = .ok (change final) := by
  apply addLines_invariant (P := fun seen draft =>
    (change {}).addLines (1 + distance) (seen.map rewrite) = .ok (change draft)) rfl _ h
  intro seen draft raw next hseen _ hs
  have hnumber : 1 + distance + seen.length = seen.length + 1 + distance := by omega
  rw [List.map_append, addLines_append, hseen, List.length_map, hnumber]
  simp [Except.bind, Draft.addLines, step hs]

theorem Draft.grown_of_addLines {lines : List (List Char)} {draft : Draft}
    (h : Draft.addLines {} 1 lines = .ok draft) : draft.Grown :=
  addLines_invariant (P := fun _ => Draft.Grown) .start (fun _ _ _ _ _ hg hs => hs.grown hg) h

/-- A line that is refused is named. -/
theorem Draft.eq_line_of_addLine {error : DatabaseError}
    (h : draft.addLine number raw = .error error) : ∃ reason, error = .line number reason := by
  cases hd : directiveOf? raw with
  | some directive =>
    rw [Draft.addLine_directive draft number hd] at h
    split at h
    · exact ⟨.orphanDirective, (Except.error.inj h).symm⟩
    · split at h
      · exact ⟨.orphanDirective, (Except.error.inj h).symm⟩
      · exact (Directive.read_namesLine directive).eq_line (map_eq_error_iff.1 h)
  | none =>
    cases he : isEntryLine raw with
    | false => simp [Draft.addLine_silent draft number he hd] at h
    | true =>
      rw [Draft.addLine_entry draft number he] at h
      cases hr : Entry.read number (Text.trimStart raw) with
      | error refusal =>
        rw [hr] at h
        exact Except.error.inj h ▸ Entry.eq_line_of_read hr
      | ok entry =>
        rw [hr] at h
        exact (NamesLine.orElse _ (.noParent entry.level)).eq_line (map_eq_error_iff.1 h)

/-- A text is refused at the first of its lines that is refused, and everything before is read. -/
theorem Draft.addLines_eq_error_iff {draft : Draft} {number : Nat} {lines : List (List Char)}
    {error : DatabaseError} :
    draft.addLines number lines = .error error ↔
      ∃ before raw after middle, lines = before ++ raw :: after ∧
        draft.addLines number before = .ok middle ∧
        middle.addLine (number + before.length) raw = .error error := by
  constructor
  · intro h
    induction lines generalizing draft number with
    | nil => simp [Draft.addLines] at h
    | cons line rest ih =>
      rw [Draft.addLines] at h
      cases hl : draft.addLine number line with
      | error refusal =>
        simp only [hl, Except.error.injEq] at h
        exact ⟨[], line, rest, draft, rfl, rfl, h ▸ hl⟩
      | ok next =>
        simp only [hl] at h
        obtain ⟨before, raw, after, middle, rfl, hb, hr⟩ := ih h
        have hn : number + 1 + before.length = number + (line :: before).length := by
          simp only [List.length_cons]
          omega
        exact ⟨line :: before, raw, after, middle, rfl, by simp [Draft.addLines, hl, hb], hn ▸ hr⟩
  · rintro ⟨before, raw, after, middle, rfl, hb, hr⟩
    rw [Draft.addLines_append, hb]
    simp [Except.bind, Draft.addLines, hr]

end Hallmark.Signature
