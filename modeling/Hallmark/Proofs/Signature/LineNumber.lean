import Hallmark.Proofs.Except
import Hallmark.Signature.Directive

/-!
# `Hallmark/Proofs/Signature/LineNumber.lean` — the line that a refusal names

Every reader below a line is handed the number of the line and writes it into its own refusals, so
that each of them has to write the right one. `NamesLine` says that of one reader, and more: the number
goes nowhere else, so what a reader makes of its argument does not hang on where the argument stands.
It is closed under the ways in which readers are put together, and from there on there is one theorem
for each reader. The reader of entry lines is the only one whose answer keeps the number
(`Entry.read_namesLine`).
-/

set_option autoImplicit false

namespace Hallmark.Signature

variable {α β : Type}

/-- A reader whose refusals name the line it is handed, and which does nothing else with the number. -/
def NamesLine (read : Nat → Except DatabaseError α) : Prop :=
  ∃ answer : Except Reason α, ∀ number, read number = answer.mapError (.line number)

namespace NamesLine

variable {read : Nat → Except DatabaseError α} {number : Nat}

/-- A refusal names the line. -/
theorem eq_line (h : NamesLine read) {error : DatabaseError} (herror : read number = .error error) :
    ∃ reason, error = .line number reason := by
  obtain ⟨answer, hanswer⟩ := h
  cases answer with
  | ok a =>
    rw [hanswer] at herror
    cases herror
  | error reason =>
    rw [hanswer] at herror
    exact ⟨reason, (Except.error.inj herror).symm⟩

/-- What is read on one line is read on any other. -/
theorem eq_ok (h : NamesLine read) {a : α} (hok : read number = .ok a) (other : Nat) :
    read other = .ok a := by
  obtain ⟨answer, hanswer⟩ := h
  cases answer with
  | ok b =>
    rw [hanswer] at hok ⊢
    exact hok
  | error reason =>
    rw [hanswer] at hok
    cases hok

/-! ## How readers are put together -/

theorem ok (a : α) : NamesLine fun _ => .ok a := ⟨.ok a, fun _ => rfl⟩

theorem error (reason : Reason) : NamesLine (α := α) fun number => .error (.line number reason) :=
  ⟨.error reason, fun _ => rfl⟩

theorem mapError (answer : Except Reason α) : NamesLine fun number => answer.mapError (.line number) :=
  ⟨answer, fun _ => rfl⟩

theorem orElse (answer : Option α) (reason : Reason) :
    NamesLine fun number => Signature.orElse answer (.line number reason) := by
  cases answer with
  | none => exact error reason
  | some a => exact ok a

theorem bind {next : Nat → α → Except DatabaseError β} (h : NamesLine read)
    (hnext : ∀ a, NamesLine fun number => next number a) :
    NamesLine fun number => (read number).bind (next number) := by
  obtain ⟨answer, hanswer⟩ := h
  cases answer with
  | error reason => exact ⟨.error reason, fun number => by simp only [hanswer]; rfl⟩
  | ok a =>
    obtain ⟨final, hfinal⟩ := hnext a
    exact ⟨final, fun number => by simp only [hanswer]; exact hfinal number⟩

theorem map (f : α → β) (h : NamesLine read) : NamesLine fun number => (read number).map f := by
  obtain ⟨answer, hanswer⟩ := h
  refine ⟨answer.map f, fun number => ?_⟩
  simp only [hanswer]
  cases answer <;> rfl

theorem foldlM {step : Nat → β → α → Except DatabaseError β}
    (hstep : ∀ b a, NamesLine fun number => step number b a) (start : β) (as : List α) :
    NamesLine fun number => as.foldlM (step number) start := by
  induction as generalizing start with
  | nil => exact ok start
  | cons a as ih => exact bind (hstep start a) ih

end NamesLine

/-! ## The readers -/

theorem Offset.read_namesLine (level : Nat) (token : List Char) :
    NamesLine fun number => Offset.read number level token := by
  unfold Offset.read
  split
  · exact .error _
  · split
    · exact .error _
    · exact .map _ (.orElse _ _)
  · exact .map _ (.orElse _ _)

theorem PatternFlags.set_namesLine (flags : PatternFlags) (letter : Char) :
    NamesLine fun number => PatternFlags.set number flags letter := by
  unfold PatternFlags.set
  split
  all_goals first | exact .ok _ | exact .error _

theorem Modifiers.addPart_namesLine (modifiers : Modifiers) (part : List Char) :
    NamesLine fun number => Modifiers.addPart number modifiers part := by
  unfold Modifiers.addPart
  split
  · exact .ok _
  · split
    · exact .map _ (.orElse _ _)
    · exact .map _ (.foldlM PatternFlags.set_namesLine _ _)

theorem ValueType.ofText_namesLine (name : List Char) (parts : List (List Char)) :
    NamesLine fun number => ValueType.ofText number name parts := by
  refine .bind (.foldlM Modifiers.addPart_namesLine _ _) fun modifiers => ?_
  split
  · exact .ok _
  · exact .map _ (.orElse _ _)
  · exact .error _

theorem ValueType.named_namesLine (name : List Char) (parts : List (List Char))
    (mask : Option UInt64) : NamesLine fun number => ValueType.named number name parts mask := by
  unfold ValueType.named
  split
  · split
    · exact .ok _
    · exact .error _
  · split
    · exact .error _
    · exact ValueType.ofText_namesLine name parts

theorem ValueType.read_namesLine (token : List Char) :
    NamesLine fun number => ValueType.read number token := by
  unfold ValueType.read
  split
  · refine .bind (.map _ (.orElse _ _)) fun (base, mask) => ?_
    simp only
    split <;> exact ValueType.named_namesLine _ _ mask
  · refine .bind (.ok _) fun (base, mask) => ?_
    simp only
    split <;> exact ValueType.named_namesLine _ _ mask

theorem Test.readNumber_namesLine (width : Nat) (token : List Char) :
    NamesLine fun number => Test.readNumber number width token := by
  unfold Test.readNumber
  split
  · exact .ok _
  · exact .map _ (.orElse _ _)

theorem Test.readText_namesLine (token : List Char) :
    NamesLine fun number => Test.readText number token := by
  unfold Test.readText
  split
  · exact .ok _
  · refine .bind (.mapError _) fun pattern => ?_
    split
    · exact .error _
    · exact .ok _

theorem Test.read_namesLine (type : ValueType) (token : List Char) :
    NamesLine fun number => Test.read number type token := by
  unfold Test.read
  split
  · exact Test.readNumber_namesLine _ token
  all_goals exact Test.readText_namesLine token

theorem Adjustment.read_namesLine (argument : List Char) :
    NamesLine fun number => Adjustment.read number argument := by
  unfold Adjustment.read
  split
  · exact .error _
  · exact .bind (.orElse _ _) fun amount => .orElse _ _

theorem Directive.read_namesLine (directive : List Char) :
    NamesLine fun number => Directive.read number directive := by
  unfold Directive.read
  generalize Directive.parts directive = parts
  simp only
  split
  · split
    · exact .error _
    · exact .ok _
  · exact .map _ (Adjustment.read_namesLine _)
  · exact .ok _

/-! ## Entry lines -/

/-- An entry that stands on another line. -/
def Entry.numbered (number : Nat) (entry : Entry) : Entry := { entry with line := number }

/-- Apart from the number that the entry keeps, what an entry line is read as does not hang on where it
stands. -/
theorem Entry.read_namesLine (line : List Char) :
    NamesLine fun number => (Entry.read number line).map (Entry.numbered 0) := by
  simp only [Entry.read, map_bind]
  refine .bind (.orElse _ _) fun (offsetToken, _) => .bind (.orElse _ _) fun (typeToken, _) =>
    .bind (.orElse _ _) fun (testToken, rest) =>
    .bind (Offset.read_namesLine _ offsetToken) fun offset =>
    .bind (ValueType.read_namesLine typeToken) fun type =>
    .bind (Test.read_namesLine type testToken) fun test => ?_
  simp only [pure, Except.pure, Except.map, Entry.numbered]
  exact .ok _

/-- An entry line that is refused is refused by its own line. -/
theorem Entry.eq_line_of_read {number : Nat} {line : List Char} {error : DatabaseError}
    (h : Entry.read number line = .error error) : ∃ reason, error = .line number reason :=
  (Entry.read_namesLine line).eq_line (map_eq_error_iff.2 h)

end Hallmark.Signature
