import Hallmark.Proofs.Text.Splitting
import Hallmark.Signature.Token

/-!
# `Hallmark/Proofs/Signature/Token.lean` — texts that are one token

A token ends at the first blank that is not escaped. A text that has none, and escapes nothing behind its
end, is passed over whatever follows it (`Token.Passes`): such texts can be put one after the other, and
before a tab they are the whole token (`Token.Stops`). Main statement: `Token.next?_of_stops`.
-/

set_option autoImplicit false

namespace Hallmark.Signature.Token

/-- The text is read up to the tab that follows it. -/
def Stops (text : List Char) : Prop :=
  ∀ rest, run (text ++ '\t' :: rest) = (text, '\t' :: rest)

/-- The token goes on behind the text as if the text were not there. -/
def Passes (text : List Char) : Prop :=
  ∀ rest, run (text ++ rest) = (text ++ (run rest).1, (run rest).2)

variable {text more cs : List Char} {c : Char}

theorem Passes.nil : Passes [] := fun _ => rfl

theorem Passes.append (h : Passes text) (h' : Passes more) : Passes (text ++ more) := by
  intro rest
  rw [List.append_assoc, h, h', List.append_assoc]

/-- A backslash takes the character after it along. -/
theorem Passes.escape (c : Char) : Passes ['\\', c] := by
  intro rest
  rw [List.cons_append, List.singleton_append, run]
  rfl

theorem Passes.char (hescape : c ≠ '\\') (hblank : Text.isAsciiBlank c = false) : Passes [c] :=
  fun rest => run_cons hescape hblank rest

theorem Passes.of_forall (h : ∀ c ∈ text, c ≠ '\\' ∧ Text.isAsciiBlank c = false) : Passes text := by
  induction text with
  | nil => exact .nil
  | cons c cs ih =>
    obtain ⟨⟨hescape, hblank⟩, hcs⟩ := List.forall_mem_cons.1 h
    exact (Passes.char hescape hblank).append (ih hcs)

theorem Passes.stops (h : Passes text) : Stops text := by
  intro rest
  have htab : run ('\t' :: rest) = ([], '\t' :: rest) := rfl
  rw [h, htab, List.append_nil]

/-! ## Plain characters -/

/-- A character that neither ends a token nor escapes another. -/
def isPlain (c : Char) : Bool := !Text.isBlank c && c != '\\'

theorem isBlank_of_isPlain (h : isPlain c = true) : Text.isBlank c = false := by
  simp only [isPlain, Bool.and_eq_true, Bool.not_eq_true'] at h
  exact h.1

theorem Passes.plain (h : ∀ c ∈ text, isPlain c = true) : Passes text := by
  refine .of_forall fun c hc => ⟨?_, ?_⟩
  · rintro rfl
    exact absurd (h _ hc) (by decide)
  · cases ha : Text.isAsciiBlank c with
    | false => rfl
    | true => exact absurd (Text.isBlank_of_isAsciiBlank ha) (by simp [isBlank_of_isPlain (h c hc)])

theorem isPlain_of_isAlphanum {c : Char} (h : c.isAlphanum = true) : isPlain c = true := by
  have hne : c ≠ '\\' := by
    rintro rfl
    exact absurd h (by decide)
  have hrange : (65 ≤ c.toNat ∧ c.toNat ≤ 90 ∨ 97 ≤ c.toNat ∧ c.toNat ≤ 122) ∨
      48 ≤ c.toNat ∧ c.toNat ≤ 57 := by
    unfold Char.isAlphanum Char.isAlpha Char.isUpper Char.isLower Char.isDigit at h
    simpa [UInt32.le_iff_toNat_le] using h
  have hblank : Text.isBlank c = false := by
    simp only [Text.isBlank, Bool.or_eq_false_iff, Bool.and_eq_false_iff, decide_eq_false_iff_not,
      beq_eq_false_iff_ne]
    omega
  simp [isPlain, hblank, hne]

theorem isAlphanum_of_isDigit {c : Char} (h : c.isDigit = true) : c.isAlphanum = true :=
  Bool.or_eq_true_iff.2 (.inr h)

theorem isPlain_of_isDigit {c : Char} (h : c.isDigit = true) : isPlain c = true :=
  isPlain_of_isAlphanum (isAlphanum_of_isDigit h)

/-! ## Whole tokens -/

/-- A text that is read as one token if a tab follows. -/
structure IsToken (text : List Char) : Prop where
  nonempty : text ≠ []
  first : ∀ c ∈ text.head?, Text.isBlank c = false
  stops : Stops text
  noFeed : '\n' ∉ text

theorem isToken_cons (hc : isPlain c = true) (h : Passes cs) (hfeed : '\n' ∉ cs) :
    IsToken (c :: cs) where
  nonempty := List.cons_ne_nil c cs
  first := by
    intro d hd
    obtain rfl : c = d := by simpa using hd
    exact isBlank_of_isPlain hc
  stops := by
    have hfirst : Passes [c] := .plain fun d hd => List.mem_singleton.1 hd ▸ hc
    exact (hfirst.append h).stops
  noFeed := by
    intro hm
    rcases List.mem_cons.1 hm with rfl | hm
    · exact absurd hc (by decide)
    · exact hfeed hm

theorem isToken_of_isPlain (hne : text ≠ []) (h : ∀ c ∈ text, isPlain c = true) : IsToken text := by
  cases text with
  | nil => exact absurd rfl hne
  | cons c cs =>
    obtain ⟨hc, hcs⟩ := List.forall_mem_cons.1 h
    exact isToken_cons hc (.plain hcs) fun hm => absurd (hcs _ hm) (by decide)

/-- A text that is read up to the tab after it is the next token, if it does not start with a blank. -/
theorem next?_of_stops (hne : text ≠ []) (hfirst : ∀ c ∈ text.head?, Text.isBlank c = false)
    (h : Stops text) (rest : List Char) :
    next? (text ++ '\t' :: rest) = some (text, '\t' :: rest) := by
  cases text with
  | nil => exact absurd rfl hne
  | cons c cs =>
    rw [next?, Text.trimStart_eq_self (by simpa using hfirst)]
    exact congrArg some (h rest)

theorem next?_append_tab (rest : List Char) (h : IsToken text) :
    next? (text ++ '\t' :: rest) = some (text, '\t' :: rest) :=
  next?_of_stops h.nonempty h.first h.stops rest

/-- The tab after a token is not part of the next one. -/
theorem next?_tab (cs : List Char) : next? ('\t' :: cs) = next? cs := by
  rw [next?, next?, Text.trimStart_cons cs rfl]

end Hallmark.Signature.Token
