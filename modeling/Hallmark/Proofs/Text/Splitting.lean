import Mathlib.Data.List.TakeWhile
import Hallmark.Text.Blank
import Hallmark.Text.Line

/-!
# `Hallmark/Proofs/Text/Splitting.lean` — texts that are taken apart into what they were made of

Trimming undoes blanks around a text with none at its ends (`IsTrimmed`), splitting at a character
undoes joining texts without it, and a text written line by line has these lines (`lines_unlines`). A
line that ends with a carriage return would lose it, and one with a line feed would be two. A text that
is ended has no part in the lines after it (`lines_append_of_isEnded`), and every first lines of a text
are the lines of a text (`lines_firstLines`).
-/

set_option autoImplicit false

namespace Hallmark.Text

/-! ## Trimming -/

/-- Neither the first nor the last character is a blank. -/
structure IsTrimmed (cs : List Char) : Prop where
  first : ∀ c ∈ cs.head?, isBlank c = false
  last : ∀ c ∈ cs.getLast?, isBlank c = false

instance (cs : List Char) : Decidable (IsTrimmed cs) :=
  decidable_of_iff (cs.head?.all (!isBlank ·) = true ∧ cs.getLast?.all (!isBlank ·) = true) <| by
    simp only [Option.all_eq_true, Bool.not_eq_true']
    exact ⟨fun h => ⟨h.1, h.2⟩, fun h => ⟨h.first, h.last⟩⟩

theorem isTrimmed_of_forall {cs : List Char} (h : ∀ c ∈ cs, isBlank c = false) : IsTrimmed cs where
  first := fun c hc => h c (List.mem_of_mem_head? hc)
  last := fun c hc => h c (List.mem_of_mem_getLast? hc)

theorem trimStart_eq_self {cs : List Char} (h : ∀ c ∈ cs.head?, isBlank c = false) :
    trimStart cs = cs := by
  cases cs with
  | nil => rfl
  | cons c cs => exact List.dropWhile_cons_of_neg (by simp [h c rfl])

theorem trim_eq_self {cs : List Char} (h : IsTrimmed cs) : trim cs = cs := by
  have hreverse : cs.reverse.dropWhile isBlank = cs.reverse :=
    trimStart_eq_self (by simpa using h.last)
  rw [trim, trimStart_eq_self h.first, trimEnd, hreverse, List.reverse_reverse]

theorem trimStart_cons {c : Char} (cs : List Char) (h : isBlank c = true) :
    trimStart (c :: cs) = trimStart cs :=
  List.dropWhile_cons_of_pos h

theorem trim_cons {c : Char} (cs : List Char) (h : isBlank c = true) : trim (c :: cs) = trim cs := by
  rw [trim, trimStart_cons cs h, trim]

/-- Trimming leaves no blank at either end. -/
theorem isTrimmed_trim (cs : List Char) : IsTrimmed (trim cs) where
  first c hc := by
    have hprefix : trim cs <+: trimStart cs :=
      List.reverse_suffix.1 (by simpa [trim, trimEnd] using List.dropWhile_suffix isBlank)
    obtain ⟨tail, htail⟩ := hprefix
    obtain ⟨rest, hrest⟩ := List.head?_eq_some_iff.1 hc
    apply @isBlank_of_head?_trimStart cs
    rw [← htail, hrest]
    rfl
  last c hc := by
    apply @isBlank_of_head?_trimStart (trimStart cs).reverse
    simpa [trim, trimEnd, trimStart] using hc

/-- Trimming leaves nothing of a text exactly if it is blank. -/
theorem trim_eq_nil_iff {cs : List Char} : trim cs = [] ↔ ∀ c ∈ cs, isBlank c = true := by
  have hstart : trimStart cs = [] ↔ ∀ c ∈ cs, isBlank c = true := List.dropWhile_eq_nil_iff
  rw [← hstart]
  constructor
  · intro h
    have hblank : ∀ c ∈ (trimStart cs).reverse, isBlank c = true :=
      List.dropWhile_eq_nil_iff.1 (List.reverse_eq_nil_iff.1 h)
    cases hcs : trimStart cs with
    | nil => rfl
    | cons c rest =>
      have hnot : isBlank c = false := @isBlank_of_head?_trimStart cs c (by rw [hcs]; rfl)
      rw [hblank c (by simp [hcs])] at hnot
      cases hnot
  · intro h
    rw [trim, h]
    rfl

/-! ## Splitting at a character -/

variable {sep : Char} {front : List Char}

theorem splitAt?_append (rest : List Char) (h : sep ∉ front) :
    splitAt? sep (front ++ sep :: rest) = some (front, rest) := by
  induction front with
  | nil => simp [splitAt?]
  | cons c cs ih =>
    obtain ⟨hc, hcs⟩ := List.ne_and_not_mem_of_not_mem_cons h
    simp [splitAt?, Ne.symm hc, ih hcs]

theorem splitAt?_eq_none (h : sep ∉ front) : splitAt? sep front = none := by
  induction front with
  | nil => rfl
  | cons c cs ih =>
    obtain ⟨hc, hcs⟩ := List.ne_and_not_mem_of_not_mem_cons h
    simp [splitAt?, Ne.symm hc, ih hcs]

theorem pieces_append (rest : List Char) (h : sep ∉ front) :
    pieces sep (front ++ sep :: rest) = front :: pieces sep rest := by
  induction front with
  | nil => simp [pieces]
  | cons c cs ih =>
    obtain ⟨hc, hcs⟩ := List.ne_and_not_mem_of_not_mem_cons h
    simp [pieces, Ne.symm hc, ih hcs]

theorem pieces_ne_nil (cs : List Char) : pieces sep cs ≠ [] := by
  cases cs with
  | nil => simp [pieces]
  | cons c cs =>
    rw [pieces]
    split
    · simp
    · cases pieces sep cs <;> simp

/-- The pieces before a separator and those after it. -/
theorem pieces_append_pieces (before rest : List Char) :
    pieces sep (before ++ sep :: rest) = pieces sep before ++ pieces sep rest := by
  induction before with
  | nil => simp [pieces]
  | cons c cs ih =>
    rw [List.cons_append, pieces, pieces, ih]
    split
    · rfl
    · cases h : pieces sep cs with
      | nil => exact absurd h (pieces_ne_nil cs)
      | cons p ps => rfl

theorem pieces_eq_singleton (h : sep ∉ front) : pieces sep front = [front] := by
  induction front with
  | nil => rfl
  | cons c cs ih =>
    obtain ⟨hc, hcs⟩ := List.ne_and_not_mem_of_not_mem_cons h
    simp [pieces, Ne.symm hc, ih hcs]

/-- Joining texts with a character in front of all but the first is undone by splitting at it. -/
theorem pieces_join {parts : List (List Char)} (h : sep ∉ front) (hparts : ∀ p ∈ parts, sep ∉ p) :
    pieces sep (front ++ parts.flatMap (sep :: ·)) = front :: parts := by
  induction parts generalizing front with
  | nil => rw [List.flatMap_nil, List.append_nil, pieces_eq_singleton h]
  | cons p ps ih =>
    rw [List.flatMap_cons, List.cons_append, pieces_append _ h,
      ih (hparts p List.mem_cons_self) fun q hq => hparts q (List.mem_cons_of_mem p hq)]

/-! ## Lines -/

/-- A text of lines, each ended by a line feed. -/
def unlines (ls : List (List Char)) : List Char := ls.flatMap (· ++ ['\n'])

/-- A line that can be written: it has no line feed, and no carriage return at its end. -/
structure IsLine (cs : List Char) : Prop where
  noFeed : '\n' ∉ cs
  noReturn : cs.getLast? ≠ some '\r'

theorem lines_append_feed {cs : List Char} (h : IsLine cs) : lines (cs ++ ['\n']) = [cs] := by
  induction cs with
  | nil => rfl
  | cons c cs ih =>
    have hc : c ≠ '\n' := fun e => h.noFeed (e ▸ List.mem_cons_self)
    have hfeed : '\n' ∉ cs := fun hm => h.noFeed (List.mem_cons_of_mem c hm)
    have hhead : c = '\r' → (cs ++ ['\n']).head? ≠ some '\n' := by
      rintro rfl
      cases cs with
      | nil => exact absurd rfl h.noReturn
      | cons d ds =>
        intro hd
        exact hfeed (Option.some.inj hd ▸ List.mem_cons_self)
    have hreturn : cs.getLast? ≠ some '\r' := by
      intro hl
      apply h.noReturn
      rw [List.getLast?_cons, hl]
      rfl
    rw [List.cons_append, lines_cons hc hhead, ih ⟨hfeed, hreturn⟩]

/-- **The lines of a text that was written line by line are the lines written.** -/
theorem lines_unlines {ls : List (List Char)} (h : ∀ l ∈ ls, IsLine l) : lines (unlines ls) = ls := by
  induction ls with
  | nil => exact lines_nil
  | cons l ls ih =>
    have hfront : unlines (l :: ls) = l ++ '\n' :: unlines ls := by simp [unlines]
    rw [hfront, lines_append, lines_append_feed (h l List.mem_cons_self),
      ih fun m hm => h m (List.mem_cons_of_mem l hm)]
    rfl

/-- A text that a further text can follow on a line of its own. -/
def IsEnded (text : List Char) : Prop := text = [] ∨ text.getLast? = some '\n'

instance (text : List Char) : Decidable (IsEnded text) := inferInstanceAs (Decidable (_ ∨ _))

theorem lines_append_of_isEnded {text : List Char} (h : IsEnded text) (more : List Char) :
    lines (text ++ more) = lines text ++ lines more := by
  rcases h with rfl | h
  · simp
  · obtain ⟨front, rfl⟩ := List.getLast?_eq_some_iff.1 h
    rw [List.append_assoc]
    exact lines_append front more

/-- A text up to the end of a line, with the end of that line. -/
def firstLines : (count : Nat) → List Char → List Char
  | 0, _ => []
  | _ + 1, [] => []
  | count + 1, c :: rest => c :: firstLines (if c = '\n' then count else count + 1) rest

@[simp] theorem firstLines_zero (text : List Char) : firstLines 0 text = [] := by
  cases text <;> rfl

theorem firstLines_succ_cons (count : Nat) (c : Char) (rest : List Char) :
    firstLines (count + 1) (c :: rest) =
      c :: firstLines (if c = '\n' then count else count + 1) rest := rfl

theorem head?_firstLines (count : Nat) (text : List Char) :
    (firstLines (count + 1) text).head? = text.head? := by
  cases text <;> rfl

/-- The lines of a text up to a line are its first lines. -/
theorem lines_firstLines (count : Nat) (text : List Char) :
    lines (firstLines count text) = (lines text).take count := by
  fun_induction lines text generalizing count with
  | case1 => cases count <;> simp [firstLines]
  | case2 rest ih =>
    cases count with
    | zero => simp
    | succ count => simp [firstLines_succ_cons, lines, ih]
  | case3 rest ih =>
    cases count with
    | zero => simp
    | succ count => simp [firstLines_succ_cons, lines, ih]
  | case4 c rest hc hr hnil ih =>
    obtain rfl := lines_eq_nil.1 hnil
    cases count with
    | zero => simp
    | succ count =>
      rw [firstLines_succ_cons, if_neg hc, firstLines, lines_cons hc (by simp)]
      simp
  | case5 c rest hc hr l ls hcons ih =>
    cases count with
    | zero => simp
    | succ count =>
      -- The rest of a line that is kept starts as before.
      have hhead : c = '\r' → (firstLines (count + 1) rest).head? ≠ some '\n' := by
        intro hreturn hfeed
        rw [head?_firstLines] at hfeed
        obtain ⟨tail, rfl⟩ := List.head?_eq_some_iff.1 hfeed
        exact hr tail hreturn rfl
      rw [firstLines_succ_cons, if_neg hc, lines_cons hc hhead, ih, hcons]
      rfl

end Hallmark.Text
