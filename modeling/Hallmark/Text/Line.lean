/-!
# `Hallmark/Text/Line.lean` — the lines of a text, and splitting at a character

A line feed ends a line and takes one carriage return before it along. The last line need not be
ended; it then keeps a carriage return at its end, and a text that ends with a line feed has no empty
line after it. Main statements: a text of no lines is empty (`lines_eq_nil`), and a text whose first
part ends with a line feed has the lines of its parts (`lines_append`).
-/

set_option autoImplicit false

namespace Hallmark.Text

/-- The lines of a text, without their ends. -/
def lines : List Char → List (List Char)
  | [] => []
  | '\n' :: rest => [] :: lines rest
  | '\r' :: '\n' :: rest => [] :: lines rest
  | c :: rest =>
    match lines rest with
    | [] => [[c]]
    | l :: ls => (c :: l) :: ls

@[simp] theorem lines_nil : lines [] = [] := by simp [lines]

theorem lines_eq_nil {cs : List Char} : lines cs = [] ↔ cs = [] := by
  fun_induction lines cs <;> simp_all

/-- A character that does not end a line goes to the front of the first line after it. -/
theorem lines_cons {c : Char} {rest : List Char} (hc : c ≠ '\n')
    (hr : c = '\r' → rest.head? ≠ some '\n') :
    lines (c :: rest) = (match lines rest with
      | [] => [[c]]
      | l :: ls => (c :: l) :: ls) := by
  rw [lines]
  · exact hc
  · rintro tail rfl rfl
    exact hr rfl rfl

/-- A text that ends with a line feed keeps its lines when more text follows. -/
theorem lines_append (a b : List Char) :
    lines (a ++ '\n' :: b) = lines (a ++ ['\n']) ++ lines b := by
  fun_induction lines a with
  | case1 => simp [lines]
  | case2 rest ih => simp [lines, ih]
  | case3 rest ih => simp [lines, ih]
  | case4 c rest hc hr hnil ih =>
    obtain rfl := lines_eq_nil.1 hnil
    by_cases h : c = '\r' <;> simp [h, lines]
  | case5 c rest hc hr l ls hcons ih =>
    cases rest with
    | nil => simp at hcons
    | cons d ds =>
      have hd : c = '\r' → d ≠ '\n' := by
        rintro h rfl
        exact hr ds h rfl
      simp only [List.cons_append] at ih ⊢
      rw [lines_cons hc (by simpa using hd), lines_cons hc (by simpa using hd), ih]
      cases h : lines (d :: (ds ++ ['\n'])) with
      | nil => simp [lines_eq_nil] at h
      | cons => simp

/-- Splits at the first `sep`; `none` if there is none. -/
def splitAt? (sep : Char) : List Char → Option (List Char × List Char)
  | [] => none
  | c :: rest =>
    if c = sep then some ([], rest)
    else (splitAt? sep rest).map fun p => (c :: p.1, p.2)

/-- The pieces between the occurrences of `sep`, at least one. -/
def pieces (sep : Char) : List Char → List (List Char)
  | [] => [[]]
  | c :: rest =>
    if c = sep then [] :: pieces sep rest
    else
      match pieces sep rest with
      | [] => [[c]]
      | p :: ps => (c :: p) :: ps

/-- `some rest` if the text is `start ++ rest`. -/
def stripStart? : List Char → List Char → Option (List Char)
  | [], cs => some cs
  | _ :: _, [] => none
  | p :: ps, c :: cs => if p = c then stripStart? ps cs else none

theorem stripStart?_eq_some_iff {start cs rest : List Char} :
    stripStart? start cs = some rest ↔ cs = start ++ rest := by
  induction start generalizing cs with
  | nil => simp [stripStart?, eq_comm]
  | cons p ps ih =>
    cases cs with
    | nil => simp [stripStart?]
    | cons c cs =>
      by_cases h : p = c
      · simp [stripStart?, h, ih]
      · simp [stripStart?, h, Ne.symm h]

end Hallmark.Text
