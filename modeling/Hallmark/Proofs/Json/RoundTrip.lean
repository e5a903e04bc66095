import Mathlib.Data.List.Basic
import Hallmark.Json.Printer
import Hallmark.Json.Reader
import Hallmark.Proofs.Number.Decimal

/-!
# `Hallmark/Proofs/Json/RoundTrip.lean` — JSON read back from indented lines

A value that is data throughout, with no part that is kept by its spelling, is read back from its
indented lines. Each kind of value is read back whatever follows it, as long as that does not go on with
a number (`Ends`). The fuel of the reader is enough if it is more than the characters of the value.
Main statement: `ofChars?_indentedChars`.
-/

set_option autoImplicit false

namespace Hallmark.Json

/-- No part of the value is kept by its spelling. -/
inductive IsData : Json → Prop
  | null : IsData .null
  | bool (b : Bool) : IsData (.bool b)
  | int (n : Int) : IsData (.int n)
  | text (s : String) : IsData (.text s)
  | array {elements : List Json} (h : ∀ e ∈ elements, IsData e) : IsData (.array elements)
  | object {members : List (String × Json)} (h : ∀ m ∈ members, IsData m.2) :
      IsData (.object members)

/-! ## Strings -/

theorem hex4?_digits : ∀ n < 16, hex4? '0' '0' '0' (Nat.digitChar n) = some n ∧
    Number.digits 16 n = [Nat.digitChar n] := by decide

theorem hex4?_digits_add : ∀ n < 16, hex4? '0' '0' '1' (Nat.digitChar n) = some (16 + n) ∧
    Number.digits 16 (16 + n) = ['1', Nat.digitChar n] := by decide

/-- Four hexadecimal digits that are no half of a pair are a character. -/
theorem stringTail_hex {a b c d : Char} {n : Nat} (tail : List Char) (h : hex4? a b c d = some n)
    (hn : n < 0x20) :
    stringTail none ('\\' :: 'u' :: a :: b :: c :: d :: tail) =
      (stringTail none tail).cons (Char.ofNat n) := by
  have hlow : isLow n = false := by simp [isLow]; omega
  have hhigh : isHigh n = false := by simp [isHigh]; omega
  simp [stringTail, h, hlow, hhigh, StringTail.settle]

theorem stringTail_plain {c : Char} (tail : List Char) (hq : c ≠ '\x22') (hb : c ≠ '\\')
    (hc : ¬ c.toNat < 0x20) :
    stringTail none (c :: tail) = (stringTail none tail).cons c := by
  simp [stringTail, hb, hc, StringTail.settle]

/-- The spelling of a character is read as it. -/
theorem stringTail_escape (c : Char) (tail : List Char) :
    stringTail none (escape c ++ tail) = (stringTail none tail).cons c := by
  rw [escape]
  -- Seven characters have a spelling of two characters.
  iterate 7
    split
    · subst_vars
      simp [stringTail, unescape?, StringTail.settle]
  split
  · rename_i h
    obtain ⟨hhex, hdigits⟩ := hex4?_digits c.toNat h
    rw [hdigits]
    exact (stringTail_hex tail hhex (by omega)).trans (by rw [Char.ofNat_toNat])
  split
  · rename_i hlow h
    obtain ⟨hhex, hdigits⟩ := hex4?_digits_add (c.toNat - 16) (by omega)
    rw [show 16 + (c.toNat - 16) = c.toNat by omega] at hhex hdigits
    rw [hdigits]
    exact (stringTail_hex tail hhex h).trans (by rw [Char.ofNat_toNat])
  · exact stringTail_plain tail ‹_› ‹_› ‹_›

theorem stringTail_flatMap_escape (cs rest : List Char) :
    stringTail none (cs.flatMap escape ++ '\x22' :: rest) = some (some cs, rest) := by
  induction cs with
  | nil => simp [stringTail, StringTail.settle]
  | cons c cs ih =>
    rw [List.flatMap_cons, List.append_assoc, stringTail_escape, ih]
    rfl

theorem stringValue?_quoted (s : String) (rest : List Char) :
    stringValue? (s.toList.flatMap escape ++ '\x22' :: rest) = some (.text s, rest) := by
  rw [stringValue?, stringTail_flatMap_escape]
  simp

/-! ## Numbers -/

/-- The text does not go on with a number. -/
def Ends (rest : List Char) : Prop :=
  ∀ c ∈ rest.head?, c.isDigit = false ∧ c ≠ '.' ∧ c ≠ 'e' ∧ c ≠ 'E'

theorem dropWhile_isDigit_of_ends {rest : List Char} (h : Ends rest) :
    rest.dropWhile Char.isDigit = rest := by
  cases rest with
  | nil => rfl
  | cons c cs => exact List.dropWhile_cons_of_neg (by simp [(h c rfl).1])

theorem fractionTail?_of_ends {rest : List Char} (h : Ends rest) : fractionTail? rest = some rest := by
  rw [fractionTail?.eq_def]
  split
  · exact absurd rfl (h _ rfl).2.1
  · rfl

theorem exponentTail?_of_ends {rest : List Char} (h : Ends rest) : exponentTail? rest = some rest := by
  rw [exponentTail?.eq_def]
  split
  all_goals first
    | exact absurd rfl (h _ rfl).2.2.1
    | exact absurd rfl (h _ rfl).2.2.2
    | rfl

theorem before_append (front rest : List Char) : before (front ++ rest) rest = front := by
  simp [before]

theorem digitsTail?_digits (n : Nat) {rest : List Char} (h : Ends rest) :
    digitsTail? (Number.digits 10 n ++ rest) = some rest := by
  have hdigit := @Number.isDigit_of_mem_digits n
  cases hds : Number.digits 10 n with
  | nil => exact absurd hds (Number.digits_ne_nil 10 n)
  | cons d ds =>
    rw [hds] at hdigit
    have hall : ∀ x ∈ ds, x.isDigit = true := fun x hx => hdigit (List.mem_cons_of_mem d hx)
    rw [List.cons_append, digitsTail?, if_pos (hdigit List.mem_cons_self),
      List.dropWhile_append_of_pos hall, dropWhile_isDigit_of_ends h]

theorem integerTail?_digits (n : Nat) {rest : List Char} (h : Ends rest) :
    integerTail? (Number.digits 10 n ++ rest) = some (n, rest) := by
  rw [integerTail?.eq_def]
  split
  · -- Only the number zero starts with a zero, and no digit comes after it.
    rename_i c cs heq
    rcases Nat.eq_zero_or_pos n with rfl | hpos
    · obtain rfl : c :: cs = rest := by simpa [Number.digits_of_lt] using heq.symm
      rw [if_neg (by simp [(h c rfl).1])]
    · have hhead := Number.head?_digits_ne_zero hpos
      rw [← List.head?_append_of_ne_nil _ (Number.digits_ne_nil 10 n), heq] at hhead
      exact absurd rfl hhead
  · rw [digitsTail?_digits n h]
    simp [before_append, Number.digits?_digits]

/-- A number starts with a digit or a minus sign. -/
theorem exists_decimal (n : Int) :
    ∃ c cs, Number.decimal n = c :: cs ∧ (c.isDigit = true ∨ c = '-') := by
  cases n with
  | ofNat m =>
    have hdigit := @Number.isDigit_of_mem_digits m
    rw [Number.decimal]
    cases hds : Number.digits 10 m with
    | nil => exact absurd hds (Number.digits_ne_nil 10 m)
    | cons d ds => exact ⟨d, ds, rfl, .inl (hdigit (hds ▸ List.mem_cons_self))⟩
  | negSucc m => exact ⟨'-', _, rfl, .inr rfl⟩

theorem number?_decimal (n : Int) {rest : List Char} (h : Ends rest) :
    number? (Number.decimal n ++ rest) = some (.int n, rest) := by
  cases n with
  | ofNat m =>
    have hhead : (Number.digits 10 m ++ rest).head? ≠ some '-' := by
      rw [List.head?_append_of_ne_nil _ (Number.digits_ne_nil 10 m)]
      intro hm
      have hdigit := Number.isDigit_of_mem_digits (List.mem_of_mem_head? hm)
      exact absurd hdigit (by decide)
    have hbody := integerTail?_digits m h
    rw [Number.decimal]
    generalize Number.digits 10 m ++ rest = cs at hhead hbody
    rw [number?]
    · simp [hbody, fractionTail?_of_ends h, exponentTail?_of_ends h]
    · rintro tail rfl
      exact hhead rfl
  | negSucc m =>
    have hvalue : -Int.ofNat (m + 1) = Int.negSucc m := rfl
    simp [number?, Number.decimal, integerTail?_digits (m + 1) h, fractionTail?_of_ends h,
      exponentTail?_of_ends h, ← hvalue]

/-! ## Blanks and items -/

theorem skipSpace_cons {c : Char} (cs : List Char) (h : isSpace c = false) :
    skipSpace (c :: cs) = c :: cs :=
  List.dropWhile_cons_of_neg (by simp [h])

theorem skipSpace_newLine (level : Nat) (cs : List Char) :
    skipSpace (newLine level ++ cs) = skipSpace cs := by
  apply List.dropWhile_append_of_pos
  intro c hc
  rcases List.mem_cons.1 hc with rfl | hc
  · rfl
  · rw [List.eq_of_mem_replicate hc]
    rfl

/-- The text starts with a value, and so with no blank and no closing bracket. -/
def Opens (cs : List Char) : Prop :=
  ∃ c rest, cs = c :: rest ∧ isSpace c = false ∧ c ≠ ']' ∧ c ≠ '\x7d'

theorem Opens.append {cs : List Char} (h : Opens cs) (rest : List Char) : Opens (cs ++ rest) := by
  obtain ⟨c, tail, rfl, hc⟩ := h
  exact ⟨c, tail ++ rest, rfl, hc⟩

theorem Opens.skipSpace {cs : List Char} (h : Opens cs) : skipSpace cs = cs := by
  obtain ⟨c, tail, rfl, hc, -⟩ := h
  exact skipSpace_cons tail hc

theorem opens_decimal (n : Int) : Opens (Number.decimal n) := by
  obtain ⟨c, cs, heq, hc⟩ := exists_decimal n
  refine ⟨c, cs, heq, ?_, ?_, ?_⟩
  · rw [Bool.eq_false_iff]
    intro hspace
    simp only [isSpace, Bool.or_eq_true, beq_iff_eq] at hspace
    rcases hspace with ((rfl | rfl) | rfl) | rfl <;> exact absurd hc (by decide)
  · rintro rfl
    exact absurd hc (by decide)
  · rintro rfl
    exact absurd hc (by decide)

theorem opens_block {opening closing : Char} (h : Opens [opening]) (level : Nat)
    (items : List (List Char)) : Opens (block opening closing level items) := by
  rw [block.eq_def]
  split
  · exact h.append [closing]
  · exact h.append _

theorem opens_indentedChars {j : Json} (h : IsData j) (level : Nat) : Opens (indentedChars level j) := by
  cases h with
  | null => exact ⟨'n', _, rfl, by decide, by decide, by decide⟩
  | bool b => cases b <;> exact ⟨_, _, rfl, by decide, by decide, by decide⟩
  | int n => exact opens_decimal n
  | text s => exact ⟨'\x22', _, rfl, by decide, by decide, by decide⟩
  | array => exact opens_block ⟨'[', [], rfl, by decide, by decide, by decide⟩ level _
  | object => exact opens_block ⟨'\x7b', [], rfl, by decide, by decide, by decide⟩ level _

theorem opens_indentedMember (level : Nat) (m : String × Json) : Opens (indentedMember level m) := by
  obtain ⟨key, value⟩ := m
  exact ⟨'\x22', _, rfl, by decide, by decide, by decide⟩

/-- Items on lines of their own: all but the first come after a comma. -/
def following (level : Nat) (items : List (List Char)) : List Char :=
  items.flatMap fun item => ',' :: (newLine level ++ item)

theorem intercalate_lines (level : Nat) (item : List Char) (items : List (List Char)) :
    [','].intercalate ((item :: items).map (newLine level ++ ·)) =
      newLine level ++ (item ++ following level items) := by
  induction items generalizing item with
  | nil => simp [following]
  | cons next items ih =>
    rw [List.map_cons, List.map_cons, List.intercalate_cons_cons, ← List.map_cons, ih next]
    simp [following]

theorem block_cons (opening closing : Char) (level : Nat) (item : List Char) (items : List (List Char)) :
    block opening closing level (item :: items) =
      opening :: (newLine (level + 1) ++ (item ++ (following (level + 1) items ++
        (newLine level ++ [closing])))) := by
  have hblock : block opening closing level (item :: items) =
      opening :: ([','].intercalate ((item :: items).map (newLine (level + 1) ++ ·)) ++
        newLine level ++ [closing]) := rfl
  rw [hblock, intercalate_lines]
  simp only [List.append_assoc]

theorem indentedElements_eq_map (level : Nat) (elements : List Json) :
    indentedElements level elements = elements.map (indentedChars level) := by
  induction elements with
  | nil => rfl
  | cons e es ih => rw [indentedElements, ih, List.map_cons]

theorem indentedMembers_eq_map (level : Nat) (members : List (String × Json)) :
    indentedMembers level members = members.map (indentedMember level) := by
  induction members with
  | nil => rfl
  | cons m ms ih => rw [indentedMembers, ih, List.map_cons]

theorem ends_following (level outer : Nat) (items : List (List Char)) (rest : List Char) :
    Ends (following level items ++ (newLine outer ++ rest)) := by
  cases items with
  | nil =>
    intro c hc
    obtain rfl : '\n' = c := Option.some.inj hc
    decide
  | cons item items =>
    intro c hc
    obtain rfl : ',' = c := Option.some.inj hc
    decide

/-! ## Values -/

/-- The value is read back from its lines at a level, whatever follows. -/
def ReadsBack (level : Nat) (j : Json) : Prop :=
  ∀ fuel rest, (indentedChars level j).length < fuel → Ends rest →
    value? fuel (indentedChars level j ++ rest) = some (j, rest)

theorem elements?_lines {level outer : Nat} {e : Json} {es : List Json} {fuel : Nat}
    (rest : List Char) (hdata : ∀ x ∈ e :: es, IsData x) (h : ∀ x ∈ e :: es, ReadsBack level x)
    (hfuel : (indentedChars level e ++ following level (es.map (indentedChars level))).length + 1 < fuel) :
    elements? fuel (indentedChars level e ++ (following level (es.map (indentedChars level)) ++
      (newLine outer ++ ']' :: rest))) = some (e :: es, rest) := by
  induction es generalizing e fuel with
  | nil =>
    cases fuel with
    | zero => omega
    | succ fuel =>
      have hread := h e List.mem_cons_self fuel _ (by simp at hfuel; omega)
        (ends_following level outer [] (']' :: rest))
      rw [elements?, List.map_nil, hread]
      simp [following, skipSpace_newLine, skipSpace_cons, isSpace]
  | cons next es ih =>
    cases fuel with
    | zero => omega
    | succ fuel =>
      simp only [List.map_cons, following, List.flatMap_cons, List.length_append,
        List.length_cons] at hfuel
      have hread := h e List.mem_cons_self fuel _ (by omega) (ends_following level outer
        ((next :: es).map (indentedChars level)) (']' :: rest))
      have hnext := @ih next fuel (fun x hx => hdata x (List.mem_cons_of_mem e hx))
        (fun x hx => h x (List.mem_cons_of_mem e hx)) (by
          simp only [following, List.length_append]
          omega)
      have hopens := (opens_indentedChars (hdata next (by simp)) level).append
        (following level (es.map (indentedChars level)) ++ (newLine outer ++ ']' :: rest))
      have hfollowing : following level ((next :: es).map (indentedChars level)) =
          ',' :: (newLine level ++ (indentedChars level next ++
            following level (es.map (indentedChars level)))) := by
        simp [following]
      rw [elements?, hread, hfollowing]
      simp only [List.cons_append, List.append_assoc, skipSpace_cons _ (show isSpace ',' = false from rfl),
        skipSpace_newLine, hopens.skipSpace, hnext, Option.map_some]

/-- A member is read up to what comes after its value. -/
theorem members?_indentedMember {level fuel : Nat} {key : String} {value : Json} {tail : List Char}
    (hdata : IsData value)
    (hread : value? fuel (indentedChars level value ++ tail) = some (value, tail)) :
    members? (fuel + 1) (indentedMember level (key, value) ++ tail) =
      match skipSpace tail with
      | '\x7d' :: after => some (some [(key, value)], after)
      | ',' :: after => MembersTail.cons (some key.toList) value (members? fuel (skipSpace after))
      | _ => none := by
  have hopens := (opens_indentedChars hdata level).append tail
  have hspace : skipSpace (' ' :: (indentedChars level value ++ tail)) =
      indentedChars level value ++ tail := (List.dropWhile_cons_of_pos rfl).trans hopens.skipSpace
  rw [indentedMember, quoted]
  simp only [List.cons_append, List.append_assoc, List.nil_append]
  rw [members?]
  simp only [stringTail_flatMap_escape, skipSpace_cons _ (show isSpace ':' = false from rfl), hspace,
    hread]
  cases skipSpace tail with
  | nil => rfl
  | cons c after =>
    by_cases hclose : c = '\x7d'
    · subst hclose
      simp [MembersTail.cons]
    · by_cases hcomma : c = ','
      · subst hcomma
        rfl
      · simp [hclose, hcomma]

theorem members?_lines {level outer : Nat} {m : String × Json} {ms : List (String × Json)} {fuel : Nat}
    (rest : List Char) (hdata : ∀ x ∈ m :: ms, IsData x.2) (h : ∀ x ∈ m :: ms, ReadsBack level x.2)
    (hfuel : (indentedMember level m ++ following level (ms.map (indentedMember level))).length < fuel) :
    members? fuel (indentedMember level m ++ (following level (ms.map (indentedMember level)) ++
      (newLine outer ++ '\x7d' :: rest))) = some (some (m :: ms), rest) := by
  induction ms generalizing m fuel with
  | nil =>
    obtain ⟨key, value⟩ := m
    cases fuel with
    | zero => omega
    | succ fuel =>
      simp only [List.map_nil, following, List.flatMap_nil, List.append_nil, indentedMember,
        List.length_append, List.length_cons] at hfuel
      have hread := h (key, value) List.mem_cons_self fuel _ (by simp only; omega)
        (ends_following level outer [] ('\x7d' :: rest))
      rw [List.map_nil, members?_indentedMember (hdata (key, value) List.mem_cons_self) hread]
      simp [following, skipSpace_newLine, skipSpace_cons, isSpace]
  | cons next ms ih =>
    obtain ⟨key, value⟩ := m
    cases fuel with
    | zero => omega
    | succ fuel =>
      simp only [List.map_cons, following, List.flatMap_cons, List.length_append, indentedMember,
        List.length_cons] at hfuel
      have hread := h (key, value) List.mem_cons_self fuel _ (by simp only; omega) (ends_following level
        outer ((next :: ms).map (indentedMember level)) ('\x7d' :: rest))
      have hnext := @ih next fuel (fun x hx => hdata x (List.mem_cons_of_mem _ hx))
        (fun x hx => h x (List.mem_cons_of_mem _ hx)) (by
          simp only [following, List.length_append]
          omega)
      have hopens := (opens_indentedMember level next).append
        (following level (ms.map (indentedMember level)) ++ (newLine outer ++ '\x7d' :: rest))
      have hfollowing : following level ((next :: ms).map (indentedMember level)) =
          ',' :: (newLine level ++ (indentedMember level next ++
            following level (ms.map (indentedMember level)))) := by
        simp [following]
      rw [members?_indentedMember (hdata (key, value) List.mem_cons_self) hread, hfollowing]
      simp only [List.cons_append, List.append_assoc,
        skipSpace_cons _ (show isSpace ',' = false from rfl), skipSpace_newLine, hopens.skipSpace, hnext]
      simp [MembersTail.cons]

theorem value?_decimal (n : Int) (fuel : Nat) {rest : List Char} (h : Ends rest) :
    value? (fuel + 1) (Number.decimal n ++ rest) = some (.int n, rest) := by
  rw [← number?_decimal n h]
  obtain ⟨c, cs, heq, hc⟩ := exists_decimal n
  rw [heq, List.cons_append, value?]
  all_goals
    intro tail htail
    obtain ⟨rfl, -⟩ := List.cons.inj htail
    exact absurd hc (by decide)

/-- A value follows the bracket that opens an array. -/
theorem value?_array {cs : List Char} (level fuel : Nat) (h : Opens cs) :
    value? (fuel + 1) ('[' :: (newLine level ++ cs)) =
      (elements? fuel cs).map fun p => (.array p.1, p.2) := by
  have hspace := h.skipSpace
  obtain ⟨c, tail, rfl, -, hbracket, -⟩ := h
  rw [value?, skipSpace_newLine, hspace]
  split
  · rename_i heq
    exact absurd (List.cons.inj heq).1 hbracket
  · rfl

/-- A value follows the brace that opens an object. -/
theorem value?_object {cs rest : List Char} {members : List (String × Json)} (level fuel : Nat)
    (h : Opens cs) (hmembers : members? fuel cs = some (some members, rest)) :
    value? (fuel + 1) ('\x7b' :: (newLine level ++ cs)) = some (.object members, rest) := by
  have hspace := h.skipSpace
  obtain ⟨c, tail, rfl, -, -, hbrace⟩ := h
  rw [value?, skipSpace_newLine, hspace]
  split
  · rename_i heq
    exact absurd (List.cons.inj heq).1 hbrace
  · rw [hmembers]

/-- Every value that is data is read back from its lines. -/
theorem readsBack {j : Json} (h : IsData j) (level : Nat) : ReadsBack level j := by
  induction h generalizing level with
  | null =>
    rintro (_ | fuel) rest hfuel -
    · omega
    · rfl
  | bool b =>
    rintro (_ | fuel) rest hfuel -
    · omega
    · cases b <;> rfl
  | int n =>
    rintro (_ | fuel) rest hfuel hends
    · omega
    · exact value?_decimal n fuel hends
  | text s =>
    rintro (_ | fuel) rest hfuel -
    · omega
    · have hchars : indentedChars level (.text s) ++ rest =
          '\x22' :: (s.toList.flatMap escape ++ '\x22' :: rest) := by
        rw [show indentedChars level (.text s) = quoted s from rfl, quoted]
        simp
      rw [hchars]
      exact stringValue?_quoted s rest
  | @array elements hdata ih =>
    rintro (_ | fuel) rest hfuel -
    · omega
    · cases elements with
      | nil => rfl
      | cons e es =>
        have hchars : indentedChars level (.array (e :: es)) =
            block '[' ']' level ((e :: es).map (indentedChars (level + 1))) := by
          rw [← indentedElements_eq_map]
          rfl
        rw [hchars, List.map_cons, block_cons] at hfuel ⊢
        simp only [List.length_cons, List.length_append, newLine] at hfuel
        have hlines := @elements?_lines (level + 1) level e es fuel rest hdata
          (fun x hx => ih x hx (level + 1)) (by rw [List.length_append]; omega)
        have hopens := (opens_indentedChars (hdata e List.mem_cons_self) (level + 1)).append
          (following (level + 1) (es.map (indentedChars (level + 1))) ++ (newLine level ++ ']' :: rest))
        simp only [List.cons_append, List.append_assoc, List.nil_append]
        rw [value?_array (level + 1) fuel hopens, hlines, Option.map_some]
  | @object members hdata ih =>
    rintro (_ | fuel) rest hfuel -
    · omega
    · cases members with
      | nil => rfl
      | cons m ms =>
        have hchars : indentedChars level (.object (m :: ms)) =
            block '\x7b' '\x7d' level ((m :: ms).map (indentedMember (level + 1))) := by
          rw [← indentedMembers_eq_map]
          rfl
        rw [hchars, List.map_cons, block_cons] at hfuel ⊢
        simp only [List.length_cons, List.length_append, newLine] at hfuel
        have hlines := @members?_lines (level + 1) level m ms fuel rest hdata
          (fun x hx => ih x hx (level + 1)) (by rw [List.length_append]; omega)
        have hopens := (opens_indentedMember (level + 1) m).append
          (following (level + 1) (ms.map (indentedMember (level + 1))) ++ (newLine level ++ '\x7d' :: rest))
        simp only [List.cons_append, List.append_assoc, List.nil_append]
        rw [value?_object (level + 1) fuel hopens hlines]

/-- **A value that is data is read back from its indented lines.** -/
theorem ofChars?_indentedChars {j : Json} (h : IsData j) : ofChars? (indentedChars 0 j) = some j := by
  have hread := readsBack h 0 (2 * (indentedChars 0 j).length + 2) [] (by omega) (by simp [Ends])
  rw [List.append_nil] at hread
  rw [ofChars?, (opens_indentedChars h 0).skipSpace, hread]
  rfl

end Hallmark.Json
