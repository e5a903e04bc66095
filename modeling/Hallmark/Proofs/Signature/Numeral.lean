import Mathlib.Data.List.DropRight
import Hallmark.Proofs.Number.Decimal
import Hallmark.Proofs.Number.Integer
import Hallmark.Proofs.Signature.Template

/-!
# `Hallmark/Proofs/Signature/Numeral.lean` — numbers as conversions print them

A numeral is a minus sign if the integer is negative, the mark of its base if it has one, and digits, of
which zeros in front do not count (`IsNumeral`). The body of every conversion of an integer is a numeral of
the integer that the conversion takes the number for. Spaces around it do not matter, and neither do zeros
behind its sign; but zeros are put in front of a mark, and there they spoil it (`ZerosPrecedeMark`). Main
statement: `printed_number_reads_back`.
-/

set_option autoImplicit false

namespace Hallmark.Number

/-! ## Numerals -/

/-- The text is a numeral of a base, with a mark behind the sign, for the integer. -/
inductive IsNumeral (base : Nat) (mark : List Char) : Int → List Char → Prop
  | plain {ds : List Char} {n : Nat} (hne : ds ≠ []) (h : digits? base 0 ds = some n) :
      IsNumeral base mark n (mark ++ ds)
  | minus {ds : List Char} {n : Nat} (hne : ds ≠ []) (h : digits? base 0 ds = some n) :
      IsNumeral base mark (-n) ('-' :: (mark ++ ds))

variable {base n : Nat} {mark text ds : List Char} {z : Int}

theorem digits?_zeros (hbase : 0 < base) (count : Nat) (ds : List Char) :
    digits? base 0 (List.replicate count '0' ++ ds) = digits? base 0 ds := by
  have hzero : digit? base '0' = some 0 := by simp [digit?, hbase]
  induction count with
  | zero => rfl
  | succ count ih =>
    rw [List.replicate_succ, List.cons_append, digits?, hzero, Nat.zero_mul]
    exact ih

theorem space_not_mem_of_digits? (h : digits? base 0 ds = some n) : ' ' ∉ ds :=
  not_mem_of_digits? (by simp [digit?]) h

theorem minus_not_mem_of_digits? (h : digits? base 0 ds = some n) : '-' ∉ ds :=
  not_mem_of_digits? (by simp [digit?]) h

theorem IsNumeral.space_not_mem (h : IsNumeral base mark z text) (hmark : ' ' ∉ mark) : ' ' ∉ text := by
  cases h with
  | plain _ h => simp [hmark, space_not_mem_of_digits? h]
  | minus _ h => simp [hmark, space_not_mem_of_digits? h]

theorem IsNumeral.ne_nil (h : IsNumeral base mark z text) : text ≠ [] := by
  cases h with
  | plain hne _ => simp [hne]
  | minus _ _ => exact List.cons_ne_nil _ _

theorem isNumeral_decimal (z : Int) : IsNumeral 10 [] z (decimal z) := by
  cases z with
  | ofNat n => exact .plain (digits_ne_nil 10 n) (digits?_digits n)
  | negSucc n => exact .minus (digits_ne_nil 10 (n + 1)) (digits?_digits (n + 1))

end Hallmark.Number

namespace Hallmark.Signature

open Number (IsNumeral)

/-! ## Padding -/

/-- The text between the spaces at its ends. -/
def unpadded (text : List Char) : List Char := (text.dropWhile (· == ' ')).rdropWhile (· == ' ')

theorem dropWhile_space_append {text : List Char} (h : ' ' ∉ text) (hne : text ≠ [])
    (rest : List Char) : (text ++ rest).dropWhile (· == ' ') = text ++ rest := by
  cases text with
  | nil => exact absurd rfl hne
  | cons c cs =>
    have hc : c ≠ ' ' := fun hspace => h (hspace ▸ List.mem_cons_self)
    exact List.dropWhile_cons_of_neg (by simpa using hc)

theorem dropWhile_spaces (count : Nat) (text : List Char) :
    (List.replicate count ' ' ++ text).dropWhile (· == ' ') = text.dropWhile (· == ' ') :=
  List.dropWhile_append_of_pos fun _ hc => beq_iff_eq.2 (List.eq_of_mem_replicate hc)

theorem unpadded_spaces {text : List Char} (h : ' ' ∉ text) (hne : text ≠ []) (before after : Nat) :
    unpadded (List.replicate before ' ' ++ (text ++ List.replicate after ' ')) = text := by
  have hstart := dropWhile_space_append h hne (List.replicate after ' ')
  have hstop := dropWhile_space_append (mt List.mem_reverse.1 h) (mt List.reverse_eq_nil_iff.1 hne) []
  rw [List.append_nil] at hstop
  rw [unpadded, dropWhile_spaces, hstart, List.rdropWhile, List.reverse_append, List.reverse_replicate,
    dropWhile_spaces, hstop, List.reverse_reverse]

section Padding

variable {layout : Layout} {body : List Char}

theorem Layout.length_pad (layout : Layout) (isNumber : Bool) (body : List Char) :
    (layout.pad isNumber body).length = max layout.width body.length := by
  unfold Layout.pad
  split
  · simp
    omega
  · split
    · split <;> simp <;> omega
    · simp
      omega

/-- Zeros behind the sign. -/
def zeroed (fill : Nat) : List Char → List Char
  | '-' :: ds => '-' :: (List.replicate fill '0' ++ ds)
  | body => List.replicate fill '0' ++ body

theorem zeroed_eq (hminus : ∀ ds, body ≠ '-' :: ds) (fill : Nat) :
    zeroed fill body = List.replicate fill '0' ++ body := by
  unfold zeroed
  split
  · exact absurd rfl (hminus _)
  · rfl

theorem space_not_mem_zeroed (h : ' ' ∉ body) (fill : Nat) : ' ' ∉ zeroed fill body := by
  unfold zeroed
  split
  · simpa using h
  · simpa using h

theorem zeroed_ne_nil (hne : body ≠ []) (fill : Nat) : zeroed fill body ≠ [] := by
  unfold zeroed
  split
  · exact List.cons_ne_nil _ _
  · simp [hne]

theorem Layout.pad_left (hleft : layout.left = true) (isNumber : Bool) (body : List Char) :
    layout.pad isNumber body = body ++ List.replicate (layout.width - body.length) ' ' := by
  unfold Layout.pad
  rw [if_pos hleft]

theorem Layout.pad_zero (hleft : layout.left = false) (hzero : layout.zero = true) (body : List Char) :
    layout.pad true body = zeroed (layout.width - body.length) body := by
  unfold Layout.pad
  rw [if_neg (by simp [hleft]), if_pos (by simp [hzero])]
  split
  · rfl
  · next hminus => exact (zeroed_eq hminus _).symm

theorem Layout.pad_right (hleft : layout.left = false) (hzero : layout.zero = false) (isNumber : Bool)
    (body : List Char) :
    layout.pad isNumber body = List.replicate (layout.width - body.length) ' ' ++ body := by
  unfold Layout.pad
  rw [if_neg (by simp [hleft]), if_neg (by simp [hzero])]

/-- What stands between the spaces of a padded number. -/
theorem Layout.unpadded_pad (h : ' ' ∉ body) (hne : body ≠ []) : unpadded (layout.pad true body) =
    if layout.left = false ∧ layout.zero = true then zeroed (layout.width - body.length) body
    else body := by
  cases hleft : layout.left with
  | true =>
    rw [if_neg (by simp), Layout.pad_left hleft]
    exact unpadded_spaces h hne 0 _
  | false =>
    cases hzero : layout.zero with
    | true =>
      rw [if_pos ⟨rfl, rfl⟩, Layout.pad_zero hleft hzero]
      have hzeros := space_not_mem_zeroed h (layout.width - body.length)
      simpa using unpadded_spaces hzeros (zeroed_ne_nil hne _) 0 0
    | false =>
      rw [if_neg (by simp), Layout.pad_right hleft hzero]
      simpa using unpadded_spaces h hne (layout.width - body.length) 0

/-- Zeros behind the sign of a numeral without a mark do not count. -/
theorem isNumeral_zeroed {base : Nat} {z : Int} (h : IsNumeral base [] z body) (hbase : 0 < base)
    (fill : Nat) : IsNumeral base [] z (zeroed fill body) := by
  cases h with
  | @plain ds n hne h =>
    have hminus : ∀ rest, ds ≠ '-' :: rest := fun rest hrest =>
      Number.minus_not_mem_of_digits? h (hrest ▸ List.mem_cons_self)
    rw [List.nil_append, zeroed_eq hminus]
    exact .plain (by simp [hne]) ((Number.digits?_zeros hbase _ _).trans h)
  | minus hne h =>
    exact .minus (by simp [hne]) ((Number.digits?_zeros hbase _ _).trans h)

end Padding

/-! ## Conversions of integers -/

/-- The forms in which a number is printed as an integer. -/
def integerForms : List Char := ['d', 'i', 'u', 'x', 'X', 'o']

def formBase : Char → Nat
  | 'x' | 'X' => 16
  | 'o' => 8
  | _ => 10

theorem formBase_pos (form : Char) : 0 < formBase form := by
  unfold formBase
  split <;> decide

/-- What stands in front of the digits in the alternate form. An octal zero is a digit itself. -/
def formMark (isAlternate : Bool) : Char → List Char
  | 'x' => if isAlternate then ['0', 'x'] else []
  | 'X' => if isAlternate then ['0', 'X'] else []
  | _ => []

/-- The integer that a form takes a number for. -/
def formInteger (word : UInt64) (width : Nat) : Char → Int
  | 'd' | 'i' => Number.signed word width
  | _ => word.toNat

section Forms

variable {a : Template.Adornment} {form : Char}

theorem exists_body (hform : form ∈ integerForms) (layout : Layout) (word : UInt64) (width : Nat) :
    ∃ body, numberForm? layout form word width = some (body, true) ∧
      IsNumeral (formBase form) (formMark layout.alternate form) (formInteger word width form) body := by
  have hlower := Number.digits?_map_digits (by decide)
    (show ∀ d < 16, Number.digit? 16 (id (Nat.digitChar d)) = some d by decide) word.toNat
  have hupper := Number.digits?_map_digits (by decide)
    (show ∀ d < 16, Number.digit? 16 (Nat.digitChar d).toUpper = some d by decide) word.toNat
  have hoctal := Number.digits?_map_digits (by decide)
    (show ∀ d < 8, Number.digit? 8 (id (Nat.digitChar d)) = some d by decide) word.toNat
  rw [List.map_id] at hlower hoctal
  have hnil : ∀ base, Number.digits base word.toNat ≠ [] := fun base =>
    Number.digits_ne_nil base word.toNat
  simp only [integerForms, List.mem_cons, List.not_mem_nil, or_false] at hform
  rcases hform with rfl | rfl | rfl | rfl | rfl | rfl
  · exact ⟨_, rfl, Number.isNumeral_decimal _⟩
  · exact ⟨_, rfl, Number.isNumeral_decimal _⟩
  · exact ⟨_, rfl, .plain (hnil 10) (Number.digits?_digits _)⟩
  · cases halternate : layout.alternate with
    | true =>
      refine ⟨formMark true 'x' ++ Number.digits 16 word.toNat, ?_, .plain (hnil 16) hlower⟩
      simp [numberForm?, halternate, formMark]
    | false => exact ⟨_, by simp [numberForm?, halternate, formMark], .plain (hnil 16) hlower⟩
  · have hne : Number.upperDigits 16 word.toNat ≠ [] := by simp [Number.upperDigits, hnil 16]
    cases halternate : layout.alternate with
    | true =>
      refine ⟨formMark true 'X' ++ Number.upperDigits 16 word.toNat, ?_, .plain hne hupper⟩
      simp [numberForm?, halternate, formMark]
    | false => exact ⟨_, by simp [numberForm?, halternate, formMark], .plain hne hupper⟩
  · cases halternate : layout.alternate with
    | true =>
      have hzero := (Number.digits?_zeros (by decide) 1 _).trans hoctal
      exact ⟨_, by simp [numberForm?, halternate, formMark], .plain (List.cons_ne_nil _ _) hzero⟩
    | false => exact ⟨_, by simp [numberForm?, halternate, formMark], .plain (hnil 8) hoctal⟩

theorem eq_of_formMark_ne_nil {isAlternate : Bool} (h : formMark isAlternate form ≠ []) :
    isAlternate = true ∧ (form = 'x' ∨ form = 'X') := by
  unfold formMark at h
  split at h
  · cases isAlternate with
    | true => exact ⟨rfl, .inl rfl⟩
    | false => exact absurd rfl h
  · cases isAlternate with
    | true => exact ⟨rfl, .inr rfl⟩
    | false => exact absurd rfl h
  · exact absurd rfl h

/-- A mark is a zero and a letter, and the hexadecimal digits stand behind it. -/
theorem exists_marked_body (layout : Layout) (h : formMark layout.alternate form ≠ []) (word : UInt64)
    (width : Nat) :
    ∃ (m : Char) (ds : List Char), m ≠ '0' ∧ formMark layout.alternate form = ['0', m] ∧
      ds.length = (Number.digits 16 word.toNat).length ∧
      numberForm? layout form word width = some ('0' :: m :: ds, true) := by
  obtain ⟨halternate, hform⟩ := eq_of_formMark_ne_nil h
  cases hform with
  | inl hform =>
    subst hform
    exact ⟨'x', Number.digits 16 word.toNat, by decide, by rw [halternate]; rfl, rfl,
      by simp [numberForm?, halternate]⟩
  | inr hform =>
    subst hform
    exact ⟨'X', Number.upperDigits 16 word.toNat, by decide, by rw [halternate]; rfl,
      by simp [Number.upperDigits], by simp [numberForm?, halternate]⟩

/-- Zeros in front of the mark of a numeral spoil it. -/
theorem not_isNumeral_of_zeros {base fill : Nat} {m : Char} {z : Int} (hm : m ≠ '0')
    (hfill : 0 < fill) (rest : List Char) :
    ¬ IsNumeral base ['0', m] z (List.replicate fill '0' ++ '0' :: rest) := by
  intro h
  obtain ⟨more, hmore⟩ : ∃ more, List.replicate fill '0' ++ '0' :: rest = '0' :: '0' :: more := by
    cases fill with
    | zero => exact absurd hfill (Nat.lt_irrefl 0)
    | succ fill => cases fill <;> simp [List.replicate_succ]
  rw [hmore] at h
  generalize htext : '0' :: '0' :: more = text at h
  cases h with
  | plain =>
    simp at htext
    exact hm htext.1.symm
  | minus => simp at htext

theorem not_space_mem_formMark (isAlternate : Bool) (form : Char) : ' ' ∉ formMark isAlternate form := by
  by_cases h : formMark isAlternate form = []
  · rw [h]
    exact List.not_mem_nil
  · obtain ⟨halternate, hform⟩ := eq_of_formMark_ne_nil h
    subst halternate
    cases hform with
    | inl hform =>
      subst hform
      decide
    | inr hform =>
      subst hform
      decide

/-- Without a mark, padding keeps a numeral. -/
theorem isNumeral_unpadded {base : Nat} {z : Int} {body : List Char} (h : IsNumeral base [] z body)
    (hbase : 0 < base) (layout : Layout) : IsNumeral base [] z (unpadded (layout.pad true body)) := by
  rw [Layout.unpadded_pad (h.space_not_mem List.not_mem_nil) h.ne_nil]
  split
  · exact isNumeral_zeroed h hbase _
  · exact h

/-- With a mark, it does unless it fills the field with zeros. -/
theorem isNumeral_unpadded_iff {base : Nat} {z : Int} {m : Char} {ds : List Char} (hm : m ≠ '0')
    (hspace : ' ' ∉ '0' :: m :: ds) (h : IsNumeral base ['0', m] z ('0' :: m :: ds)) (layout : Layout) :
    IsNumeral base ['0', m] z (unpadded (layout.pad true ('0' :: m :: ds))) ↔
      ¬ (layout.left = false ∧ layout.zero = true ∧ ds.length + 2 < layout.width) := by
  have hzeroed : ∀ fill, zeroed fill ('0' :: m :: ds) = List.replicate fill '0' ++ '0' :: m :: ds :=
    fun fill => rfl
  rw [Layout.unpadded_pad hspace (List.cons_ne_nil _ _)]
  by_cases hzeros : layout.left = false ∧ layout.zero = true
  · rw [if_pos hzeros, hzeroed, ← and_assoc, and_iff_right hzeros, List.length_cons, List.length_cons]
    by_cases hroom : ds.length + 2 < layout.width
    · exact iff_of_false (not_isNumeral_of_zeros hm (by omega) _) (not_not_intro hroom)
    · have hfill : layout.width - (ds.length + 1 + 1) = 0 := by omega
      rw [hfill]
      exact iff_of_true h hroom
  · rw [if_neg hzeros]
    exact iff_of_true h fun hall => hzeros ⟨hall.1, hall.2.1⟩

/-- Zeros are put in front of a mark: the field asks for them and has room for them. -/
def ZerosPrecedeMark (a : Template.Adornment) (form : Char) (word : UInt64) : Prop :=
  formMark (a.flags.contains '#') form ≠ [] ∧ a.flags.contains '-' = false ∧
    a.flags.contains '0' = true ∧
    (Number.digits 16 word.toNat).length + 2 < Template.Adornment.clamped a.width

theorem shown_of_numberForm {word : UInt64} {width : Nat} {body : List Char}
    (h : numberForm? a.layout form word width = some (body, true)) :
    (Template.Span.conversion a form).shown (.number word width) = a.layout.pad true body := by
  simp only [Template.Span.shown, Template.Span.piece, Piece.render, h]

theorem isNumeral_shown_iff (a : Template.Adornment) (hform : form ∈ integerForms) (word : UInt64)
    (width : Nat) :
    IsNumeral (formBase form) (formMark (a.flags.contains '#') form) (formInteger word width form)
        (unpadded ((Template.Span.conversion a form).shown (.number word width))) ↔
      ¬ ZerosPrecedeMark a form word := by
  obtain ⟨body, hbody, hnumeral⟩ := exists_body hform a.layout word width
  have halternate : a.layout.alternate = a.flags.contains '#' := rfl
  rw [shown_of_numberForm hbody]
  rw [halternate] at hnumeral
  by_cases hmark : formMark (a.flags.contains '#') form = []
  · rw [hmark] at hnumeral ⊢
    exact iff_of_true (isNumeral_unpadded hnumeral (formBase_pos form) a.layout) fun h => h.1 hmark
  · obtain ⟨m, ds, hm, heq, hlength, hmarked⟩ := exists_marked_body a.layout hmark word width
    have hspace := hnumeral.space_not_mem (not_space_mem_formMark _ _)
    cases hbody.symm.trans hmarked
    rw [← halternate, heq] at hnumeral
    rw [← halternate, heq, isNumeral_unpadded_iff hm hspace hnumeral, hlength]
    exact not_congr (and_iff_right hmark).symm

/-- **A number is printed as a numeral of the integer that its conversion takes it for, in a field of at
least the width that is asked for**, which is clamped, but for one slip: where zeros fill up the field in
front of a mark, the text is no numeral. -/
theorem printed_number_reads_back (a : Template.Adornment) (hform : form ∈ integerForms) (word : UInt64)
    (width : Nat) :
    (∀ template spans, Template.Cuts template spans →
      Template.render template (.number word width) =
        spans.flatMap (Template.Span.shown (.number word width))) ∧
    (0 < width → width ≤ 8 → word.toNat < 256 ^ width →
      Number.signed word width = Number.twosComplement width word.toNat) ∧
    min (Nat.ofDigitChars 10 a.width 0) Template.maxCount ≤
      ((Template.Span.conversion a form).shown (.number word width)).length ∧
    (IsNumeral (formBase form) (formMark (a.flags.contains '#') form) (formInteger word width form)
        (unpadded ((Template.Span.conversion a form).shown (.number word width))) ↔
      ¬ ZerosPrecedeMark a form word) ∧
    (ZerosPrecedeMark a form word → ∃ fill body, 0 < fill ∧
      (Template.Span.conversion a form).shown (.number word width) = List.replicate fill '0' ++ body ∧
      IsNumeral (formBase form) (formMark (a.flags.contains '#') form) (formInteger word width form)
        body) := by
  obtain ⟨body, hbody, hnumeral⟩ := exists_body hform a.layout word width
  refine ⟨fun template spans h => h.render_eq _, Number.signed_eq, ?_, ?_, ?_⟩
  · rw [shown_of_numberForm hbody, Layout.length_pad]
    exact Nat.le_max_left _ _
  · exact isNumeral_shown_iff a hform word width
  · intro hzeros
    obtain ⟨hmark, hleft, hzero, hroom⟩ := hzeros
    obtain ⟨m, ds, -, -, hlength, hmarked⟩ := exists_marked_body a.layout hmark word width
    cases hbody.symm.trans hmarked
    refine ⟨a.layout.width - (ds.length + 2), _, ?_, ?_, hnumeral⟩
    · exact Nat.sub_pos_of_lt (hlength ▸ hroom)
    · rw [shown_of_numberForm hbody, Layout.pad_zero hleft hzero]
      rfl

/-- Zeros stand behind the sign of a number that is negative in two bytes. -/
theorem printed_number_reads_back_negative :
    ∃ a : Template.Adornment, a = { flags := ['#', '0'], width := ['6'] } ∧ 'd' ∈ integerForms ∧
      (Template.Span.conversion a 'd').shown (.number 0xFFD6 2) = "-00042".toList ∧
      IsNumeral 10 [] (-42) (unpadded "-00042".toList) := by
  let a : Template.Adornment := { flags := ['#', '0'], width := ['6'] }
  have hform : 'd' ∈ integerForms := by decide
  have hshown : (Template.Span.conversion a 'd').shown (.number 0xFFD6 2) = "-00042".toList := by decide
  obtain ⟨-, -, -, hnumeral, -⟩ := printed_number_reads_back a hform 0xFFD6 2
  have hinteger : formInteger 0xFFD6 2 'd' = -42 := by decide
  rw [hshown, hinteger] at hnumeral
  exact ⟨a, rfl, hform, hshown, hnumeral.2 fun hzeros => hzeros.1 rfl⟩

/-- Zeros stand in front of the mark, so the text is no hexadecimal numeral. -/
theorem printed_number_reads_back_spoilt :
    Template.Cuts "%#06x".toList [.conversion { flags := ['#', '0'], width := ['6'] } 'x'] ∧
      'x' ∈ integerForms ∧ Template.render "%#06x".toList (.number 0x1F 2) = "000x1f".toList ∧
      ¬ IsNumeral (formBase 'x') (formMark true 'x') (formInteger 0x1F 2 'x')
        (unpadded (Template.render "%#06x".toList (.number 0x1F 2))) := by
  have hcuts : Template.Cuts "%#06x".toList [.conversion { flags := ['#', '0'], width := ['6'] } 'x'] :=
    .conversion (a := { flags := ['#', '0'], width := ['6'] }) (by decide) (by decide) .nothing
  have hrender : Template.render "%#06x".toList (.number 0x1F 2) = "000x1f".toList := by
    rw [hcuts.render_eq]
    decide
  refine ⟨hcuts, by decide, hrender, ?_⟩
  rw [hrender]
  exact not_isNumeral_of_zeros (by decide) (show 0 < 2 by decide) _

end Forms

end Hallmark.Signature
